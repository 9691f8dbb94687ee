import Mathlib.Data.List.Sort

/-!
# Places in a sorted list

Sorting moves an element past those that come before it in the order. Among equals the order
of the list is kept, so its place can be counted without sorting.
-/

namespace List
variable {α : Type} (r : α → α → Prop) [DecidableRel r] [IsTrans α r]

/-- Inserting an element moves `x` up by one where it goes before `x`. -/
theorem orderedInsert_split (a x : α) (first last : List α)
    (sorted : (first ++ x :: last).Pairwise r) :
    ∃ first' last', (first ++ x :: last).orderedInsert r a = first' ++ x :: last' ∧
      first'.length = first.length + if r a x then 1 else 0 := by
  induction first with
  | nil =>
      by_cases le : r a x
      · exact ⟨[a], last, orderedInsert_cons_of_le r last le, by rw [if_pos le]; rfl⟩
      · exact ⟨[], last.orderedInsert r a, orderedInsert_of_not_le r last le, by rw [if_neg le]; rfl⟩
  | cons b first ih =>
      obtain ⟨below, rest⟩ := pairwise_cons.mp sorted
      have b_le : r b x := below x (mem_append_right first mem_cons_self)
      by_cases le : r a b
      · refine ⟨a :: b :: first, last, orderedInsert_cons_of_le r _ le, ?_⟩
        rw [if_pos (IsTrans.trans _ _ _ le b_le)]
        rfl
      · obtain ⟨first', last', split, length⟩ := ih rest
        refine ⟨b :: first', last', ?_, ?_⟩
        · rw [cons_append, orderedInsert_of_not_le r _ le, split, cons_append]
        · rw [length_cons, length, length_cons]
          omega

/-- In a sorted list the elements that `x` does not precede come first. -/
theorem length_takeWhile_of_sorted (x : α) {sorted : List α} (h : sorted.Pairwise r) :
    (sorted.takeWhile fun b => !decide (r x b)).length = sorted.countP fun b => !decide (r x b) := by
  induction sorted with
  | nil => rfl
  | cons b rest ih =>
      obtain ⟨below, later⟩ := pairwise_cons.mp h
      by_cases le : r x b
      · have none : rest.countP (fun c => !decide (r x c)) = 0 :=
          countP_eq_zero.mpr fun c member => by simp [IsTrans.trans _ _ _ le (below c member)]
        simp [le, none]
      · simp [le, ih later]

variable [Std.Total r]

/-- The place of an element: after what stood before it and may precede it, and after what stood
behind it and must. -/
theorem insertionSort_split (x : α) (before after : List α) :
    ∃ first last, (before ++ x :: after).insertionSort r = first ++ x :: last ∧
      first.length = (before.countP fun b => decide (r b x)) +
        after.countP fun b => !decide (r x b) := by
  induction before with
  | nil =>
      refine ⟨_, _, insertionSort_cons_eq_take_drop r x after, ?_⟩
      have counted := length_takeWhile_of_sorted r x (pairwise_insertionSort r after)
      rw [(perm_insertionSort r after).countP_eq] at counted
      simpa using counted
  | cons a before ih =>
      obtain ⟨first, last, split, length⟩ := ih
      have sorted := pairwise_insertionSort r (before ++ x :: after)
      rw [split] at sorted
      obtain ⟨first', last', inserted, longer⟩ := orderedInsert_split r a x first last sorted
      refine ⟨first', last', ?_, ?_⟩
      · rw [cons_append, insertionSort_cons, split, inserted]
      · rw [longer, length, countP_cons]
        simp only [decide_eq_true_eq]
        omega

end List
