import Mathlib.Data.List.Sort

/-!
# The best of a list

A list sorted by a score, highest first, and cut after so many places: what is taken scores at
least what is left, and elements of one score keep the order of the list.
-/

variable {α β : Type} {K : Type} [LinearOrder K]

namespace List

/-- `sorted(l, key=score, reverse=True)[:count]`. -/
def best (score : α → K) (count : ℕ) (l : List α) : List α :=
  (l.insertionSort fun a b => score b ≤ score a).take count

/-- The elements that do not make it. -/
def rest (score : α → K) (count : ℕ) (l : List α) : List α :=
  (l.insertionSort fun a b => score b ≤ score a).drop count

variable (score : α → K) (count : ℕ) (l : List α)

theorem best_append_rest :
    l.best score count ++ l.rest score count = l.insertionSort fun a b => score b ≤ score a :=
  take_append_drop count _

theorem best_perm : (l.best score count ++ l.rest score count).Perm l := by
  rw [best_append_rest]
  exact perm_insertionSort _ l

theorem length_best : (l.best score count).length = min count l.length := by
  rw [best, length_take, length_insertionSort]

variable {score count l}

theorem mem_of_mem_best {a : α} (inside : a ∈ l.best score count) : a ∈ l :=
  (perm_insertionSort _ l).mem_iff.mp (mem_of_mem_take inside)

theorem mem_best_or_rest {a : α} (inside : a ∈ l) :
    a ∈ l.best score count ∨ a ∈ l.rest score count :=
  mem_append.mp ((best_perm score count l).mem_iff.mpr inside)

theorem ordered_best_rest :
    (l.best score count ++ l.rest score count).Pairwise fun a b => score b ≤ score a := by
  have trans : IsTrans α fun a b => score b ≤ score a := ⟨fun _ _ _ ab bc => bc.trans ab⟩
  have total : Std.Total fun a b : α => score b ≤ score a := ⟨fun a b => le_total _ _⟩
  rw [best_append_rest]
  exact pairwise_insertionSort _ l

theorem ordered_best : (l.best score count).Pairwise fun a b => score b ≤ score a :=
  ordered_best_rest.sublist (sublist_append_left _ _)

theorem rest_le_best {a b : α} (taken : a ∈ l.best score count) (left : b ∈ l.rest score count) :
    score b ≤ score a :=
  (pairwise_append.mp ordered_best_rest).2.2 a taken b left

/-- Where places are left over, nothing is left out. -/
theorem rest_eq_nil (room : l.length ≤ count) : l.rest score count = [] := by
  rw [rest, drop_eq_nil_iff, length_insertionSort]
  exact room

theorem length_best_of_rest {b : α} (left : b ∈ l.rest score count) :
    (l.best score count).length = count := by
  rw [length_best, min_eq_left]
  by_contra short
  rw [rest_eq_nil (Nat.le_of_not_le short)] at left
  cases left

/-- Of two elements the earlier stays first, unless the later scores more. -/
theorem stable_best_rest {a b : α} (order : [a, b] <+ l) (le : score b ≤ score a) :
    [a, b] <+ l.best score count ++ l.rest score count := by
  have trans : IsTrans α fun a b => score b ≤ score a := ⟨fun _ _ _ ab bc => bc.trans ab⟩
  have total : Std.Total fun a b : α => score b ≤ score a := ⟨fun a b => le_total _ _⟩
  rw [best_append_rest]
  exact pair_sublist_insertionSort le order

/-- What stands before an element that is taken, and scores no less, is taken as well. -/
theorem mem_best_of_before {a b : α} (distinct : l.Nodup) (order : [a, b] <+ l)
    (le : score b ≤ score a) (taken : b ∈ l.best score count) : a ∈ l.best score count := by
  have all := (best_perm score count l).nodup_iff.mpr distinct
  have placed : [a, b] <+ l.best score count ++ l.rest score count := stable_best_rest order le
  obtain ⟨front, back, split, first, last⟩ := sublist_append_iff.mp placed
  cases front with
  | nil =>
      rw [nil_append] at split
      have behind : b ∈ l.rest score count := last.subset (split ▸ by simp)
      exact absurd rfl ((nodup_append.mp all).2.2 b taken b behind)
  | cons c front =>
      obtain ⟨rfl, -⟩ := cons.inj split
      exact first.subset mem_cons_self

end List
