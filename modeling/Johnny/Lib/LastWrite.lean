import Mathlib.Data.List.Basic

/-!
# The last write of a key wins

A keyed store seen as the relation of keys and values it holds. After a list of
writes a key holds its last written value, or its old ones where no write touched it.
-/
namespace LastWrite
variable {κ β : Type}

/-- One write: the key holds the new value and nothing else, other keys are left alone. -/
def written (H : κ → β → Prop) (w : κ × β) : κ → β → Prop := fun k v =>
  k = w.1 ∧ v = w.2 ∨ k ≠ w.1 ∧ H k v

/-- `v` is what the last write of `k` among `writes` wrote. -/
def IsLast (writes : List (κ × β)) (k : κ) (v : β) : Prop :=
  ∃ earlier later, writes = earlier ++ (k, v) :: later ∧ k ∉ later.map Prod.fst

theorem isLast_append {before after : List (κ × β)} {k : κ} {v : β} :
    IsLast (before ++ after) k v ↔
      IsLast after k v ∨ IsLast before k v ∧ k ∉ after.map Prod.fst := by
  constructor
  · rintro ⟨earlier, later, split, last⟩
    rcases List.append_eq_append_iff.mp split with ⟨middle, front, back⟩ | ⟨middle, front, back⟩
    · exact .inl ⟨middle, later, back, last⟩
    · cases middle with
      | nil => exact .inl ⟨[], later, by simpa using back.symm, last⟩
      | cons w middle =>
          injection back with head tail
          subst head
          change later = middle ++ after at tail
          rw [tail, List.map_append, List.mem_append, not_or] at last
          exact .inr ⟨⟨earlier, middle, front, last.1⟩, last.2⟩
  · rintro (⟨earlier, later, split, last⟩ | ⟨⟨earlier, later, split, last⟩, untouched⟩)
    · exact ⟨before ++ earlier, later, by rw [split, List.append_assoc], last⟩
    · refine ⟨earlier, later ++ after, by rw [split, List.append_assoc, List.cons_append], ?_⟩
      rw [List.map_append, List.mem_append, not_or]
      exact ⟨last, untouched⟩

theorem isLast_singleton {w : κ × β} {k : κ} {v : β} : IsLast [w] k v ↔ k = w.1 ∧ v = w.2 := by
  constructor
  · rintro ⟨earlier, later, split, -⟩
    cases earlier with
    | nil =>
        injection split with same
        subst same
        exact ⟨rfl, rfl⟩
    | cons x earlier => simp at split
  · rintro ⟨rfl, rfl⟩
    exact ⟨[], [], rfl, List.not_mem_nil⟩

theorem exists_isLast {writes : List (κ × β)} {k : κ} (touched : k ∈ writes.map Prod.fst) :
    ∃ v, IsLast writes k v := by
  induction writes with
  | nil => cases touched
  | cons w writes ih =>
      by_cases later : k ∈ writes.map Prod.fst
      · obtain ⟨v, last⟩ := ih later
        have behind : IsLast ([w] ++ writes) k v := isLast_append.mpr (.inl last)
        exact ⟨v, behind⟩
      · rcases List.mem_cons.mp touched with rfl | again
        · exact ⟨w.2, [], writes, rfl, later⟩
        · exact absurd again later

/-- After the writes a key holds its last one, or what it held where none touched it. -/
theorem foldl_written_iff (writes : List (κ × β)) (H : κ → β → Prop) (k : κ) (v : β) :
    writes.foldl written H k v ↔ IsLast writes k v ∨ k ∉ writes.map Prod.fst ∧ H k v := by
  induction writes generalizing H with
  | nil =>
      have never : ¬ IsLast [] k v := by
        rintro ⟨earlier, later, split, -⟩
        simp at split
      simp [never]
  | cons w writes ih =>
      rw [List.foldl_cons, ih, ← List.singleton_append, isLast_append, isLast_singleton, written]
      simp only [List.map_append, List.map_cons, List.map_nil, List.mem_append, List.mem_singleton]
      tauto

end LastWrite
