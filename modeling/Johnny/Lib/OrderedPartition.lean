import Mathlib.Data.List.Basic
import Mathlib.Data.List.Nodup

/-!
# Partitions grown one element at a time

Elements arrive in order; each joins a group at its end or starts a group after the others.
The groups hold every element once, in order, and are ordered by their first elements.
-/

variable {α β : Type}

/-- Where only the elements of a sublist give something, the list gives what the sublist does. -/
theorem filterMap_of_sublist {some all : List α} (sub : some.Sublist all)
    (distinct : all.Nodup) {f : α → Option β} (others : ∀ a ∈ all, a ∉ some → f a = none) :
    all.filterMap f = some.filterMap f := by
  induction sub with
  | slnil => rfl
  | cons a sub ih =>
      obtain ⟨new, rest⟩ := List.nodup_cons.mp distinct
      rw [List.filterMap_cons_none (others a List.mem_cons_self fun again => new (sub.subset again))]
      exact ih rest fun b inside => others b (List.mem_cons_of_mem a inside)
  | cons_cons a sub ih =>
      obtain ⟨new, rest⟩ := List.nodup_cons.mp distinct
      have same := ih rest fun b inside out => others b (List.mem_cons_of_mem a inside) fun again =>
        (List.mem_cons.mp again).elim (fun here => new (here ▸ inside)) out
      rw [List.filterMap_cons, List.filterMap_cons, same]

/-- The groups of the elements that have arrived. -/
structure OrderedPartition (arrived : List α) (groups : List (List α)) : Prop where
  whole : groups.flatten.Perm arrived
  filled : ∀ group ∈ groups, group ≠ []
  inOrder : ∀ group ∈ groups, group.Sublist arrived
  byFirst : (groups.filterMap List.head?).Sublist arrived

namespace OrderedPartition
variable {arrived : List α} {groups : List (List α)}

theorem nil : OrderedPartition ([] : List α) [] where
  whole := List.Perm.refl _
  filled := by simp
  inOrder := by simp
  byFirst := List.Sublist.refl _

theorem join {before group after} (h : OrderedPartition arrived (before ++ group :: after))
    (a : α) : OrderedPartition (arrived ++ [a]) (before ++ (group ++ [a]) :: after) := by
  have here : group ∈ before ++ group :: after := List.mem_append_right _ List.mem_cons_self
  have longer : arrived.Sublist (arrived ++ [a]) := List.sublist_append_left _ _
  have old {g : List α} (member : g ∈ before ++ (group ++ [a]) :: after) :
      g ∈ before ++ group :: after ∨ g = group ++ [a] := by
    rcases List.mem_append.mp member with left | right
    · exact .inl (List.mem_append_left _ left)
    · rcases List.mem_cons.mp right with new | right
      · exact .inr new
      · exact .inl (List.mem_append_right _ (List.mem_cons_of_mem _ right))
  refine ⟨?_, fun g member => ?_, fun g member => ?_, ?_⟩
  · refine List.Perm.trans ?_ (h.whole.append_right [a])
    simp only [List.flatten_append, List.flatten_cons, List.append_assoc]
    have moved : ([a] ++ after.flatten).Perm (after.flatten ++ [a]) := List.perm_append_comm
    exact (moved.append_left group).append_left before.flatten
  · rcases old member with old | rfl
    · exact h.filled g old
    · exact List.append_ne_nil_of_right_ne_nil _ (List.cons_ne_nil _ _)
  · rcases old member with old | rfl
    · exact (h.inOrder g old).trans longer
    · exact (h.inOrder group here).append (List.Sublist.refl _)
  · have same : (group ++ [a]).head? = group.head? :=
      List.head?_append_of_ne_nil _ (h.filled group here)
    have firsts := h.byFirst.trans longer
    rw [List.filterMap_append, List.filterMap_cons] at firsts ⊢
    rwa [same]

theorem seed (h : OrderedPartition arrived groups) (a : α) :
    OrderedPartition (arrived ++ [a]) (groups ++ [[a]]) := by
  refine ⟨?_, fun g member => ?_, fun g member => ?_, ?_⟩
  · simpa using h.whole.append_right [a]
  · rcases List.mem_append.mp member with old | new
    · exact h.filled g old
    · rw [List.mem_singleton.mp new]
      exact List.cons_ne_nil _ _
  · rcases List.mem_append.mp member with old | new
    · exact (h.inOrder g old).trans (List.sublist_append_left _ _)
    · rw [List.mem_singleton.mp new]
      exact List.sublist_append_right _ _
  · rw [List.filterMap_append]
    exact h.byFirst.append (List.Sublist.refl _)

/-- Where only first elements give something, the elements give what the groups' first ones do. -/
theorem filterMap_heads (h : OrderedPartition arrived groups) (distinct : arrived.Nodup)
    {f : α → Option β} (others : ∀ a ∈ arrived, a ∉ groups.filterMap List.head? → f a = none) :
    arrived.filterMap f = groups.filterMap fun group => group.head?.bind f := by
  rw [filterMap_of_sublist h.byFirst distinct others, List.filterMap_filterMap]

end OrderedPartition
