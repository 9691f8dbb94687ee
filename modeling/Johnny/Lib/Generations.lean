import Mathlib.Algebra.Ring.GeomSum
import Mathlib.Algebra.Order.BigOperators.Group.Finset
import Mathlib.Algebra.Order.BigOperators.Group.List

/-!
# Generations

Items are taken from a bag in any order, and each leaves behind at most `m` items that have
one generation less to go. An item with `n` generations to go is worth `1 + m + ... + m ^ (n - 1)`
items, so every item taken lowers the worth of the bag.
-/

namespace Generations
variable {α : Type} (m : ℕ) (left : α → ℕ)

/-- The items that one with `n` generations to go can become, itself included. -/
def worth (n : ℕ) : ℕ := ∑ i ∈ Finset.range n, m ^ i

def potential (bag : List α) : ℕ := (bag.map fun a => worth m (left a)).sum

variable {m left}

theorem worth_succ (n : ℕ) : worth m (n + 1) = m * worth m n + 1 := geom_sum_succ

theorem worth_mono {n k : ℕ} (le : n ≤ k) : worth m n ≤ worth m k :=
  Finset.sum_le_sum_of_subset (Finset.range_mono le)

theorem potential_append (bag new : List α) :
    potential m left (bag ++ new) = potential m left bag + potential m left new := by
  simp [potential]

theorem potential_le {new : List α} {n : ℕ} (young : ∀ a ∈ new, left a ≤ n) :
    potential m left new ≤ new.length * worth m n := by
  have each : ∀ w ∈ new.map fun a => worth m (left a), w ≤ worth m n := by
    intro w member
    obtain ⟨a, inside, rfl⟩ := List.mem_map.mp member
    exact worth_mono (young a inside)
  simpa [potential] using List.sum_le_card_nsmul _ _ each

/-- An item is taken, and few items of the next generation come in. -/
theorem potential_take {bag new : List α} {k n : ℕ} {a : α} (taken : bag[k]? = some a)
    (old : left a = n + 1) (few : new.length ≤ m) (young : ∀ b ∈ new, left b ≤ n) :
    potential m left (bag.eraseIdx k ++ new) + 1 ≤ potential m left bag := by
  obtain ⟨inside, rfl⟩ := List.getElem?_eq_some_iff.mp taken
  have split : potential m left bag =
      worth m (left bag[k]) + potential m left (bag.eraseIdx k) := by
    have perm := List.getElem_cons_eraseIdx_perm inside
    unfold potential
    rw [← List.sum_cons, ← List.map_cons (f := fun a => worth m (left a))]
    exact (perm.map _).sum_eq.symm
  have worthOld : worth m (left bag[k]) = m * worth m n + 1 := by rw [old, worth_succ]
  have worthNew : potential m left new ≤ m * worth m n :=
    (potential_le young).trans (Nat.mul_le_mul_right _ few)
  rw [potential_append]
  omega

end Generations
