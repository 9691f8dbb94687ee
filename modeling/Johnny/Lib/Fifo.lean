import Mathlib.Data.List.Basic

/-!
# First in, first out

A queue counts what was popped, so every element has a place: the number of
elements pushed before it. Pops hand out the places in order, each once.
-/

/-- A queue; the element at the head has the place `popped`. -/
structure Fifo (α : Type) where
  popped : ℕ := 0
  waiting : List α := []

namespace Fifo
variable {α : Type} {q : Fifo α} {n : ℕ} {p : α × ℕ}

def push (a : α) (q : Fifo α) : Fifo α := { q with waiting := q.waiting ++ [a] }

/-- The waiting elements with their places. -/
def placed (q : Fifo α) : List (α × ℕ) := q.waiting.zipIdx q.popped

/-- At most `n` elements from the head. -/
def batch (n : ℕ) (q : Fifo α) : List (α × ℕ) := (q.waiting.take n).zipIdx q.popped

/-- What is left without them. -/
def rest (n : ℕ) (q : Fifo α) : Fifo α where
  popped := q.popped + (q.waiting.take n).length
  waiting := q.waiting.drop n

@[simp] theorem push_popped (a : α) (q : Fifo α) : (q.push a).popped = q.popped := rfl

theorem push_placed (a : α) (q : Fifo α) :
    (q.push a).placed = q.placed ++ [(a, q.popped + q.waiting.length)] := by
  unfold placed push
  rw [List.zipIdx_append]
  rfl

theorem le_of_mem_placed (member : p ∈ q.placed) : q.popped ≤ p.2 :=
  List.le_snd_of_mem_zipIdx member

theorem batch_append_rest (n : ℕ) (q : Fifo α) : q.batch n ++ (q.rest n).placed = q.placed := by
  unfold batch placed rest
  conv_rhs => rw [← List.take_append_drop n q.waiting, List.zipIdx_append]

theorem mem_batch_lt (member : p ∈ q.batch n) : p.2 < (q.rest n).popped := by
  have bound := List.snd_lt_add_of_mem_zipIdx member
  unfold rest
  omega

theorem mem_batch_le (member : p ∈ q.batch n) : q.popped ≤ p.2 :=
  List.le_snd_of_mem_zipIdx member

/-- What was popped is not waiting any more. -/
theorem not_mem_rest (member : p ∈ q.batch n) : p ∉ (q.rest n).placed := by
  intro waiting
  have before := mem_batch_lt member
  have after := le_of_mem_placed waiting
  omega

theorem rest_popped_le (n : ℕ) (q : Fifo α) : q.popped ≤ (q.rest n).popped :=
  Nat.le_add_right _ _

theorem batch_pairwise (n : ℕ) (q : Fifo α) :
    ((q.batch n).map Prod.snd).Pairwise (· < ·) := by
  unfold batch
  rw [List.zipIdx_map_snd]
  exact List.pairwise_lt_range'

end Fifo
