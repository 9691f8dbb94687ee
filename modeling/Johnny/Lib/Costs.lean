import Johnny.Lib.Prog

/-!
# What a program costs at most

A count of the state, such as the calls made so far, that every run of a program moves by at
most a number. The numbers of programs that follow each other add up.
-/

namespace Prog
variable {ε σ α β : Type}

/-- Every run of `p`, returned or raised, moves the count by at most `n`. -/
def Costs (count : σ → ℕ) (n : ℕ) (p : Prog ε σ α) : Prop := ∀ s, count (p s).2 ≤ count s + n

namespace Costs
variable {count : σ → ℕ} {m n : ℕ} {p : Prog ε σ α}

theorem mono (h : Costs count m p) (le : m ≤ n) : Costs count n p :=
  fun s => Nat.le_trans (h s) (Nat.add_le_add_left le _)

theorem pure (a : α) : Costs count 0 (Pure.pure a : Prog ε σ α) := fun _ => Nat.le_refl _

theorem reraise (r : Except ε α) : Costs count 0 (Prog.reraise r : Prog ε σ α) := by
  cases r with
  | ok a => exact pure a
  | error e => exact fun _ => Nat.le_refl _

theorem bind {f : α → Prog ε σ β} (hp : Costs count m p) (hf : ∀ a, Costs count n (f a)) :
    Costs count (m + n) (p >>= f) := by
  intro s
  have first := hp s
  rw [bind_apply]
  rcases ran : p s with ⟨r, t⟩
  rw [ran] at first
  cases r with
  | ok a => exact Nat.le_trans (hf a t) (by dsimp only at first; omega)
  | error e => exact Nat.le_trans first (by omega)

theorem rescue {catches : ε → Bool} {handler : ε → Prog ε σ α} (hp : Costs count m p)
    (hh : ∀ e, Costs count n (handler e)) : Costs count (m + n) (rescue catches p handler) := by
  intro s
  have first := hp s
  unfold Prog.rescue
  rcases ran : p s with ⟨r, t⟩
  rw [ran] at first
  dsimp only at first ⊢
  cases r with
  | ok a => exact Nat.le_trans first (by omega)
  | error e =>
      dsimp only
      split
      · exact Nat.le_trans (hh e t) (by omega)
      · exact Nat.le_trans first (by omega)

/-- A loop costs at most as much for each of its passes. -/
theorem collect {f : β → Prog ε σ α} (bs : List β) (hf : ∀ b, Costs count n (f b)) :
    Costs count (bs.length * n) (Prog.collect bs f) := by
  induction bs with
  | nil => exact (pure []).mono (Nat.zero_le _)
  | cons b bs ih =>
      have all := (hf b).bind fun a => ih.bind fun as => pure (a :: as)
      refine all.mono ?_
      rw [List.length_cons, Nat.succ_mul]
      omega

end Costs
end Prog
