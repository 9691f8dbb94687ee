import Johnny.Lib.Prog

/-!
# Programs that write a journal

A journal is a list in the state that programs only append to. What a program appends is
read off its outcome; what a loop appends, off what its passes append.
-/

namespace Prog
variable {ε σ τ α β : Type}

/-- `p` appends to the journal what `R` says of its outcome. -/
def Writes (journal : σ → List τ) (p : Prog ε σ α) (R : Except ε α → List τ → Prop) : Prop :=
  ∀ s, ∃ news, journal (p s).2 = journal s ++ news ∧ R (p s).1 news

/-- What passes over a list append, one after the other. -/
inductive Each (R : β → List τ → Prop) : List β → List τ → Prop
  | nil : Each R [] []
  | cons {b bs news more} : R b news → Each R bs more → Each R (b :: bs) (news ++ more)

theorem Each.mono {R R' : β → List τ → Prop} {bs : List β} {news : List τ} (each : Each R bs news)
    (weaken : ∀ b news, R b news → R' b news) : Each R' bs news := by
  induction each with
  | nil => exact .nil
  | cons first _ ih => exact .cons (weaken _ _ first) ih

variable {journal : σ → List τ}

/-- A loop appends what some of its first passes do, and what all of them do if it returns. -/
theorem Writes.forEach {f : β → Prog ε σ Unit} {R : β → Except ε Unit → List τ → Prop}
    (each : ∀ b, Writes journal (f b) (R b)) (bs : List β) :
    Writes journal (forEach bs f) fun r news =>
      (∃ done, done <+: bs ∧ Each (fun b news => ∃ r, R b r news) done news) ∧
        (r = .ok () → Each (fun b => R b (.ok ())) bs news) := by
  induction bs with
  | nil => exact fun s => ⟨[], (List.append_nil _).symm, ⟨[], List.nil_prefix, .nil⟩, fun _ => .nil⟩
  | cons b bs ih =>
      intro s
      obtain ⟨news, grown, first⟩ := each b s
      change ∃ news, journal ((f b >>= fun _ => Prog.forEach bs f) s).2 = journal s ++ news ∧ _
      rcases ran : f b s with ⟨r, t⟩
      rw [ran] at grown first
      cases r with
      | error failure =>
          rw [show Prog.forEach (b :: bs) f s = (.error failure, t) from bind_of_error ran,
            bind_of_error ran]
          refine ⟨news, grown, ⟨[b], ⟨bs, rfl⟩, ?_⟩, nofun⟩
          have single := Each.cons (R := fun b news => ∃ r, R b r news) ⟨_, first⟩ .nil
          rwa [List.append_nil] at single
      | ok u =>
          obtain ⟨more, further, ⟨done, ⟨left, split⟩, some⟩, all⟩ := ih t
          rw [show Prog.forEach (b :: bs) f s = Prog.forEach bs f t from bind_of_ok ran,
            bind_of_ok ran]
          refine ⟨news ++ more, ?_, ⟨b :: done, ⟨left, ?_⟩, .cons ⟨_, first⟩ some⟩, fun ended => ?_⟩
          · rw [further, grown, List.append_assoc]
          · rw [List.cons_append, split]
          · exact .cons first (all ended)

/-- A loop returns exactly if every pass does, in the state the passes before it leave. -/
theorem forEach_ok_iff (f : β → Prog ε σ Unit) (bs : List β) (s : σ) :
    (forEach bs f s).1 = .ok () ↔ ∀ before b after, bs = before ++ b :: after →
      (f b (forEach before f s).2).1 = .ok () := by
  induction bs generalizing s with
  | nil => simp [forEach]
  | cons b bs ih =>
      change ((f b >>= fun _ => forEach bs f) s).1 = .ok () ↔ _
      rcases ran : f b s with ⟨r, t⟩
      cases r with
      | error failure =>
          rw [bind_of_error ran]
          refine iff_of_false nofun fun all => ?_
          have first := all [] b bs rfl
          simp [forEach, ran] at first
      | ok u =>
          rw [bind_of_ok ran, ih t]
          constructor
          · intro later before b' after split
            cases before with
            | nil =>
                cases split
                simp [forEach, ran]
            | cons c before =>
                obtain ⟨rfl, tail⟩ := List.cons.inj split
                rw [show forEach (b :: before) f s = forEach before f t from bind_of_ok ran]
                exact later before b' after tail
          · intro all before b' after split
            have met := all (b :: before) b' after (by rw [split, List.cons_append])
            rwa [show forEach (b :: before) f s = forEach before f t from bind_of_ok ran] at met

end Prog
