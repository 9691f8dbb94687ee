import Johnny.Effectors.Dispatch
import Johnny.Lib.Footprint

/-!
# Asking a model

An agent asks for a completion of its role and reads the reply. Where every provider is tired
there is no reply; any other failure of the call passes, and so does that of the reading.
-/
namespace Johnny

/-- `router.complete`, by role, messages, temperature and token ceiling. -/
abbrev Complete (K ω : Type) := String → List Message → K → ℕ → Prog Failure ω Completion

section consult
variable {K ω ρ : Type}

def consult (complete : Complete K ω) (role prompt question : String) (temperature : K)
    (maxTokens : ℕ) (parse : String → Except Failure ρ) : Prog Failure ω (Option ρ) := do
  let completion ← Prog.rescue Failure.isUnavailable
    (do
      let completion ← complete role [⟨"system", prompt⟩, ⟨"user", question⟩] temperature maxTokens
      pure (some completion))
    fun _ => pure none
  match completion with
  | none => pure none
  | some completion => do
    let reply ← Prog.reraise (parse completion.content)
    pure (some reply)

variable {complete : Complete K ω} {role prompt question : String} {temperature : K}
  {maxTokens : ℕ} {parse : String → Except Failure ρ}

theorem consult_within {M : ω → ω → Prop}
    (moves : ∀ role messages temperature maxTokens,
      Prog.Within M (complete role messages temperature maxTokens)) :
    Prog.Within M (consult complete role prompt question temperature maxTokens parse) := by
  unfold consult
  apply Prog.Within.bind
  · apply Prog.Within.rescue
    · exact .bind (moves _ _ _ _) fun _ => .pure _
    · exact fun _ => .pure _
  · rintro (_ | completion)
    · exact .pure _
    · exact .bind (.reraise _) fun _ => .pure _

/-- A reply is what the reader took from the completion that the model returned. -/
theorem consult_reply {w w' : ω} {reply : ρ}
    (ran : consult complete role prompt question temperature maxTokens parse w =
      (.ok (some reply), w')) :
    ∃ completion, complete role [⟨"system", prompt⟩, ⟨"user", question⟩] temperature maxTokens w =
      (.ok completion, w') ∧ parse completion.content = .ok reply := by
  unfold consult at ran
  obtain ⟨answer, v, asked, read⟩ := Prog.ok_of_bind ran
  cases answer with
  | none => cases read
  | some completion =>
      obtain ⟨reply', v', accepted, same⟩ := Prog.ok_of_bind read
      cases same
      obtain ⟨parsed, rfl⟩ := Prog.reraise_ok_iff.mp accepted
      refine ⟨completion, ?_, parsed⟩
      rcases told : complete role [⟨"system", prompt⟩, ⟨"user", question⟩] temperature maxTokens w
        with ⟨e | completion', u⟩
      · -- a tired model has no completion, and any other failure passes
        cases tired : e.isUnavailable with
        | true =>
            cases asked.symm.trans (Prog.rescue_of_caught (Prog.bind_of_error told) tired)
        | false =>
            cases asked.symm.trans (Prog.rescue_of_passed (Prog.bind_of_error told) tired)
      · cases asked.symm.trans (Prog.rescue_of_ok (Prog.bind_of_ok told))
        rfl

end consult
end Johnny
