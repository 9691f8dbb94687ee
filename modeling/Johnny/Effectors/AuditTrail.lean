import Johnny.Effectors.Dispatch

/-!
# Which commits leave an action record

The record of an allowed action is written after its tool returned, so a tool
that raises leaves an execution without a record. Vetoed actions and returning
tools leave exactly one.
-/
namespace Johnny
variable {K ω : Type}

/-- The records the audit sink accepted, newest first. -/
def recordsIn (h : List (Entry K ω)) : List (ActionRecord K) :=
  h.filterMap fun e =>
    match e.what with
    | .recorded r => some r
    | _ => none

/-- The executions that started, newest first. -/
def runsIn (h : List (Entry K ω)) : List (Tool K ω × Dict K) :=
  h.filterMap fun e =>
    match e.what with
    | .ran tool args => some (tool, args)
    | _ => none

/-- What a commit owes the trail: one record of the action for each execution it
started, or, for a veto, one failed record without a result and no execution. -/
structure Audited (v : VettedAction K ω) (new : List (Entry K ω)) : Prop where
  names : ∀ r ∈ recordsIn new, r.tool = v.action.tool ∧ r.args = v.action.args
  allowed : v.verdict.allowed = true → (recordsIn new).length = (runsIn new).length
  vetoed : v.verdict.allowed = false → runsIn new = [] ∧ (recordsIn new).length = 1 ∧
    ∀ r ∈ recordsIn new, r.success = false ∧ r.result = none

namespace EffectorDispatch

/-- The commit of `v` from `s` adds entries that meet `Audited`. -/
def AuditsCommit (d : EffectorDispatch K ω) (v : VettedAction K ω) (s : Mind K ω) : Prop :=
  ∃ new, (d.commit v s).2.history = new ++ s.history ∧ Audited v new

variable {d : EffectorDispatch K ω}

theorem record_of_accepts {r : ActionRecord K} {s : Mind K ω}
    (accepted : (d.audit r s.world).1 = .ok ()) :
    d.record r s = (.ok (), { s with
      world := (d.audit r s.world).2
      history := ⟨s.tick, .recorded r⟩ :: s.history }) := by
  rw [record, Mind.outside_bind_ok accepted]
  rfl

/-- Whether or not the bus raises, emitting last adds nothing to the history. -/
theorem emit_then_history {α : Type} (eventType : String) (action : ProposedAction K)
    (verdict : Verdict) (result : Option (ToolResult K)) (success : Bool) (a : α)
    (s : Mind K ω) :
    ((d.emit eventType action verdict result success >>= fun _ => pure a) s).2.history =
      s.history := by
  rw [Prog.bind_apply]
  unfold emit
  rw [Mind.outside_apply]
  split
  · next h => exact congrArg (fun r => r.2.history) h.symm
  · next h => exact congrArg (fun r => r.2.history) h.symm

theorem commit_veto_history {v : VettedAction K ω} {s : Mind K ω}
    (accepts : ∀ r w, (d.audit r w).1 = .ok ()) (vetoed : v.verdict.allowed = false) :
    ∃ n o, (d.commit v s).2.history =
      ⟨n, .commitEnded o⟩ :: ⟨s.tick, .recorded (vetoRecord v)⟩ :: s.history := by
  obtain ⟨n, o, grown⟩ := Mind.noting_history _ _ s
  refine ⟨n, o, grown.trans ?_⟩
  simp only [vetoed, Bool.not_false, if_true]
  rw [Prog.bind_of_ok (record_of_accepts (accepts _ _)), emit_then_history]

theorem commit_returned_history {v : VettedAction K ω} {s : Mind K ω} {result : ToolResult K}
    (accepts : ∀ r w, (d.audit r w).1 = .ok ()) (allowed : v.verdict.allowed = true)
    (returned : (v.tool.run v.validated s.world).1 = .ok result) :
    ∃ n o, (d.commit v s).2.history =
      ⟨n, .commitEnded o⟩ :: ⟨s.tick, .recorded (runRecord v result)⟩ ::
        ⟨s.tick, .ran v.tool v.validated⟩ :: s.history := by
  obtain ⟨n, o, grown⟩ := Mind.noting_history _ _ s
  refine ⟨n, o, grown.trans ?_⟩
  simp only [allowed, Bool.not_true, Bool.false_eq_true, if_false, Mind.note_bind]
  rw [Mind.outside_bind_ok (a := result), Prog.bind_of_ok (record_of_accepts (accepts _ _)),
    emit_then_history]
  exact returned

theorem commit_raised_history {v : VettedAction K ω} {s : Mind K ω} {e : Failure}
    (allowed : v.verdict.allowed = true)
    (raised : (v.tool.run v.validated s.world).1 = .error e) :
    (d.commit v s).2.history =
      ⟨s.tick, .commitEnded (.error e)⟩ :: ⟨s.tick, .ran v.tool v.validated⟩ :: s.history := by
  rw [commit, Mind.noting_apply]
  simp only [allowed, Bool.not_true, Bool.false_eq_true, if_false, Mind.note_bind]
  rw [Mind.outside_bind_error (e := e)]
  exact raised

/-- With a sink that accepts every write, a commit is audited exactly where it
vetoes or its tool returns. -/
theorem commit_audited_iff (accepts : ∀ r w, (d.audit r w).1 = .ok ())
    (v : VettedAction K ω) (s : Mind K ω) :
    d.AuditsCommit v s ↔
      (v.verdict.allowed = true → ∃ result, (v.tool.run v.validated s.world).1 = .ok result) := by
  constructor
  · rintro ⟨new, grown, audited⟩ allowed
    cases ended : (v.tool.run v.validated s.world).1 with
    | ok result => exact ⟨result, rfl⟩
    | error e =>
        rw [commit_raised_history allowed ended] at grown
        have same : [⟨s.tick, .commitEnded (.error e)⟩, ⟨s.tick, .ran v.tool v.validated⟩] = new :=
          List.append_cancel_right grown
        have balanced := audited.allowed allowed
        rw [← same] at balanced
        simp [recordsIn, runsIn] at balanced
  · intro returns
    cases allowed : v.verdict.allowed with
    | false =>
        obtain ⟨n, o, grown⟩ := commit_veto_history (s := s) accepts allowed
        refine ⟨[_, _], grown, ?_, ?_, ?_⟩
        · simp [recordsIn, vetoRecord]
        · simp [allowed]
        · simp [recordsIn, runsIn, vetoRecord]
    | true =>
        obtain ⟨result, returned⟩ := returns allowed
        obtain ⟨n, o, grown⟩ := commit_returned_history accepts allowed returned
        refine ⟨[_, _, _], grown, ?_, ?_, ?_⟩
        · simp [recordsIn, runRecord]
        · simp [recordsIn, runsIn]
        · simp [allowed]

end EffectorDispatch

/-! ### A search whose database is down -/

namespace SearchDown

/-- The world is the action log. -/
abbrev Log : Type := List (ActionRecord ℕ)

def databaseDown : Failure := .exception (.other "OperationalError") "connection refused"

def memorySearch : Tool ℕ Log where
  name := "memory_search"
  danger := .safe
  validateArgs := .ok
  run _ := Prog.raise databaseDown

def memoryWrite : Tool ℕ Log where
  name := "memory_write"
  danger := .safe
  validateArgs := .ok
  run _ := pure { success := true, summary := "remembered" }

def dispatch : EffectorDispatch ℕ Log where
  registry _ := ⟨[memorySearch, memoryWrite], by decide⟩
  conscience :=
    { prompt := "", dumps := fun _ => "\x7b\x7d", parseVerdict := fun _ => .ok ⟨.allow, ""⟩
      complete := fun _ _ => pure ⟨""⟩ }
  audit r := Prog.modify (r :: ·)
  broadcast _ := pure ()

def awake : Mind ℕ Log := { world := [], nextInterval := 0 }

def allowedCall (tool : Tool ℕ Log) : VettedAction ℕ Log where
  action := { tool := tool.name, args := [("query", .str "tea")] }
  tool := tool
  validated := [("query", .str "tea")]
  verdict := ⟨.allow, ""⟩

end SearchDown

open SearchDown in
/-- The sink accepts every write and the search was vetted, yet its commit leaves
an execution without a record. -/
theorem search_down_unaudited :
    (∀ r w, (dispatch.audit r w).1 = .ok ()) ∧
      (dispatch.vet { tool := "memory_search", args := [("query", .str "tea")] } [] awake).1 =
        .ok (allowedCall memorySearch) ∧
      ¬ dispatch.AuditsCommit (allowedCall memorySearch) awake := by
  refine ⟨fun _ _ => rfl, rfl, ?_⟩
  rintro ⟨new, grown, audited⟩
  have same : [⟨0, .commitEnded (.error databaseDown)⟩, ⟨0, .ran memorySearch _⟩] = new :=
    List.append_cancel_right grown
  have balanced := audited.allowed rfl
  rw [← same] at balanced
  simp [recordsIn, runsIn] at balanced

open SearchDown in
theorem memory_write_audited :
    dispatch.AuditsCommit (allowedCall memoryWrite) awake ↔
      ((allowedCall memoryWrite).verdict.allowed = true →
        ∃ result, (memoryWrite.run [("query", .str "tea")] []).1 = .ok result) :=
  EffectorDispatch.commit_audited_iff (fun _ _ => rfl) (allowedCall memoryWrite) awake

end Johnny
