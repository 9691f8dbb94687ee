import Mathlib.Tactic.Common

/-!
# Programs that change a state and may raise

A program runs from a state, and either returns a value or raises a failure. A
raise keeps the state it was raised in: what was written before it stays
written. Awaited calls, `try`/`except` and `try`/`finally` are read in this
sense, so a run is a function and a failure pattern is part of the state it
starts from.
-/

/-- Run from a state: the outcome, and the state reached in either case. -/
def Prog (ε σ α : Type) : Type := σ → Except ε α × σ

namespace Prog
variable {ε σ τ α β : Type}

instance : Monad (Prog ε σ) where
  pure a := fun s => (.ok a, s)
  bind p f := fun s =>
    match p s with
    | (.ok a, s') => f a s'
    | (.error e, s') => (.error e, s')

def raise (e : ε) : Prog ε σ α := fun s => (.error e, s)

def reads (f : σ → α) : Prog ε σ α := fun s => (.ok (f s), s)

def modify (f : σ → σ) : Prog ε σ Unit := fun s => (.ok (), f s)

/-- `try p except`, for the failures that `catches` selects; the others pass. -/
def rescue (catches : ε → Bool) (p : Prog ε σ α) (handler : ε → Prog ε σ α) : Prog ε σ α :=
  fun s =>
    match p s with
    | (.ok a, s') => (.ok a, s')
    | (.error e, s') => if catches e then handler e s' else (.error e, s')

/-- `try p finally q`: `q` runs in any case, and a raise of `q` replaces the outcome. -/
def ensure (p : Prog ε σ α) (q : Prog ε σ Unit) : Prog ε σ α := fun s =>
  match p s with
  | (r, s') =>
    match q s' with
    | (.ok _, s'') => (r, s'')
    | (.error e, s'') => (.error e, s'')

/-- Runs `p` and hands its outcome on as a value, raised or not. -/
def outcome (p : Prog ε σ α) : Prog ε σ (Except ε α) := fun s => (.ok (p s).1, (p s).2)

/-- Raises a failure outcome again, and returns a value outcome. -/
def reraise : Except ε α → Prog ε σ α
  | .ok a => pure a
  | .error e => raise e

/-- A program over one component of the state, run on the whole state. -/
def zoom (get : σ → τ) (put : τ → σ → σ) (p : Prog ε τ α) : Prog ε σ α := fun s =>
  ((p (get s)).1, put (p (get s)).2 s)

/-- Local variables beside the state, dropped when the program ends. -/
def withLocals (locals : τ) (p : Prog ε (σ × τ) α) : Prog ε σ α := fun s =>
  ((p (s, locals)).1, (p (s, locals)).2.1)

/-- `if c: p`. -/
def onlyIf (c : Prop) [Decidable c] (p : Prog ε σ Unit) : Prog ε σ Unit :=
  if c then p else pure ()

/-- `if b is not None: f(b)`. -/
def onSome (b : Option β) (f : β → Prog ε σ Unit) : Prog ε σ Unit :=
  match b with
  | some b => f b
  | none => pure ()

def forEach : List β → (β → Prog ε σ Unit) → Prog ε σ Unit
  | [], _ => pure ()
  | b :: bs, f => do f b; forEach bs f

/-- `[await f(b) for b in bs]`, left to right, stopping at the first raise. -/
def collect : List β → (β → Prog ε σ α) → Prog ε σ (List α)
  | [], _ => pure []
  | b :: bs, f => do
    let a ← f b
    let as ← collect bs f
    pure (a :: as)

@[simp] theorem pure_apply (a : α) (s : σ) : (pure a : Prog ε σ α) s = (.ok a, s) := rfl

theorem bind_apply (p : Prog ε σ α) (f : α → Prog ε σ β) (s : σ) :
    (p >>= f) s = match p s with
      | (.ok a, s') => f a s'
      | (.error e, s') => (.error e, s') := rfl

theorem bind_of_ok {p : Prog ε σ α} {f : α → Prog ε σ β} {s s' : σ} {a : α}
    (h : p s = (.ok a, s')) : (p >>= f) s = f a s' := by
  rw [bind_apply, h]

theorem bind_of_error {p : Prog ε σ α} {f : α → Prog ε σ β} {s s' : σ} {e : ε}
    (h : p s = (.error e, s')) : (p >>= f) s = (.error e, s') := by
  rw [bind_apply, h]

/-- What a return of `p >>= f` says of `p` and of `f`. -/
theorem ok_of_bind {p : Prog ε σ α} {f : α → Prog ε σ β} {s t : σ} {b : β}
    (ran : (p >>= f) s = (.ok b, t)) : ∃ a s', p s = (.ok a, s') ∧ f a s' = (.ok b, t) := by
  rw [bind_apply] at ran
  rcases first : p s with ⟨r, s'⟩
  rw [first] at ran
  cases r with
  | error e => cases ran
  | ok a => exact ⟨a, s', rfl, ran⟩

@[simp] theorem pure_bind' (a : α) (f : α → Prog ε σ β) (s : σ) :
    (pure a >>= f) s = f a s := rfl

@[simp] theorem raise_apply (e : ε) (s : σ) : (raise e : Prog ε σ α) s = (.error e, s) := rfl

@[simp] theorem raise_bind (e : ε) (f : α → Prog ε σ β) (s : σ) :
    (raise e >>= f) s = (.error e, s) := rfl

@[simp] theorem reads_apply (f : σ → α) (s : σ) :
    (reads f : Prog ε σ α) s = (.ok (f s), s) := rfl

@[simp] theorem reads_bind (g : σ → α) (f : α → Prog ε σ β) (s : σ) :
    (reads g >>= f) s = f (g s) s := rfl

@[simp] theorem modify_apply (f : σ → σ) (s : σ) :
    (modify f : Prog ε σ Unit) s = (.ok (), f s) := rfl

@[simp] theorem modify_bind (g : σ → σ) (f : Unit → Prog ε σ β) (s : σ) :
    (modify g >>= f) s = f () (g s) := rfl

@[simp] theorem outcome_apply (p : Prog ε σ α) (s : σ) :
    outcome p s = (.ok (p s).1, (p s).2) := rfl

@[simp] theorem outcome_bind (p : Prog ε σ α) (f : Except ε α → Prog ε σ β) (s : σ) :
    (outcome p >>= f) s = f (p s).1 (p s).2 := rfl

@[simp] theorem onSome_some (b : β) (f : β → Prog ε σ Unit) : onSome (some b) f = f b := rfl

@[simp] theorem onSome_none (f : β → Prog ε σ Unit) : onSome none f = pure () := rfl

@[simp] theorem reraise_ok (a : α) : (reraise (.ok a) : Prog ε σ α) = pure a := rfl

@[simp] theorem reraise_error (e : ε) : (reraise (.error e) : Prog ε σ α) = raise e := rfl

theorem reraise_apply (r : Except ε α) (s : σ) : (reraise r : Prog ε σ α) s = (r, s) := by
  cases r <;> rfl

theorem reraise_ok_iff {r : Except ε α} {a : α} {s t : σ} :
    (reraise r : Prog ε σ α) s = (.ok a, t) ↔ r = .ok a ∧ s = t := by
  rw [reraise_apply, Prod.mk.injEq]

theorem rescue_of_ok {catches : ε → Bool} {p : Prog ε σ α} {handler : ε → Prog ε σ α}
    {s s' : σ} {a : α} (h : p s = (.ok a, s')) : rescue catches p handler s = (.ok a, s') := by
  rw [rescue, h]

theorem rescue_of_caught {catches : ε → Bool} {p : Prog ε σ α} {handler : ε → Prog ε σ α}
    {s s' : σ} {e : ε} (h : p s = (.error e, s')) (caught : catches e = true) :
    rescue catches p handler s = handler e s' := by
  rw [rescue, h]
  exact if_pos caught

theorem rescue_of_passed {catches : ε → Bool} {p : Prog ε σ α} {handler : ε → Prog ε σ α}
    {s s' : σ} {e : ε} (h : p s = (.error e, s')) (passed : catches e = false) :
    rescue catches p handler s = (.error e, s') := by
  rw [rescue, h]
  exact if_neg (by rw [passed]; exact Bool.false_ne_true)

theorem ensure_of_ok {p : Prog ε σ α} {q : Prog ε σ Unit} {s s' s'' : σ} {r : Except ε α}
    {u : Unit} (hp : p s = (r, s')) (hq : q s' = (.ok u, s'')) : ensure p q s = (r, s'') := by
  simp only [ensure, hp, hq]

theorem ensure_of_error {p : Prog ε σ α} {q : Prog ε σ Unit} {s s' s'' : σ} {r : Except ε α}
    {e : ε} (hp : p s = (r, s')) (hq : q s' = (.error e, s'')) :
    ensure p q s = (.error e, s'') := by
  simp only [ensure, hp, hq]

/-- Where the whole returns, so did both parts. -/
theorem ok_of_ensure {p : Prog ε σ α} {q : Prog ε σ Unit} {s t : σ} {a : α}
    (ran : ensure p q s = (.ok a, t)) : ∃ s', p s = (.ok a, s') ∧ q s' = (.ok (), t) := by
  unfold ensure at ran
  rcases first : p s with ⟨r, s'⟩
  rw [first] at ran
  dsimp only at ran
  rcases last : q s' with ⟨e | u, s''⟩
  · rw [last] at ran
    cases ran
  · rw [last] at ran
    cases ran
    exact ⟨s', rfl, last⟩

theorem bind_pure_apply (p : Prog ε σ α) (f : α → β) (s : σ) :
    (p >>= fun a => pure (f a)) s = ((p s).1.map f, (p s).2) := by
  rw [bind_apply]
  rcases p s with ⟨r, s'⟩
  cases r <;> rfl

theorem bind_assoc' {γ : Type} (p : Prog ε σ α) (f : α → Prog ε σ β) (g : β → Prog ε σ γ) :
    (p >>= f) >>= g = p >>= fun a => f a >>= g := by
  funext s
  simp only [bind_apply]
  rcases p s with ⟨r, s'⟩
  cases r <;> rfl

end Prog
