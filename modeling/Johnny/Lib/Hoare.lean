import Johnny.Lib.Footprint

/-!
# Pre- and postconditions

A triple gives a postcondition for the return of a program and another for its
raise. The rules follow the program; a frame turns into a triple wherever the
postconditions are stable under it.
-/

namespace Prog
variable {ε σ α β : Type}

/-- From `P`, a return of `p` meets `Q` and a raise meets `E`. -/
def Triple (P : σ → Prop) (p : Prog ε σ α) (Q : α → σ → Prop) (E : ε → σ → Prop) : Prop :=
  ∀ s, P s → match p s with
    | (.ok a, t) => Q a t
    | (.error e, t) => E e t

variable {P P' : σ → Prop} {p : Prog ε σ α} {Q Q' : α → σ → Prop} {E E' R : ε → σ → Prop}

theorem Triple.of_ok (h : Triple P p Q E) {s t : σ} {a : α} (pre : P s)
    (ran : p s = (.ok a, t)) : Q a t := by
  have post := h s pre
  rw [ran] at post
  exact post

theorem Triple.of_error (h : Triple P p Q E) {s t : σ} {e : ε} (pre : P s)
    (ran : p s = (.error e, t)) : E e t := by
  have post := h s pre
  rw [ran] at post
  exact post

theorem Triple.intro (ok : ∀ s a t, P s → p s = (.ok a, t) → Q a t)
    (error : ∀ s e t, P s → p s = (.error e, t) → E e t) : Triple P p Q E := by
  intro s pre
  rcases ran : p s with ⟨r, t⟩
  cases r with
  | ok a => exact ok s a t pre ran
  | error e => exact error s e t pre ran

theorem Triple.mono (h : Triple P p Q E) (pre : ∀ s, P' s → P s)
    (post : ∀ a s, Q a s → Q' a s) (raised : ∀ e s, E e s → E' e s) : Triple P' p Q' E' :=
  .intro (fun _ a t hs ran => post a t (h.of_ok (pre _ hs) ran))
    (fun _ e t hs ran => raised e t (h.of_error (pre _ hs) ran))

theorem Triple.pure {a : α} (h : ∀ s, P s → Q a s) : Triple P (Pure.pure a) Q E := h

theorem Triple.reads {f : σ → α} (h : ∀ s, P s → Q (f s) s) : Triple P (Prog.reads f) Q E := h

theorem Triple.modify {f : σ → σ} {Q : Unit → σ → Prop} (h : ∀ s, P s → Q () (f s)) :
    Triple P (Prog.modify f) Q E := h

/-- What holds however `p` ends. -/
theorem Triple.of_end {R : σ → Prop} (h : ∀ s, P s → R (p s).2) :
    Triple P p (fun _ => R) (fun _ => R) :=
  .intro (fun s a t pre ran => by have := h s pre; rwa [ran] at this)
    (fun s e t pre ran => by have := h s pre; rwa [ran] at this)

theorem Triple.at_end {R : σ → Prop} (h : Triple P p (fun _ => R) (fun _ => R)) {s : σ}
    (pre : P s) : R (p s).2 := by
  rcases ran : p s with ⟨_ | _, t⟩
  · exact h.of_error pre ran
  · exact h.of_ok pre ran

theorem Triple.bind {f : α → Prog ε σ β} {R : β → σ → Prop} (hp : Triple P p Q E)
    (hf : ∀ a, Triple (Q a) (f a) R E) : Triple P (p >>= f) R E := by
  intro s pre
  rw [bind_apply]
  rcases ran : p s with ⟨r, t⟩
  cases r with
  | ok a => exact hf a t (hp.of_ok pre ran)
  | error e => exact hp.of_error pre ran

theorem Triple.rescue {catches : ε → Bool} {handler : ε → Prog ε σ α} (hp : Triple P p Q R)
    (caught : ∀ e, catches e = true → Triple (R e) (handler e) Q E)
    (passed : ∀ e s, catches e = false → R e s → E e s) :
    Triple P (rescue catches p handler) Q E := by
  intro s pre
  rcases ran : p s with ⟨r, t⟩
  cases r with
  | ok a =>
      rw [rescue_of_ok ran]
      exact hp.of_ok pre ran
  | error e =>
      cases known : catches e with
      | true =>
          rw [rescue_of_caught ran known]
          exact caught e known t (hp.of_error pre ran)
      | false =>
          rw [rescue_of_passed ran known]
          exact passed e t known (hp.of_error pre ran)

/-- A program inside a frame keeps what is stable under the frame. -/
theorem Triple.of_keeps {F : Frame σ} (h : Keeps F p)
    (stable : ∀ s t, P s → F.rel s t → P t) : Triple P p (fun _ => P) (fun _ => P) := by
  refine .intro (fun s a t pre ran => ?_) (fun s e t pre ran => ?_)
  · exact stable s t pre (by have := h s; rwa [ran] at this)
  · exact stable s t pre (by have := h s; rwa [ran] at this)

/-- A loop whose body keeps the invariant. -/
theorem Triple.forEach {f : β → Prog ε σ Unit} (bs : List β)
    (body : ∀ b ∈ bs, Triple P (f b) (fun _ => P) E) :
    Triple P (forEach bs f) (fun _ => P) E := by
  induction bs with
  | nil => exact .pure fun _ h => h
  | cons b bs ih =>
      apply Triple.bind (body b List.mem_cons_self)
      intro _
      exact ih fun b member => body b (List.mem_cons_of_mem _ member)

/-- A loop over a list, where each pass may assume what holds of its place in the run. -/
theorem forEach_of {f : β → Prog ε σ Unit} {C : β → σ → Prop} {R : σ → Prop}
    (body : ∀ b, Triple (fun s => P s ∧ C b s) (f b) (fun _ => P) (fun _ => R))
    (weaken : ∀ s, P s → R s) (bs : List β) {s : σ} (pre : P s)
    (cond : ∀ before b after t, bs = before ++ b :: after →
      forEach before f s = (.ok (), t) → C b t) : R (forEach bs f s).2 := by
  induction bs generalizing s with
  | nil => exact weaken s pre
  | cons b bs ih =>
      have first := cond [] b bs s rfl rfl
      change R ((f b >>= fun _ => forEach bs f) s).2
      rcases ran : f b s with ⟨r, t⟩
      cases r with
      | ok u =>
          rw [bind_of_ok ran]
          refine ih ((body b).of_ok ⟨pre, first⟩ ran) ?_
          intro before b' after t' split reached
          refine cond (b :: before) b' after t' (by rw [split]; rfl) ?_
          exact (bind_of_ok ran).trans reached
      | error e =>
          rw [bind_of_error ran]
          exact (body b).of_error ⟨pre, first⟩ ran

/-! ### Invariants -/

/-- Every end of `p` keeps the invariant, and what it returns meets `Q`. -/
def Maintains (I : σ → Prop) (p : Prog ε σ α) (Q : α → Prop) : Prop :=
  ∀ s, I s → I (p s).2 ∧ ∀ a, (p s).1 = .ok a → Q a

namespace Maintains
variable {I : σ → Prop} {Q Q' : α → Prop}

theorem mono (h : Maintains I p Q) (weaken : ∀ a, Q a → Q' a) : Maintains I p Q' := by
  intro s inv
  obtain ⟨kept, told⟩ := h s inv
  exact ⟨kept, fun a returned => weaken a (told a returned)⟩

theorem pure {a : α} (fits : Q a) : Maintains I (Pure.pure a : Prog ε σ α) Q := by
  intro s inv
  refine ⟨inv, ?_⟩
  rintro _ ⟨⟩
  exact fits

theorem raise (e : ε) : Maintains I (Prog.raise e : Prog ε σ α) Q := fun _ inv => ⟨inv, nofun⟩

theorem outcome (h : Maintains I p Q) : Maintains I p.outcome fun _ => True :=
  fun s inv => ⟨(h s inv).1, fun _ _ => trivial⟩

theorem reraise (r : Except ε α) : Maintains I (Prog.reraise r : Prog ε σ α) fun _ => True := by
  cases r with
  | ok a => exact pure trivial
  | error e => exact raise e

theorem reads {f : σ → α} (fits : ∀ s, I s → Q (f s)) : Maintains I (Prog.reads f : Prog ε σ α) Q := by
  intro s inv
  refine ⟨inv, ?_⟩
  rintro _ ⟨⟩
  exact fits s inv

theorem modify {f : σ → σ} (keeps : ∀ s, I s → I (f s)) :
    Maintains I (Prog.modify f : Prog ε σ Unit) fun _ => True :=
  fun s inv => ⟨keeps s inv, fun _ _ => trivial⟩

theorem bind {f : α → Prog ε σ β} {R : β → Prop} (hp : Maintains I p Q)
    (hf : ∀ a, Q a → Maintains I (f a) R) : Maintains I (p >>= f) R := by
  intro s inv
  obtain ⟨kept, told⟩ := hp s inv
  rw [bind_apply]
  rcases ran : p s with ⟨r, t⟩
  rw [ran] at kept told
  cases r with
  | ok a => exact hf a (told a rfl) t kept
  | error e => exact ⟨kept, nofun⟩

theorem rescue {catches : ε → Bool} {handler : ε → Prog ε σ α} (hp : Maintains I p Q)
    (caught : ∀ e, Maintains I (handler e) Q) : Maintains I (Prog.rescue catches p handler) Q := by
  intro s inv
  obtain ⟨kept, told⟩ := hp s inv
  unfold Prog.rescue
  rcases ran : p s with ⟨r, t⟩
  rw [ran] at kept told
  cases r with
  | ok a => exact ⟨kept, told⟩
  | error e =>
      dsimp only
      split
      · exact caught e t kept
      · exact ⟨kept, nofun⟩

theorem forEach {f : β → Prog ε σ Unit} (bs : List β)
    (body : ∀ b ∈ bs, Maintains I (f b) fun _ => True) :
    Maintains I (Prog.forEach bs f) fun _ => True := by
  induction bs with
  | nil => exact pure trivial
  | cons b bs ih =>
      apply bind (body b List.mem_cons_self)
      intro _ _
      exact ih fun b member => body b (List.mem_cons_of_mem _ member)

theorem onlyIf {c : Prop} [Decidable c] {q : Prog ε σ Unit}
    (hq : c → Maintains I q fun _ => True) : Maintains I (Prog.onlyIf c q) fun _ => True := by
  unfold Prog.onlyIf
  split
  · next holds => exact hq holds
  · exact pure trivial

theorem onSome {b : Option β} {f : β → Prog ε σ Unit}
    (hf : ∀ a, b = some a → Maintains I (f a) fun _ => True) :
    Maintains I (Prog.onSome b f) fun _ => True := by
  cases b with
  | none => exact pure trivial
  | some a => exact hf a rfl

/-- What moves inside a frame keeps what is stable under it. -/
theorem of_keeps {F : Frame σ} (h : Keeps F p) (stable : ∀ s t, I s → F.rel s t → I t) :
    Maintains I p fun _ => True :=
  fun s inv => ⟨stable s _ inv (h s), fun _ _ => trivial⟩

end Maintains

/-! ### What is raised -/

section raised
variable {C : ε → Prop} {p : Prog ε σ α} {s : σ}

/-- From `s` the program raises nothing outside `C`. -/
def RaisesOnly (C : ε → Prop) (p : Prog ε σ α) (s : σ) : Prop := ∀ e t, p s = (.error e, t) → C e

namespace RaisesOnly

theorem pure (a : α) : RaisesOnly C (Pure.pure a : Prog ε σ α) s := nofun

theorem reraise_iff {r : Except ε α} :
    RaisesOnly C (Prog.reraise r : Prog ε σ α) s ↔ ∀ e, r = .error e → C e := by
  unfold RaisesOnly
  rw [reraise_apply]
  constructor
  · intro only e raised
    exact only e s (by rw [raised])
  · intro only e t raised
    exact only e (Prod.mk.inj raised).1

/-- Of two steps each has its part. -/
theorem bind_iff {f : α → Prog ε σ β} : RaisesOnly C (p >>= f) s ↔
    RaisesOnly C p s ∧ ∀ a t, p s = (.ok a, t) → RaisesOnly C (f a) t := by
  unfold RaisesOnly
  rw [bind_apply]
  rcases p s with ⟨r, t⟩
  cases r with
  | error e => simp
  | ok a => simp

/-- What `finally` raises takes the place of what was raised before it. -/
theorem ensure_iff {q : Prog ε σ Unit} : RaisesOnly C (ensure p q) s ↔
    RaisesOnly C q (p s).2 ∧ ∀ t, q (p s).2 = (.ok (), t) → RaisesOnly C p s := by
  unfold RaisesOnly ensure
  rcases p s with ⟨r, t⟩
  dsimp only
  rcases q t with ⟨⟨⟩ | ⟨⟩, u⟩
  · simp
  · simp

end RaisesOnly
end raised
end Prog
