import Johnny.Lib.Prog
import Mathlib.Logic.Relation

/-!
# What a program can do to its state

A frame is a reflexive and transitive relation between the state before and the
state after, so it holds of a program as soon as it holds of its pieces. A
footprint names the moves a program may make: `Within M p` says that every run
of `p` is a sequence of moves of `M`, and one footprint gives `Keeps F p` for
every frame `F` that allows those moves.
-/

/-- A relation from states to later states that composes. -/
structure Frame (σ : Type) where
  rel : σ → σ → Prop
  refl : ∀ s, rel s s
  trans : ∀ {a b c}, rel a b → rel b c → rel a c

namespace Frame
variable {σ τ ω : Type}

/-- Nothing is asked. -/
def any : Frame σ where
  rel _ _ := True
  refl _ := trivial
  trans _ _ := trivial

/-- The component `f` is as before. -/
def eqOn (f : σ → τ) : Frame σ where
  rel s t := f t = f s
  refl _ := rfl
  trans hab hbc := hbc.trans hab

/-- The component `f` keeps the frame. -/
def via (f : σ → τ) (F : Frame τ) : Frame σ where
  rel s t := F.rel (f s) (f t)
  refl s := F.refl (f s)
  trans ab bc := F.trans ab bc

def both (F G : Frame σ) : Frame σ where
  rel s t := F.rel s t ∧ G.rel s t
  refl s := ⟨F.refl s, G.refl s⟩
  trans hab hbc := ⟨F.trans hab.1 hbc.1, G.trans hab.2 hbc.2⟩

/-- The log `h`, newest entry first, grows by entries that satisfy `P`. -/
def grows (h : σ → List τ) (P : τ → Prop) : Frame σ where
  rel s t := ∃ new, h t = new ++ h s ∧ ∀ o ∈ new, P o
  refl s := ⟨[], rfl, by simp⟩
  trans := by
    rintro a b c ⟨new, hb, hnew⟩ ⟨newer, hc, hnewer⟩
    refine ⟨newer ++ new, by rw [hc, hb, List.append_assoc], ?_⟩
    intro o ho
    rcases List.mem_append.mp ho with h | h
    · exact hnewer o h
    · exact hnew o h

end Frame

namespace Prog
variable {ε σ τ α β : Type}

/-- Every run of `p` stays inside the frame, whether it returns or raises. -/
def Keeps (F : Frame σ) (p : Prog ε σ α) : Prop := ∀ s, F.rel s (p s).2

/-- Every run of `p` is a sequence of moves. -/
def Within (M : σ → σ → Prop) (p : Prog ε σ α) : Prop :=
  ∀ s, Relation.ReflTransGen M s (p s).2

variable {M : σ → σ → Prop} {p : Prog ε σ α}

theorem rel_of_moves {F : Frame σ} (hM : ∀ s t, M s t → F.rel s t) {s t : σ}
    (h : Relation.ReflTransGen M s t) : F.rel s t := by
  induction h with
  | refl => exact F.refl s
  | tail _ hbc ih => exact F.trans ih (hM _ _ hbc)

theorem Within.keeps {F : Frame σ} (h : Within M p) (hM : ∀ s t, M s t → F.rel s t) :
    Keeps F p := fun s => rel_of_moves hM (h s)

theorem Within.mono {N : σ → σ → Prop} (h : Within M p) (hMN : ∀ s t, M s t → N s t) :
    Within N p := fun s =>
  Relation.ReflTransGen.mono hMN _ _ (h s)

theorem Within.pure (a : α) : Within M (Pure.pure a : Prog ε σ α) := fun _ => .refl

theorem Within.raise (e : ε) : Within M (Prog.raise e : Prog ε σ α) := fun _ => .refl

theorem Within.reads (f : σ → α) : Within M (Prog.reads f : Prog ε σ α) := fun _ => .refl

theorem Within.modify {f : σ → σ} (h : ∀ s, M s (f s)) :
    Within M (Prog.modify f : Prog ε σ Unit) := fun s => .single (h s)

theorem Within.bind {f : α → Prog ε σ β} (hp : Within M p) (hf : ∀ a, Within M (f a)) :
    Within M (p >>= f) := by
  intro s
  have hs := hp s
  rw [bind_apply]
  rcases h : p s with ⟨r, s'⟩
  rw [h] at hs
  cases r with
  | ok a => exact hs.trans (hf a s')
  | error e => exact hs

theorem Within.rescue {catches : ε → Bool} {handler : ε → Prog ε σ α} (hp : Within M p)
    (hh : ∀ e, Within M (handler e)) : Within M (rescue catches p handler) := by
  intro s
  have hs := hp s
  unfold Prog.rescue
  rcases h : p s with ⟨r, s'⟩
  rw [h] at hs
  cases r with
  | ok a => exact hs
  | error e =>
      dsimp only
      split
      · exact hs.trans (hh e s')
      · exact hs

theorem Within.ensure {q : Prog ε σ Unit} (hp : Within M p) (hq : Within M q) :
    Within M (ensure p q) := by
  intro s
  have hs := (hp s).trans (hq (p s).2)
  unfold Prog.ensure
  dsimp only
  rcases h : q (p s).2 with ⟨r, s''⟩
  rw [h] at hs
  cases r with
  | ok _ => exact hs
  | error e => exact hs

theorem Within.outcome (hp : Within M p) : Within M (outcome p) := fun s => hp s

theorem Within.reraise (r : Except ε α) : Within M (Prog.reraise r : Prog ε σ α) := by
  cases r with
  | ok a => exact .pure a
  | error e => exact .raise e

theorem Within.zoom {get : σ → τ} {put : τ → σ → σ} {q : Prog ε τ α}
    (h : ∀ s, M s (put (q (get s)).2 s)) : Within M (zoom get put q) := fun s => .single (h s)

theorem Within.forEach {f : β → Prog ε σ Unit} (hf : ∀ b, Within M (f b)) (bs : List β) :
    Within M (forEach bs f) := by
  induction bs with
  | nil => exact .pure ()
  | cons b bs ih => exact .bind (hf b) fun _ => ih

theorem Within.ite {c : Prop} [Decidable c] {q r : Prog ε σ α} (hq : Within M q)
    (hr : Within M r) : Within M (if c then q else r) := by
  split
  · exact hq
  · exact hr

theorem Within.onlyIf {c : Prop} [Decidable c] {q : Prog ε σ Unit} (hq : c → Within M q) :
    Within M (Prog.onlyIf c q) := by
  unfold Prog.onlyIf
  split
  · next holds => exact hq holds
  · exact .pure ()

theorem Within.onSome {b : Option β} {f : β → Prog ε σ Unit}
    (hf : ∀ a, b = some a → Within M (f a)) : Within M (Prog.onSome b f) := by
  cases b with
  | none => exact .pure ()
  | some a => exact hf a rfl

end Prog
