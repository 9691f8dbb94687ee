import Mathlib.Tactic.Common

/-!
# Graphs whose nodes are collapsed

Nodes of a labelled graph are sent onto others now and then, and nodes and links are added in
between. What the graph holds in the end is the image of all that was ever linked, under the
composition of the collapses, apart from loops.
-/
namespace Collapse
variable {α ρ : Type}

/-- A graph at one moment. A node is gone for good once it is not `usable`: nothing will be
linked to it again. -/
structure Stage (α ρ : Type) where
  alive : α → Prop
  usable : α → Prop
  links : α → α → ρ → Prop

/-- The later stage is what the collapse `send` and the new links make of the earlier one. -/
structure Follows (send : α → α) (new : α → α → ρ → Prop) (A B : Stage α ρ) : Prop where
  lands : ∀ {x}, A.alive x → B.alive (send x)
  fixed : ∀ {x}, B.usable x → send x = x
  usable : ∀ {x}, B.usable x → A.usable x
  known : ∀ {x y r}, new x y r → A.usable x ∧ A.usable y
  origin : ∀ {a b r}, B.links a b r → ∃ x y, (A.links x y r ∨ new x y r) ∧ send x = a ∧ send y = b
  kept : ∀ {x y r}, A.links x y r ∨ new x y r → send x ≠ send y → B.links (send x) (send y) r

variable {send first second : α → α} {new news more : α → α → ρ → Prop} {A B C : Stage α ρ}

theorem Follows.refl (A : Stage α ρ) : Follows id (fun _ _ _ => False) A A where
  lands := id
  fixed _ := rfl
  usable := id
  known := False.elim
  origin here := ⟨_, _, .inl here, rfl, rfl⟩
  kept here _ := here.resolve_right id

/-- A later link is between nodes that the earlier collapse left where they are. -/
theorem Follows.trans (ab : Follows first news A B) (bc : Follows second more B C) :
    Follows (second ∘ first) (fun x y r => news x y r ∨ more x y r) A C where
  lands here := bc.lands (ab.lands here)
  fixed {x} here := by
    have still := ab.fixed (bc.usable here)
    change second (first x) = x
    rw [still]
    exact bc.fixed here
  usable here := ab.usable (bc.usable here)
  known := by
    rintro x y r (early | late)
    · exact ab.known early
    · exact (bc.known late).imp ab.usable ab.usable
  origin := by
    intro a b r here
    obtain ⟨x, y, between | late, rfl, rfl⟩ := bc.origin here
    · obtain ⟨x, y, before, rfl, rfl⟩ := ab.origin between
      exact ⟨x, y, before.imp_right .inl, rfl, rfl⟩
    · obtain ⟨left, right⟩ := bc.known late
      exact ⟨x, y, .inr (.inr late), congrArg second (ab.fixed left),
        congrArg second (ab.fixed right)⟩
  kept := by
    intro x y r here apart
    have between : B.links (first x) (first y) r ∨ more (first x) (first y) r := by
      rcases here with old | early | late
      · exact .inl (ab.kept (.inl old) fun same => apart (congrArg second same))
      · exact .inl (ab.kept (.inr early) fun same => apart (congrArg second same))
      · obtain ⟨left, right⟩ := bc.known late
        rw [ab.fixed left, ab.fixed right]
        exact .inr late
    exact bc.kept between apart

/-- Nodes may be added without a collapse. -/
theorem Follows.grow (lands : ∀ x, A.alive x → B.alive x) (usable : ∀ x, B.usable x → A.usable x)
    (same : ∀ x y r, B.links x y r ↔ A.links x y r ∨ new x y r)
    (known : ∀ x y r, new x y r → A.usable x ∧ A.usable y) : Follows id new A B where
  lands := lands _
  fixed _ := rfl
  usable := usable _
  known := known _ _ _
  origin here := ⟨_, _, (same _ _ _).mp here, rfl, rfl⟩
  kept here _ := (same _ _ _).mpr here

end Collapse
