import Mathlib.Data.List.Induction
import Mathlib.Data.List.Nodup

/-!
# Feeds with a cap

Items arrive one after the other. One whose key is already held is dropped, and of the
others only the last few are held.
-/

namespace CappedFeed
variable {α κ : Type} [DecidableEq κ] (key : α → κ) (cap : ℕ)

/-- The last `cap` items. -/
def lastFew (items : List α) : List α := items.drop (items.length - cap)

def add (held : List α) (a : α) : List α :=
  if key a ∈ held.map key then held else lastFew cap (held ++ [a])

def ofArrivals (arrivals : List α) : List α := arrivals.foldl (add key cap) []

variable {key cap} {held arrivals : List α} {a : α}

theorem lastFew_sublist (items : List α) : (lastFew cap items).Sublist items :=
  List.drop_sublist _ _

/-- An item stays with all that follow it, or goes once the cap is reached. -/
theorem lastFew_cons (older rest : List α) (a : α) :
    (∃ kept, lastFew cap (older ++ a :: rest) = kept ++ a :: rest) ∨
      (lastFew cap (older ++ a :: rest)).length = cap ∧
        (lastFew cap (older ++ a :: rest)).Sublist rest := by
  unfold lastFew
  rw [List.length_append, List.length_cons]
  by_cases room : rest.length < cap
  · refine .inl ⟨older.drop (older.length + (rest.length + 1) - cap), ?_⟩
    rw [List.drop_append_of_le_length (by omega)]
  · refine .inr ⟨?_, ?_⟩
    · rw [List.length_drop, List.length_append, List.length_cons]
      omega
    · have beyond : older.length + (rest.length + 1) - cap = older.length + (rest.length - cap + 1) := by
        omega
      rw [beyond, List.drop_length_add_append, List.drop_succ_cons]
      exact List.drop_sublist _ _

theorem add_sublist : (add key cap held a).Sublist (held ++ [a]) := by
  unfold add
  split
  · exact List.sublist_append_left _ _
  · exact lastFew_sublist _

theorem ofArrivals_snoc (arrivals : List α) (a : α) :
    ofArrivals key cap (arrivals ++ [a]) = add key cap (ofArrivals key cap arrivals) a := by
  rw [ofArrivals, List.foldl_append]
  rfl

theorem ofArrivals_sublist (arrivals : List α) : (ofArrivals key cap arrivals).Sublist arrivals := by
  induction arrivals using List.reverseRecOn with
  | nil => exact List.Sublist.refl _
  | append_singleton arrivals a ih =>
      rw [ofArrivals_snoc]
      exact add_sublist.trans (ih.append (List.Sublist.refl _))

/-- No key is held twice. -/
theorem ofArrivals_nodup (arrivals : List α) : ((ofArrivals key cap arrivals).map key).Nodup := by
  induction arrivals using List.reverseRecOn with
  | nil => exact List.nodup_nil
  | append_singleton arrivals a ih =>
      rw [ofArrivals_snoc]
      unfold add
      split
      · exact ih
      · next new =>
          refine List.Nodup.sublist ((lastFew_sublist _).map key) ?_
          rw [List.map_append, List.map_singleton, List.nodup_append]
          refine ⟨ih, List.nodup_singleton _, fun k inside k' single same => new ?_⟩
          rw [← List.mem_singleton.mp single, ← same]
          exact inside

/-- An arrival is held with only later ones after it, or a full feed of later ones pushed it out. -/
def Follows (cap : ℕ) (held : List α) (a : α) (after : List α) : Prop :=
  (∃ older younger, held = older ++ a :: younger ∧ younger.Sublist after) ∨
    held.length = cap ∧ held.Sublist after

theorem Follows.add {after : List α} (follows : Follows cap held a after) (b : α) :
    Follows cap (add key cap held b) a (after ++ [b]) := by
  have wider : after.Sublist (after ++ [b]) := List.sublist_append_left _ _
  unfold CappedFeed.add
  split
  · rcases follows with ⟨older, younger, split, within⟩ | ⟨full, within⟩
    · exact .inl ⟨older, younger, split, within.trans wider⟩
    · exact .inr ⟨full, within.trans wider⟩
  · rcases follows with ⟨older, younger, rfl, within⟩ | ⟨full, within⟩
    · have both := within.append (List.Sublist.refl [b])
      rw [List.append_assoc, List.cons_append]
      rcases lastFew_cons older (younger ++ [b]) a with ⟨kept, same⟩ | ⟨full, out⟩
      · exact .inl ⟨kept, younger ++ [b], same, both⟩
      · exact .inr ⟨full, out.trans both⟩
    · refine .inr ⟨?_, (lastFew_sublist _).trans (within.append (List.Sublist.refl _))⟩
      rw [lastFew, List.length_drop, List.length_append, List.length_singleton, full]
      omega

/-- Whatever arrived is held, or a full feed of later arrivals pushed it out. -/
theorem arrived (key : α → κ) (inside : a ∈ arrivals) : ∃ before first after,
    arrivals = before ++ first :: after ∧ key first = key a ∧
      Follows cap (ofArrivals key cap arrivals) first after := by
  induction arrivals using List.reverseRecOn generalizing a with
  | nil => cases inside
  | append_singleton arrivals last ih =>
      have earlier : ∀ b ∈ arrivals, ∃ before first after,
          arrivals ++ [last] = before ++ first :: after ∧ key first = key b ∧
            Follows cap (ofArrivals key cap (arrivals ++ [last])) first after := by
        intro b member
        obtain ⟨before, first, after, split, same, follows⟩ := ih member
        refine ⟨before, first, after ++ [last], ?_, same, ?_⟩
        · rw [split, List.append_assoc, List.cons_append]
        · rw [ofArrivals_snoc]
          exact follows.add last
      rcases List.mem_append.mp inside with before | new
      · exact earlier a before
      · obtain rfl := List.mem_singleton.mp new
        by_cases known : key a ∈ (ofArrivals key cap arrivals).map key
        · obtain ⟨b, held, same⟩ := List.mem_map.mp known
          rw [← same]
          exact earlier b ((ofArrivals_sublist arrivals).subset held)
        · refine ⟨arrivals, a, [], rfl, rfl, ?_⟩
          rw [ofArrivals_snoc, add, if_neg known]
          rcases lastFew_cons (ofArrivals key cap arrivals) [] a with ⟨kept, same⟩ | gone
          · exact .inl ⟨kept, [], same, List.Sublist.refl _⟩
          · exact .inr gone

end CappedFeed
