import Mathlib.Data.List.Infix

/-!
# Replacing matches by a marker

A matcher says how many elements it matches at the head of a list. A scrub scans from
the left and puts a marker in the place of every match, which is both the replacement
of a literal and the substitution of a pattern. What avoids the ends of the marker can
only occur in a scrubbed list where it occurred before.
-/
namespace Scrub
variable {α : Type}

/-- The length of the match at the head, where there is one. -/
abbrev Matcher (α : Type) := List α → Option ℕ

def literal [DecidableEq α] (word : List α) : Matcher α := fun xs =>
  if word <+: xs then some word.length else none

/-- Scans with `skip` elements of the current match still to drop. -/
def scan (m : Matcher α) (marker : List α) : ℕ → List α → List α
  | _, [] => []
  | skip + 1, _ :: xs => scan m marker skip xs
  | 0, x :: xs =>
    match m (x :: xs) with
    | some n => marker ++ scan m marker (n - 1) xs
    | none => x :: scan m marker 0 xs

def scrub (m : Matcher α) (marker xs : List α) : List α := scan m marker 0 xs

/-- The matcher finds something in the list. -/
def Hits (m : Matcher α) (xs : List α) : Prop := ∃ y ys, (y :: ys) <:+ xs ∧ (m (y :: ys)).isSome

variable {m : Matcher α} {marker word xs ys : List α} {x : α}

theorem scrub_cons_of_some {n : ℕ} (found : m (x :: xs) = some n) :
    scrub m marker (x :: xs) = marker ++ scan m marker (n - 1) xs := by
  simp only [scrub, scan, found]

theorem scrub_cons_of_none (absent : m (x :: xs) = none) :
    scrub m marker (x :: xs) = x :: scrub m marker xs := by
  simp only [scrub, scan, absent]

/-! ### Hits -/

theorem hits_cons : Hits m (x :: xs) ↔ (m (x :: xs)).isSome ∨ Hits m xs := by
  constructor
  · rintro ⟨y, ys, suffix', found⟩
    rcases List.suffix_cons_iff.mp suffix' with same | inside
    · rw [same] at found
      exact .inl found
    · exact .inr ⟨y, ys, inside, found⟩
  · rintro (found | ⟨y, ys, inside, found⟩)
    · exact ⟨x, xs, List.suffix_refl _, found⟩
    · exact ⟨y, ys, inside.trans (List.suffix_cons x xs), found⟩

theorem hits_literal [DecidableEq α] (nonempty : word ≠ []) :
    Hits (literal word) xs ↔ word <:+: xs := by
  constructor
  · rintro ⟨y, ys, inside, found⟩
    unfold literal at found
    split at found
    case isTrue atHead => exact atHead.isInfix.trans inside.isInfix
    case isFalse => cases found
  · intro inside
    obtain ⟨rest, atHead, suffix'⟩ := List.infix_iff_prefix_suffix.mp inside
    cases rest with
    | nil => exact absurd (List.prefix_nil.mp atHead) nonempty
    | cons y ys =>
        refine ⟨y, ys, suffix', ?_⟩
        rw [literal, if_pos atHead]
        rfl

instance decidableHits (m : Matcher α) : (xs : List α) → Decidable (Hits m xs)
  | [] => isFalse fun ⟨_, _, inside, _⟩ => nomatch List.suffix_nil.mp inside
  | _ :: xs =>
    have : Decidable (Hits m xs) := decidableHits m xs
    decidable_of_iff _ hits_cons.symm

theorem scrub_of_not_hits (missed : ¬ Hits m xs) : scrub m marker xs = xs := by
  induction xs with
  | nil => rfl
  | cons x xs ih =>
      rw [hits_cons, not_or, Option.not_isSome_iff_eq_none] at missed
      rw [scrub_cons_of_none missed.1, ih missed.2]

theorem marker_infix_scrub (hit : Hits m xs) : marker <:+: scrub m marker xs := by
  induction xs with
  | nil =>
      obtain ⟨y, ys, inside, -⟩ := hit
      simp at inside
  | cons x xs ih =>
      cases found : m (x :: xs) with
      | some n =>
          rw [scrub_cons_of_some found]
          exact (List.prefix_append _ _).isInfix
      | none =>
          rw [scrub_cons_of_none found]
          rw [hits_cons, found] at hit
          exact List.infix_cons (ih (hit.resolve_left nofun))

/-! ### Words apart from the marker -/

/-- Neither is part of the other, and no end of the one begins the other. -/
structure NoOverlap (word marker : List α) : Prop where
  nonempty : word ≠ []
  inside : ¬ word <:+: marker
  around : ¬ marker <:+: word
  before : ∀ piece, piece ≠ [] → piece <:+ word → ¬ piece <+: marker
  after : ∀ piece, piece ≠ [] → piece <:+ marker → ¬ piece <+: word

namespace NoOverlap

/-- An occurrence behind a marker lies behind it as a whole. -/
theorem infix_of_append (apart : NoOverlap word marker) (inside : word <:+: marker ++ ys) :
    word <:+: ys := by
  obtain ⟨front, back, same⟩ := inside
  rcases List.append_eq_append_iff.mp same with ⟨rest, split, -⟩ | ⟨rest, split, tail⟩
  · exact absurd ⟨front, rest, split.symm⟩ apart.inside
  · rcases List.append_eq_append_iff.mp split with ⟨piece, ends, begins⟩ | ⟨more, -, begins⟩
    · cases piece with
      | nil =>
          rw [List.nil_append] at begins
          exact ⟨[], back, by rw [begins, List.nil_append, tail]⟩
      | cons y piece =>
          refine absurd ⟨rest, begins.symm⟩ (apart.after (y :: piece) (List.cons_ne_nil _ _) ?_)
          exact ⟨front, ends.symm⟩
    · exact ⟨more, back, by rw [tail, begins]⟩

/-- No end of the word begins in a marker. -/
theorem not_prefix_append (apart : NoOverlap word marker) (nonempty : ys ≠ [])
    (ends : ys <:+ word) : ¬ ys <+: marker ++ xs := by
  intro atHead
  rcases List.prefix_or_prefix_of_prefix atHead (List.prefix_append marker xs) with within | beyond
  · exact apart.before ys nonempty ends within
  · exact apart.around (beyond.isInfix.trans ends.isInfix)

/-- What the scan puts at the head of a list is at the head of the list. -/
theorem prefix_of_prefix_scrub (apart : NoOverlap word marker) (ends : ys <:+ word)
    (atHead : ys <+: scrub m marker xs) : ys <+: xs := by
  induction ys generalizing xs with
  | nil => exact List.nil_prefix
  | cons y ys ih =>
      cases xs with
      | nil => simp [scrub, scan] at atHead
      | cons x xs =>
          cases found : m (x :: xs) with
          | some n =>
              rw [scrub_cons_of_some found] at atHead
              exact absurd atHead (apart.not_prefix_append (List.cons_ne_nil _ _) ends)
          | none =>
              rw [scrub_cons_of_none found, List.cons_prefix_cons] at atHead
              refine List.cons_prefix_cons.mpr ⟨atHead.1, ih ?_ atHead.2⟩
              exact (List.suffix_cons y ys).trans ends

/-- An occurrence in the scan starts where the scan reached an element of the list. -/
theorem exists_suffix_of_infix_scan (apart : NoOverlap word marker) (skip : ℕ)
    (inside : word <:+: scan m marker skip xs) :
    ∃ ys, ys <:+ xs ∧ word <+: scrub m marker ys := by
  induction xs generalizing skip with
  | nil =>
      rw [scan, List.infix_nil] at inside
      exact absurd inside apart.nonempty
  | cons x xs ih =>
      have later {ys : List α} (suffix' : ys <:+ xs) : ys <:+ x :: xs :=
        suffix'.trans (List.suffix_cons x xs)
      cases skip with
      | succ skip =>
          obtain ⟨ys, suffix', atHead⟩ := ih skip inside
          exact ⟨ys, later suffix', atHead⟩
      | zero =>
          cases found : m (x :: xs) with
          | some n =>
              simp only [scan, found] at inside
              obtain ⟨ys, suffix', atHead⟩ := ih (n - 1) (apart.infix_of_append inside)
              exact ⟨ys, later suffix', atHead⟩
          | none =>
              have here : scan m marker 0 (x :: xs) = x :: scan m marker 0 xs := by
                simp only [scan, found]
              rcases List.infix_cons_iff.mp (here ▸ inside) with atHead | inside
              · refine ⟨x :: xs, List.suffix_refl _, ?_⟩
                rw [scrub, here]
                exact atHead
              · obtain ⟨ys, suffix', atHead⟩ := ih 0 inside
                exact ⟨ys, later suffix', atHead⟩

/-- Scrubbing creates no new occurrence of such a word. -/
theorem infix_of_infix_scrub (apart : NoOverlap word marker)
    (inside : word <:+: scrub m marker xs) : word <:+: xs := by
  obtain ⟨ys, suffix', atHead⟩ := apart.exists_suffix_of_infix_scan 0 inside
  exact (apart.prefix_of_prefix_scrub (List.suffix_refl word) atHead).isInfix.trans suffix'.isInfix

/-- A matcher that finds the word at every head leaves none behind. -/
theorem not_infix_scrub (apart : NoOverlap word marker)
    (found : ∀ ys, word <+: ys → (m ys).isSome) : ¬ word <:+: scrub m marker xs := by
  intro inside
  obtain ⟨ys, -, atHead⟩ := apart.exists_suffix_of_infix_scan 0 inside
  have hit := found ys (apart.prefix_of_prefix_scrub (List.suffix_refl word) atHead)
  cases ys with
  | nil => exact apart.nonempty (List.prefix_nil.mp atHead)
  | cons y ys =>
      -- the word at the head of what was scanned would have been replaced
      obtain ⟨n, hit⟩ := Option.isSome_iff_exists.mp hit
      rw [scrub_cons_of_some hit] at atHead
      exact apart.not_prefix_append apart.nonempty (List.suffix_refl word) atHead

end NoOverlap

/-! ### Words that avoid the ends of the marker -/

/-- The word touches neither end of the marker and is no part of it. -/
structure Avoids (word : List α) (opening : α) (middle : List α) (closing : α) : Prop where
  nonempty : word ≠ []
  opening : opening ∉ word
  closing : closing ∉ word
  middle : ¬ word <:+: middle

theorem infix_append_cons (absent : x ∉ word) (inside : word <:+: xs ++ x :: ys) :
    word <:+: xs ∨ word <:+: ys := by
  obtain ⟨before, after, same⟩ := inside
  rw [List.append_assoc] at same
  rcases List.append_eq_append_iff.mp same with ⟨rest, split, tail⟩ | ⟨rest, split, tail⟩
  · rcases List.append_eq_append_iff.mp tail with ⟨more, front, back⟩ | ⟨more, front, back⟩
    · exact .inl ⟨before, more, by rw [split, front, List.append_assoc]⟩
    · cases more with
      | nil =>
          rw [List.append_nil] at front
          exact .inl ⟨before, [], by rw [split, front, List.append_nil]⟩
      | cons y more =>
          injection back with same _
          exact absurd (by rw [front, same]; simp) absent
  · cases rest with
    | nil =>
        cases word with
        | nil => exact .inl (List.nil_infix)
        | cons y word =>
            injection tail with same _
            exact absurd (by rw [same]; exact List.mem_cons_self) absent
    | cons y rest =>
        injection tail with _ tails
        exact .inr ⟨rest, after, by rw [List.append_assoc]; exact tails.symm⟩

theorem Avoids.apart {opening closing : α} {middle : List α}
    (avoids : Avoids word opening middle closing) :
    NoOverlap word (opening :: (middle ++ [closing])) where
  nonempty := avoids.nonempty
  inside := by
    intro inside
    rw [← List.nil_append (opening :: _)] at inside
    rcases infix_append_cons avoids.opening inside with empty | inside
    · exact avoids.nonempty (List.infix_nil.mp empty)
    · rcases infix_append_cons avoids.closing inside with inMiddle | empty
      · exact avoids.middle inMiddle
      · exact avoids.nonempty (List.infix_nil.mp empty)
  around inside := avoids.opening (inside.subset List.mem_cons_self)
  before piece some ends begins := by
    cases piece with
    | nil => exact some rfl
    | cons y piece =>
        obtain ⟨rfl, -⟩ := List.cons_prefix_cons.mp begins
        exact avoids.opening (ends.subset List.mem_cons_self)
  after piece some ends begins := by
    have last : piece.getLast some = closing := by
      have same := ends.getLast some
      rw [same]
      simp
    exact avoids.closing (begins.subset (last ▸ List.getLast_mem some))

/-! ### Matchers that find words -/

/-- What the matcher finds is a word without the ends of the marker, and it finds it wherever the
word begins. -/
def Worded (m : Matcher α) (opening closing : α) : Prop :=
  ∀ xs, (m xs).isSome → ∃ word, word ≠ [] ∧ opening ∉ word ∧ closing ∉ word ∧
    word <+: xs ∧ ∀ ys, word <+: ys → (m ys).isSome

theorem Worded.literal [DecidableEq α] {opening closing : α} (nonempty : word ≠ [])
    (noOpening : opening ∉ word) (noClosing : closing ∉ word) :
    Worded (literal word) opening closing := by
  intro xs found
  have everywhere (ys : List α) (atHead : word <+: ys) : (Scrub.literal word ys).isSome := by
    rw [Scrub.literal, if_pos atHead]
    rfl
  by_cases atHead : word <+: xs
  · exact ⟨word, nonempty, noOpening, noClosing, atHead, everywhere⟩
  · rw [Scrub.literal, if_neg atHead] at found
    cases found

theorem hits_of_within (nonempty : word ≠ []) (found : ∀ ys, word <+: ys → (m ys).isSome)
    (inside : word <:+: xs) : Hits m xs := by
  obtain ⟨rest, atHead, suffix'⟩ := List.infix_iff_prefix_suffix.mp inside
  cases rest with
  | nil => exact absurd (List.prefix_nil.mp atHead) nonempty
  | cons y ys => exact ⟨y, ys, suffix', found _ atHead⟩

section worded
variable {opening closing : α} {middle : List α} {m' : Matcher α}

theorem Worded.hits_mono (worded : Worded m opening closing) (inside : xs <:+: ys)
    (hit : Hits m xs) : Hits m ys := by
  obtain ⟨z, zs, suffix', found⟩ := hit
  obtain ⟨word, nonempty, -, -, atHead, everywhere⟩ := worded (z :: zs) found
  exact hits_of_within nonempty everywhere ((atHead.isInfix.trans suffix'.isInfix).trans inside)

/-- Behind a hit stands a word that avoids the marker. -/
theorem Worded.exists_avoids (worded : Worded m opening closing) (clear : ¬ Hits m middle)
    (hit : Hits m xs) : ∃ word, Avoids word opening middle closing ∧ word <:+: xs ∧
      ∀ ys, word <+: ys → (m ys).isSome := by
  obtain ⟨y, ys, suffix', found⟩ := hit
  obtain ⟨word, nonempty, noOpening, noClosing, atHead, everywhere⟩ := worded (y :: ys) found
  have apart : ¬ word <:+: middle := fun inside => clear (hits_of_within nonempty everywhere inside)
  exact ⟨word, ⟨nonempty, noOpening, noClosing, apart⟩, atHead.isInfix.trans suffix'.isInfix,
    everywhere⟩

theorem hits_of_hits_scrub (worded : Worded m opening closing) (clear : ¬ Hits m middle)
    (hit : Hits m (scrub m' (opening :: (middle ++ [closing])) xs)) : Hits m xs := by
  obtain ⟨word, avoids, inside, everywhere⟩ := worded.exists_avoids clear hit
  exact hits_of_within avoids.nonempty everywhere (avoids.apart.infix_of_infix_scrub inside)

theorem not_hits_scrub (worded : Worded m opening closing) (clear : ¬ Hits m middle) :
    ¬ Hits m (scrub m (opening :: (middle ++ [closing])) xs) := by
  intro hit
  obtain ⟨word, avoids, inside, everywhere⟩ := worded.exists_avoids clear hit
  exact avoids.apart.not_infix_scrub everywhere inside

end worded

/-! ### One scrub after the other -/

/-- The scrubs of several matchers, in order. -/
def scrubAll (ms : List (Matcher α)) (marker xs : List α) : List α :=
  ms.foldl (fun xs m => scrub m marker xs) xs

theorem scrubAll_cons (m : Matcher α) (ms : List (Matcher α)) (marker xs : List α) :
    scrubAll (m :: ms) marker xs = scrubAll ms marker (scrub m marker xs) := rfl

theorem scrubAll_of_not_hits {ms : List (Matcher α)} (missed : ∀ m ∈ ms, ¬ Hits m xs) :
    scrubAll ms marker xs = xs := by
  induction ms with
  | nil => rfl
  | cons m ms ih =>
      rw [scrubAll_cons, scrub_of_not_hits (missed m List.mem_cons_self)]
      exact ih fun m' member => missed m' (List.mem_cons_of_mem m member)

/-- The marker stays once it is there, as a match only ever puts in another one. -/
theorem marker_infix_scrubAll (ms : List (Matcher α)) (there : marker <:+: xs) :
    marker <:+: scrubAll ms marker xs := by
  induction ms generalizing xs with
  | nil => exact there
  | cons m ms ih =>
      rw [scrubAll_cons]
      apply ih
      by_cases hit : Hits m xs
      · exact marker_infix_scrub hit
      · rw [scrub_of_not_hits hit]
        exact there

theorem marker_infix_of_hits {ms : List (Matcher α)} (hit : ∃ m ∈ ms, Hits m xs) :
    marker <:+: scrubAll ms marker xs := by
  induction ms with
  | nil =>
      obtain ⟨m, member, -⟩ := hit
      cases member
  | cons m ms ih =>
      rw [scrubAll_cons]
      by_cases first : Hits m xs
      · exact marker_infix_scrubAll ms (marker_infix_scrub first)
      · rw [scrub_of_not_hits first]
        apply ih
        obtain ⟨m', member, hit⟩ := hit
        rcases List.mem_cons.mp member with rfl | later
        · exact absurd hit first
        · exact ⟨m', later, hit⟩

section worded
variable {opening closing : α} {middle : List α} {ms : List (Matcher α)}

theorem hits_of_hits_scrubAll (worded : Worded m opening closing) (clear : ¬ Hits m middle)
    (hit : Hits m (scrubAll ms (opening :: (middle ++ [closing])) xs)) : Hits m xs := by
  induction ms generalizing xs with
  | nil => exact hit
  | cons m' ms ih =>
      rw [scrubAll_cons] at hit
      exact hits_of_hits_scrub worded clear (ih hit)

/-- What one of the matchers found is gone when all have been applied. -/
theorem not_hits_scrubAll (worded : Worded m opening closing) (clear : ¬ Hits m middle)
    (among : m ∈ ms) : ¬ Hits m (scrubAll ms (opening :: (middle ++ [closing])) xs) := by
  obtain ⟨before, after, rfl⟩ := List.append_of_mem among
  intro hit
  unfold scrubAll at hit
  rw [List.foldl_append, List.foldl_cons] at hit
  exact not_hits_scrub worded clear (hits_of_hits_scrubAll worded clear hit)

end worded

/-- A word apart from the marker is gone when its own scrub is among those applied. -/
theorem NoOverlap.not_infix_scrubAll [DecidableEq α] {ms : List (Matcher α)}
    (apart : NoOverlap word marker) (among : literal word ∈ ms) :
    ¬ word <:+: scrubAll ms marker xs := by
  obtain ⟨before, after, rfl⟩ := List.append_of_mem among
  clear among
  unfold scrubAll
  rw [List.foldl_append, List.foldl_cons]
  generalize before.foldl (fun xs m => scrub m marker xs) xs = ys
  have gone : ¬ word <:+: scrub (literal word) marker ys := by
    refine apart.not_infix_scrub fun zs atHead => ?_
    rw [literal, if_pos atHead]
    rfl
  generalize scrub (literal word) marker ys = zs at gone
  induction after generalizing zs with
  | nil => exact gone
  | cons m after ih => exact ih _ fun inside => gone (apart.infix_of_infix_scrub inside)

end Scrub
