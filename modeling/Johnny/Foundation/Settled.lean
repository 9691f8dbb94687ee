import Johnny.Foundation.Redaction
import Mathlib.Data.List.TakeWhile

/-!
# One redaction reaches the fixpoint

A credential pattern finds words without brackets and finds them wherever they stand, and the
marker has none of them inside. So no replacement creates what an earlier one removed.
-/
namespace Johnny
namespace Redaction
open Scrub

/-! ### The patterns find words -/

/-- The run takes all of what it took, and stops where it stopped as long as that stands there. -/
theorem Run.length_append (r : Run) {taken xs : List Char} (ys : List Char)
    (all : ∀ c ∈ taken, r.cls c = true) (took : r.length (taken ++ xs) = taken.length) :
    taken.length ≤ r.length (taken ++ ys) ∧
      (xs.head? = ys.head? → r.length (taken ++ ys) = taken.length) := by
  have counted (zs : List Char) :
      ((taken ++ zs).takeWhile r.cls).length = taken.length + (zs.takeWhile r.cls).length := by
    rw [List.takeWhile_append_of_pos all, List.length_append]
  have stops (same : xs.head? = ys.head?) :
      (xs.takeWhile r.cls).length = 0 ↔ (ys.takeWhile r.cls).length = 0 := by
    cases xs with
    | nil =>
        rw [List.head?_eq_none_iff.mp same.symm]
    | cons x xs =>
        obtain ⟨rest, rfl⟩ := List.head?_eq_some_iff.mp same.symm
        cases good : r.cls x <;> simp [good]
  unfold Run.length at took ⊢
  dsimp only at took ⊢
  rw [counted] at took ⊢
  cases most : r.most with
  | none =>
      rw [most] at took
      dsimp only at took ⊢
      refine ⟨by omega, fun same => ?_⟩
      have := stops same
      omega
  | some bound =>
      rw [most] at took
      dsimp only at took ⊢
      refine ⟨by omega, fun same => ?_⟩
      have := stops same
      omega

/-- A match stands on a word of the classes, and goes with the word. -/
theorem exists_word {rs : List Run} (least : ∀ r ∈ rs, 0 < r.least) {xs : List Char} {n : ℕ}
    (found : matchRuns rs xs = some n) :
    ∃ word rest, xs = word ++ rest ∧ (∀ c ∈ word, ∃ r ∈ rs, r.cls c = true) ∧
      (rs ≠ [] → word ≠ []) ∧ ∀ more, (matchRuns rs (word ++ more)).isSome := by
  induction rs generalizing xs n with
  | nil => exact ⟨[], xs, rfl, nofun, fun some => absurd rfl some, fun _ => rfl⟩
  | cons r rs ih =>
      have positive := least r List.mem_cons_self
      unfold matchRuns at found
      dsimp only at found
      split at found
      case isTrue => cases found
      case isFalse enough =>
        obtain ⟨m, behind, -⟩ := Option.map_eq_some_iff.mp found
        obtain ⟨word, rest, split', classes, some, everywhere⟩ :=
          ih (fun r member => least r (List.mem_cons_of_mem _ member)) behind
        have within : r.length xs ≤ (xs.takeWhile r.cls).length := by
          unfold Run.length
          dsimp only
          split <;> omega
        have bounded := (List.takeWhile_prefix r.cls (l := xs)).length_le
        have length : (xs.take (r.length xs)).length = r.length xs :=
          List.length_take_of_le (within.trans bounded)
        have all : ∀ c ∈ xs.take (r.length xs), r.cls c = true := by
          intro c member
          refine List.mem_takeWhile_imp (l := xs) ?_
          have shorter : xs.take (r.length xs) <+: xs.takeWhile r.cls :=
            List.prefix_of_prefix_length_le (List.take_prefix _ _) (List.takeWhile_prefix _)
              (length.trans_le within)
          exact shorter.mem member
        have parts : xs.take (r.length xs) ++ xs.drop (r.length xs) = xs :=
          List.take_append_drop _ _
        generalize xs.take (r.length xs) = taken at length all parts
        have took : r.length (taken ++ xs.drop (r.length xs)) = taken.length := by
          rw [parts, length]
        refine ⟨taken ++ word, rest, ?_, ?_, fun _ => ?_, fun more => ?_⟩
        · rw [List.append_assoc, ← split', parts]
        · intro c member
          rcases List.mem_append.mp member with inside | inside
          · exact ⟨r, List.mem_cons_self, all c inside⟩
          · obtain ⟨r', member', good⟩ := classes c inside
            exact ⟨r', List.mem_cons_of_mem _ member', good⟩
        · intro none
          rw [(List.append_eq_nil_iff.mp none).1] at length
          have : r.length xs = 0 := length.symm
          omega
        · rw [List.append_assoc]
          obtain ⟨most, stops⟩ := r.length_append (word ++ more) all took
          unfold matchRuns
          dsimp only
          rw [if_neg (by omega), Option.isSome_map]
          cases rs with
          | nil => rfl
          | cons r' rs =>
              have same : (xs.drop (r.length xs)).head? = (word ++ more).head? := by
                rw [split']
                cases word with
                | nil => exact absurd rfl (some (List.cons_ne_nil _ _))
                | cons c word => rfl
              rw [stops same, List.drop_left]
              exact everywhere more

def Run.Bounded (r : Run) : Prop := 0 < r.least ∧ r.cls '[' = false ∧ r.cls ']' = false

instance (r : Run) : Decidable r.Bounded := inferInstanceAs (Decidable (_ ∧ _ ∧ _))

theorem matchRuns_worded {rs : List Run} (some : rs ≠ []) (bounded : ∀ r ∈ rs, r.Bounded) :
    Worded (matchRuns rs) '[' ']' := by
  intro xs found
  obtain ⟨n, found⟩ := Option.isSome_iff_exists.mp found
  obtain ⟨word, rest, split', classes, nonempty, everywhere⟩ :=
    exists_word (fun r member => (bounded r member).1) found
  refine ⟨word, nonempty some, ?_, ?_, ⟨rest, split'.symm⟩, ?_⟩
  · intro bracket
    obtain ⟨r, member, good⟩ := classes _ bracket
    exact Bool.false_ne_true ((bounded r member).2.1.symm.trans good)
  · intro bracket
    obtain ⟨r, member, good⟩ := classes _ bracket
    exact Bool.false_ne_true ((bounded r member).2.2.symm.trans good)
  · rintro _ ⟨more, rfl⟩
    exact everywhere more

theorem valuePatterns_worded : ∀ m ∈ valuePatterns, Worded m '[' ']' := by
  unfold valuePatterns
  refine List.forall_mem_cons.mpr ⟨?_, List.forall_mem_cons.mpr ⟨?_, List.forall_mem_cons.mpr ⟨?_,
    List.forall_mem_cons.mpr ⟨?_, List.forall_mem_singleton.mpr ?_⟩⟩⟩⟩
  all_goals
    apply matchRuns_worded
    · decide
    · decide

theorem valuePatterns_clear : ∀ m ∈ valuePatterns, ¬ Hits m redactionMarker.toList := by
  decide +kernel

/-! ### The strings -/

/-- The secret has no bracket and does not occur inside the marker. -/
def Proper (secret : String) : Prop :=
  minSecretLen ≤ secret.length ∧ BracketFree secret ∧ contains secret redactionMarker = false

section strings
variable {secrets : List String}

theorem Proper.nonempty {secret : String} (proper : Proper secret) : secret ≠ "" := by
  rintro rfl
  exact absurd proper.1 (by decide)

theorem matchers_worded (proper : ∀ secret ∈ secrets, Proper secret) {m : Matcher Char}
    (among : m ∈ matchers secrets) : Worded m '[' ']' ∧ ¬ Hits m "REDACTED".toList := by
  rcases List.mem_append.mp among with known | pattern
  · obtain ⟨secret, member, rfl⟩ := List.mem_map.mp known
    have good := proper secret member
    have avoids := avoids_marker good.nonempty good.2.1 good.2.2
    exact ⟨.literal avoids.nonempty avoids.opening avoids.closing,
      (hits_literal avoids.nonempty).not.mpr avoids.middle⟩
  · have inside : "REDACTED".toList <:+: redactionMarker.toList := ⟨['['], [']'], rfl⟩
    exact ⟨valuePatterns_worded m pattern, fun hit =>
      valuePatterns_clear m pattern ((valuePatterns_worded m pattern).hits_mono inside hit)⟩

theorem redactStr_untouched (proper : ∀ secret ∈ secrets, Proper secret) (value : String) :
    Untouched secrets (redactStr secrets value) := by
  intro m among
  obtain ⟨worded, clear⟩ := matchers_worded proper among
  rw [redactStr_eq fun secret member => (proper secret member).nonempty, String.toList_ofList]
  exact not_hits_scrubAll worded clear among

theorem redactStr_of_untouched (proper : ∀ secret ∈ secrets, Proper secret) {value : String}
    (untouched : Untouched secrets value) : redactStr secrets value = value := by
  rw [redactStr_eq fun secret member => (proper secret member).nonempty,
    scrubAll_of_not_hits untouched, String.ofList_toList]

theorem marker_untouched (proper : ∀ secret ∈ secrets, Proper secret) :
    Untouched secrets redactionMarker := by
  intro m among
  rcases List.mem_append.mp among with known | pattern
  · obtain ⟨secret, member, rfl⟩ := List.mem_map.mp known
    have good := proper secret member
    have some : secret.toList ≠ [] := fun none =>
      good.nonempty (String.toList_eq_nil_iff.mp none)
    exact (hits_literal some).not.mpr (contains_eq_false_iff.mp good.2.2)
  · exact valuePatterns_clear m pattern

theorem untouched_iff (nonempty : ∀ secret ∈ secrets, secret ≠ "") {value : String} :
    Untouched secrets value ↔ (∀ secret ∈ secrets, contains secret value = false) ∧
      ∀ pattern ∈ valuePatterns, ¬ Hits pattern value.toList := by
  unfold Untouched matchers
  rw [List.forall_mem_append, List.forall_mem_map]
  refine and_congr_left fun _ => forall₂_congr fun secret known => ?_
  have some : secret.toList ≠ [] := fun none =>
    nonempty secret known (String.toList_eq_nil_iff.mp none)
  rw [hits_literal some, contains_eq_false_iff]

end strings

/-! ### Values and payloads -/

section values
variable {K : Type} {secrets : List String}

mutual

/-- The string values at any depth; keys are none of them. -/
def valueLeaves : Json K → List String
  | .str value => [value]
  | .arr items => itemLeaves items
  | .obj fields => fieldLeaves fields
  | _ => []

def itemLeaves : List (Json K) → List String
  | [] => []
  | item :: items => valueLeaves item ++ itemLeaves items

def fieldLeaves : List (String × Json K) → List String
  | [] => []
  | (_, item) :: fields => valueLeaves item ++ fieldLeaves fields

end

mutual

/-- The second value differs from the first only in strings that hold a secret or look like a
credential, and under the sensitive keys, where it is the marker. -/
def ValueAlike (secrets : List String) : Json K → Json K → Prop
  | .str s, out => ∃ s', out = .str s' ∧ (Untouched secrets s → s' = s)
  | .arr items, out => ∃ outs, out = .arr outs ∧ ItemsAlike secrets items outs
  | .obj fields, out => ∃ outs, out = .obj outs ∧ FieldsAlike secrets fields outs
  | .null, out => out = .null
  | .bool b, out => out = .bool b
  | .int n, out => out = .int n
  | .num x, out => out = .num x

def ItemsAlike (secrets : List String) : List (Json K) → List (Json K) → Prop
  | [], outs => outs = []
  | item :: items, outs => ∃ out rest, outs = out :: rest ∧ ValueAlike secrets item out ∧
      ItemsAlike secrets items rest

def FieldsAlike (secrets : List String) :
    List (String × Json K) → List (String × Json K) → Prop
  | [], outs => outs = []
  | (key, item) :: fields, outs => ∃ out rest, outs = (key, out) :: rest ∧
      (if isSensitiveKey key then out = .str redactionMarker else ValueAlike secrets item out) ∧
      FieldsAlike secrets fields rest

end

mutual

theorem redactValue_alike (proper : ∀ secret ∈ secrets, Proper secret) (value : Json K) :
    ValueAlike secrets value (redactValue secrets value) := by
  cases value with
  | str s => exact ⟨_, by rw [redactValue], redactStr_of_untouched proper⟩
  | arr items => exact ⟨_, by rw [redactValue], redactItems_alike proper items⟩
  | obj fields => exact ⟨_, by rw [redactValue], redactFields_alike proper fields⟩
  | null => rw [redactValue, ValueAlike]
  | bool b => rw [redactValue, ValueAlike]
  | int n => rw [redactValue, ValueAlike]
  | num x => rw [redactValue, ValueAlike]

theorem redactItems_alike (proper : ∀ secret ∈ secrets, Proper secret) (items : List (Json K)) :
    ItemsAlike secrets items (redactItems secrets items) := by
  cases items with
  | nil => rw [redactItems, ItemsAlike]
  | cons item items =>
      exact ⟨_, _, by rw [redactItems], redactValue_alike proper item,
        redactItems_alike proper items⟩

theorem redactFields_alike (proper : ∀ secret ∈ secrets, Proper secret)
    (fields : List (String × Json K)) :
    FieldsAlike secrets fields (redactFields secrets fields) := by
  cases fields with
  | nil => rw [redactFields, FieldsAlike]
  | cons field fields =>
      obtain ⟨key, item⟩ := field
      refine ⟨_, _, by rw [redactFields], ?_, redactFields_alike proper fields⟩
      split
      · rfl
      · exact redactValue_alike proper item

end

mutual

theorem valueLeaves_untouched (proper : ∀ secret ∈ secrets, Proper secret) (value : Json K) :
    ∀ leaf ∈ valueLeaves (redactValue secrets value), Untouched secrets leaf := by
  cases value with
  | str s =>
      rw [redactValue, valueLeaves, List.forall_mem_singleton]
      exact redactStr_untouched proper s
  | arr items =>
      rw [redactValue, valueLeaves]
      exact itemLeaves_untouched proper items
  | obj fields =>
      rw [redactValue, valueLeaves]
      exact fieldLeaves_untouched proper fields
  | null => exact List.forall_mem_nil _
  | bool b => exact List.forall_mem_nil _
  | int n => exact List.forall_mem_nil _
  | num x => exact List.forall_mem_nil _

theorem itemLeaves_untouched (proper : ∀ secret ∈ secrets, Proper secret) (items : List (Json K)) :
    ∀ leaf ∈ itemLeaves (redactItems secrets items), Untouched secrets leaf := by
  cases items with
  | nil => exact List.forall_mem_nil _
  | cons item items =>
      rw [redactItems, itemLeaves, List.forall_mem_append]
      exact ⟨valueLeaves_untouched proper item, itemLeaves_untouched proper items⟩

theorem fieldLeaves_untouched (proper : ∀ secret ∈ secrets, Proper secret)
    (fields : List (String × Json K)) :
    ∀ leaf ∈ fieldLeaves (redactFields secrets fields), Untouched secrets leaf := by
  cases fields with
  | nil => exact List.forall_mem_nil _
  | cons field fields =>
      obtain ⟨key, item⟩ := field
      rw [redactFields, fieldLeaves, List.forall_mem_append]
      refine ⟨?_, fieldLeaves_untouched proper fields⟩
      split
      · rw [valueLeaves, List.forall_mem_singleton]
        exact marker_untouched proper
      · exact valueLeaves_untouched proper item

end

mutual

theorem redactValue_twice (proper : ∀ secret ∈ secrets, Proper secret) (value : Json K) :
    redactValue secrets (redactValue secrets value) = redactValue secrets value := by
  cases value with
  | str s =>
      rw [redactValue, redactValue, redactStr_of_untouched proper (redactStr_untouched proper s)]
  | arr items => rw [redactValue, redactValue, redactItems_twice proper items]
  | obj fields => rw [redactValue, redactValue, redactFields_twice proper fields]
  | null => rw [redactValue, redactValue]
  | bool b => rw [redactValue, redactValue]
  | int n => rw [redactValue, redactValue]
  | num x => rw [redactValue, redactValue]

theorem redactItems_twice (proper : ∀ secret ∈ secrets, Proper secret) (items : List (Json K)) :
    redactItems secrets (redactItems secrets items) = redactItems secrets items := by
  cases items with
  | nil => rw [redactItems, redactItems]
  | cons item items =>
      rw [redactItems, redactItems, redactValue_twice proper item, redactItems_twice proper items]

theorem redactFields_twice (proper : ∀ secret ∈ secrets, Proper secret)
    (fields : List (String × Json K)) :
    redactFields secrets (redactFields secrets fields) = redactFields secrets fields := by
  cases fields with
  | nil => rw [redactFields, redactFields]
  | cons field fields =>
      obtain ⟨key, item⟩ := field
      rw [redactFields, redactFields, redactFields_twice proper fields]
      split
      · rfl
      · rw [redactValue_twice proper item]

end

/-- What is asked of a redaction of payloads: the output is a fixpoint, it is the payload but for
what must go, and no string value in it holds a secret or looks like a credential. -/
structure Settles (secrets : List String) (redact : Dict K → Dict K) : Prop where
  stable : ∀ payload, redact (redact payload) = redact payload
  alike : ∀ payload, FieldsAlike secrets payload (redact payload)
  free : ∀ payload, ∀ leaf ∈ fieldLeaves (redact payload),
    (∀ secret ∈ secrets, contains secret leaf = false) ∧
      ∀ pattern ∈ valuePatterns, ¬ Hits pattern leaf.toList

end values
end Redaction

open Redaction in
/-- For all known secrets of the asked kind one redaction settles every payload, and so does the
one that reads its secrets from the settings. -/
theorem redaction_settles {K : Type} {secrets : List String}
    (proper : ∀ secret ∈ secrets, Proper secret) :
    Settles secrets (redactFields (K := K) secrets) ∧
      ∀ settings, knownSecretValues settings = secrets →
        Settles secrets (redactPayload (K := K) settings) := by
  have settles : Settles secrets (redactFields (K := K) secrets) :=
    { stable := redactFields_twice proper
      alike := redactFields_alike proper
      free := fun payload leaf inside =>
        (untouched_iff fun secret member => (proper secret member).nonempty).mp
          (fieldLeaves_untouched proper payload leaf inside) }
  refine ⟨settles, ?_⟩
  rintro settings rfl
  exact settles

open Redaction in
theorem kettle_settles :
    Settles ["ws-4711-kettle"] (redactFields (K := ℕ) ["ws-4711-kettle"]) ∧
      ∀ settings, knownSecretValues settings = ["ws-4711-kettle"] →
        Settles ["ws-4711-kettle"] (redactPayload (K := ℕ) settings) :=
  redaction_settles (List.forall_mem_singleton.mpr ⟨by decide, ⟨by decide, by decide⟩, by decide⟩)

end Johnny
