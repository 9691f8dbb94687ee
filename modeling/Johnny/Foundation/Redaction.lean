import Johnny.Lib.Scrub
import Johnny.Foundation.Values

/-!
# Secret redaction

What both writers apply before they store or publish a payload: values under sensitive
key names, credential-shaped strings and the exact known secrets are replaced by a
marker. Keys are kept as they are.
-/
namespace Johnny

/-- The settings that hold credentials. -/
structure SecretSettings where
  groqApiKey : String := ""
  wsToken : String := ""
  postgresPassword : String := ""

namespace Redaction
open Scrub

def redactionMarker : String := "[REDACTED]"

def minSecretLen : ℕ := 6

def sensitiveKeyParts : List String :=
  ["password", "passwd", "secret", "token", "api_key", "apikey", "access_key", "secret_key",
    "authorization", "credential", "private_key", "client_secret", "auth_token"]

/-! ### Credential shapes -/

/-- A greedy run of one class of characters. -/
structure Run where
  cls : Char → Bool
  least : ℕ := 1
  most : Option ℕ := none

/-- The characters the run takes at the head. -/
def Run.length (r : Run) (xs : List Char) : ℕ :=
  let taken := (xs.takeWhile r.cls).length
  match r.most with
  | none => taken
  | some most => min most taken

/-- Runs one after the other. Each class is disjoint from the next run's, or the run is
of fixed length, so that giving characters back would never help. -/
def matchRuns : List Run → Matcher Char
  | [], _ => some 0
  | r :: rs, xs =>
    let n := r.length xs
    if n < r.least then none else (matchRuns rs (xs.drop n)).map (n + ·)

def text (s : String) : List Run := s.toList.map fun c => ⟨(· == c), 1, some 1⟩

def isUpperDigit (c : Char) : Bool := ('0' ≤ c && c ≤ '9') || ('A' ≤ c && c ≤ 'Z')

def isAlnum (c : Char) : Bool := isUpperDigit c || ('a' ≤ c && c ≤ 'z')

def isBase64Url (c : Char) : Bool := isAlnum c || c == '_' || c == '-'

/-- The characters that match the ASCII letters when case is ignored. -/
def foldsToAscii (c : Char) : Bool :=
  c.toNat == 0x130 || c.toNat == 0x131 || c.toNat == 0x17F || c.toNat == 0x212A

def isBearerChar (c : Char) : Bool := isBase64Url c || c == '.' || foldsToAscii c

def textIgnoringCase (s : String) : List Run := s.toList.map fun c =>
  ⟨fun x => x.toLower == c, 1, some 1⟩

/-- `_VALUE_PATTERNS`: Groq and OpenAI keys, AWS ids, JWTs and bearer tokens. -/
def valuePatterns : List (Matcher Char) :=
  [matchRuns (text "gsk_" ++ [⟨isAlnum, 20, none⟩]),
    matchRuns (text "sk-" ++ [⟨isAlnum, 20, none⟩]),
    matchRuns (text "AKIA" ++ [⟨isUpperDigit, 16, some 16⟩]),
    matchRuns (text "eyJ" ++ [⟨isBase64Url, 1, none⟩] ++ text "." ++ [⟨isBase64Url, 1, none⟩] ++
      text "." ++ [⟨isBase64Url, 1, none⟩]),
    matchRuns (textIgnoringCase "bearer" ++ [⟨isSpace, 1, none⟩, ⟨isBearerChar, 8, none⟩])]

/-! ### Strings, values and payloads -/

/-- `part in s`. -/
def contains (part s : String) : Bool := decide (part.toList <:+: s.toList)

/-- `str.lower`, for the letters whose lower case is or begins with an ASCII letter. -/
def lower (s : String) : String :=
  String.ofList (s.toList.flatMap fun c =>
    if c.toNat = 0x130 then ['i', Char.ofNat 0x307]
    else if c.toNat = 0x212A then ['k']
    else [c.toLower])

def isSensitiveKey (key : String) : Bool := sensitiveKeyParts.any fun part => contains part (lower key)

def knownSecretValues (settings : SecretSettings) : List String :=
  [settings.groqApiKey, settings.wsToken, settings.postgresPassword].filter fun value =>
    decide (minSecretLen ≤ value.length)

/-- `value.replace(secret, REDACTION_MARKER)`, where the secret is not empty. -/
def replaceSecret (secret : String) (value : List Char) : List Char :=
  scrub (literal secret.toList) redactionMarker.toList value

def redactStr (secrets : List String) (value : String) : String :=
  let replaced := secrets.foldl (fun value secret =>
    if secret.toList <:+: value then replaceSecret secret value else value) value.toList
  String.ofList (valuePatterns.foldl (fun value pattern =>
    scrub pattern redactionMarker.toList value) replaced)

section values
variable {K : Type}

mutual

def redactValue (secrets : List String) : Json K → Json K
  | .str value => .str (redactStr secrets value)
  | .arr items => .arr (redactItems secrets items)
  | .obj fields => .obj (redactFields secrets fields)
  | .null => .null
  | .bool b => .bool b
  | .int n => .int n
  | .num x => .num x

def redactItems (secrets : List String) : List (Json K) → List (Json K)
  | [] => []
  | item :: items => redactValue secrets item :: redactItems secrets items

/-- The value under a sensitive key is replaced whole; the key itself stays. -/
def redactFields (secrets : List String) : List (String × Json K) → List (String × Json K)
  | [] => []
  | (key, item) :: fields =>
    (key, if isSensitiveKey key then .str redactionMarker else redactValue secrets item) ::
      redactFields secrets fields

end

def redactPayload (settings : SecretSettings) (payload : Dict K) : Dict K :=
  redactFields (knownSecretValues settings) payload

end values

/-! ### What a scrubbed string can contain -/

/-- The scrubs of a string, in order. -/
def matchers (secrets : List String) : List (Matcher Char) :=
  secrets.map (fun secret => literal secret.toList) ++ valuePatterns

theorem redactStr_eq {secrets : List String} (nonempty : ∀ secret ∈ secrets, secret ≠ "")
    (value : String) :
    redactStr secrets value =
      String.ofList (scrubAll (matchers secrets) redactionMarker.toList value.toList) := by
  have replaced (xs : List Char) :
      secrets.foldl (fun value secret =>
        if secret.toList <:+: value then replaceSecret secret value else value) xs =
      scrubAll (secrets.map fun secret => literal secret.toList) redactionMarker.toList xs := by
    induction secrets generalizing xs with
    | nil => rfl
    | cons secret secrets ih =>
        have rest := ih fun s member => nonempty s (List.mem_cons_of_mem secret member)
        rw [List.foldl_cons, List.map_cons, scrubAll_cons, rest]
        by_cases inside : secret.toList <:+: xs
        · rw [if_pos inside, replaceSecret]
        · have some : secret.toList ≠ [] := by
            intro none
            exact nonempty secret List.mem_cons_self (String.toList_eq_nil_iff.mp none)
          rw [if_neg inside, scrub_of_not_hits]
          rwa [hits_literal some]
  unfold redactStr matchers
  rw [replaced]
  unfold scrubAll
  rw [List.foldl_append]

theorem known_nonempty (settings : SecretSettings) :
    ∀ secret ∈ knownSecretValues settings, secret ≠ "" := by
  rintro secret known rfl
  have long := (List.mem_filter.mp known).2
  simp [minSecretLen] at long

/-- No known secret occurs in the string, and nothing in it has the shape of a credential. -/
def Untouched (secrets : List String) (value : String) : Prop :=
  ∀ m ∈ matchers secrets, ¬ Hits m value.toList

def BracketFree (s : String) : Prop := '[' ∉ s.toList ∧ ']' ∉ s.toList

/-- The string is clear of the secret once scrubbed. A secret inside the marker needs a string in
which nothing is replaced, and one apart from the marker needs nothing. The others, which a
marker can complete at one of its ends, are looked for in what stands beside the markers. -/
def LeafClear (secrets : List String) (secret value : String) : Prop :=
  if contains secret redactionMarker = true then Untouched secrets value
  else NoOverlap secret.toList redactionMarker.toList ∨
    contains secret (redactStr secrets value) = false

section leaf
variable {secrets : List String} {secret value : String}

theorem contains_eq_false_iff {part s : String} :
    contains part s = false ↔ ¬ part.toList <:+: s.toList := by
  rw [contains, decide_eq_false_iff_not]

theorem avoids_marker (nonempty : secret ≠ "") (free : BracketFree secret)
    (apart : contains secret redactionMarker = false) :
    Avoids secret.toList '[' "REDACTED".toList ']' where
  nonempty := fun none => nonempty (String.toList_eq_nil_iff.mp none)
  opening := free.1
  closing := free.2
  middle := by
    intro inside
    refine contains_eq_false_iff.mp apart (inside.trans ?_)
    exact ⟨['['], [']'], rfl⟩

theorem literal_mem_matchers (known : secret ∈ secrets) :
    literal secret.toList ∈ matchers secrets :=
  List.mem_append_left _ (List.mem_map_of_mem known)

/-- Where nothing is replaced no known secret occurs. -/
theorem absent_of_untouched (nonempty : ∀ secret ∈ secrets, secret ≠ "") (known : secret ∈ secrets)
    (untouched : Untouched secrets value) : contains secret (redactStr secrets value) = false := by
  rw [contains_eq_false_iff, redactStr_eq nonempty, String.toList_ofList,
    scrubAll_of_not_hits untouched]
  have some : secret.toList ≠ [] := fun none =>
    nonempty secret known (String.toList_eq_nil_iff.mp none)
  rw [← hits_literal some]
  exact untouched _ (literal_mem_matchers known)

theorem leafClear_iff (nonempty : ∀ secret ∈ secrets, secret ≠ "") (known : secret ∈ secrets) :
    contains secret (redactStr secrets value) = false ↔ LeafClear secrets secret value := by
  unfold LeafClear
  cases inMarker : contains secret redactionMarker with
  | true =>
      rw [if_pos rfl]
      rw [contains, decide_eq_true_iff] at inMarker
      refine ⟨fun absent => ?_, absent_of_untouched nonempty known⟩
      rw [contains_eq_false_iff, redactStr_eq nonempty, String.toList_ofList] at absent
      by_contra touched
      unfold Untouched at touched
      push Not at touched
      exact absent (inMarker.trans (marker_infix_of_hits touched))
  | false =>
      rw [if_neg Bool.false_ne_true]
      constructor
      · exact .inr
      · rintro (apart | absent)
        · rw [contains_eq_false_iff, redactStr_eq nonempty, String.toList_ofList]
          exact apart.not_infix_scrubAll (literal_mem_matchers known)
        · exact absent

end leaf

/-! ### What a redacted payload can contain -/

section payload
variable {K : Type}

mutual

/-- Every string of a value: its keys and its string leaves, at any depth. -/
def valueStrings : Json K → List String
  | .str value => [value]
  | .arr items => itemStrings items
  | .obj fields => fieldStrings fields
  | _ => []

def itemStrings : List (Json K) → List String
  | [] => []
  | item :: items => valueStrings item ++ itemStrings items

def fieldStrings : List (String × Json K) → List String
  | [] => []
  | (key, item) :: fields => key :: (valueStrings item ++ fieldStrings fields)

end

mutual

/-- The secret is in no key outside the replaced values, every string leaf comes out clear
of it, and where a key is sensitive it is no part of the marker. -/
def ValueClear (secrets : List String) (secret : String) : Json K → Prop
  | .str value => LeafClear secrets secret value
  | .arr items => ItemsClear secrets secret items
  | .obj fields => FieldsClear secrets secret fields
  | _ => True

def ItemsClear (secrets : List String) (secret : String) : List (Json K) → Prop
  | [] => True
  | item :: items => ValueClear secrets secret item ∧ ItemsClear secrets secret items

def FieldsClear (secrets : List String) (secret : String) : List (String × Json K) → Prop
  | [] => True
  | (key, item) :: fields => contains secret key = false ∧
      (if isSensitiveKey key then contains secret redactionMarker = false
        else ValueClear secrets secret item) ∧ FieldsClear secrets secret fields

end

/-- None of the strings contains the secret. -/
def Without (secret : String) (strings : List String) : Prop :=
  ∀ s ∈ strings, contains secret s = false

theorem without_append {secret : String} {xs ys : List String} :
    Without secret (xs ++ ys) ↔ Without secret xs ∧ Without secret ys := List.forall_mem_append

theorem without_cons {secret x : String} {xs : List String} :
    Without secret (x :: xs) ↔ contains secret x = false ∧ Without secret xs :=
  List.forall_mem_cons

theorem without_nil {secret : String} : Without secret [] := List.forall_mem_nil _

theorem without_singleton {secret x : String} :
    Without secret [x] ↔ contains secret x = false := List.forall_mem_singleton

variable {secrets : List String} {secret : String}

mutual

theorem valueClear_iff (nonempty : ∀ secret ∈ secrets, secret ≠ "") (known : secret ∈ secrets)
    (value : Json K) :
    Without secret (valueStrings (redactValue secrets value)) ↔ ValueClear secrets secret value := by
  cases value with
  | str s =>
      rw [redactValue, valueStrings, without_singleton, ValueClear]
      exact leafClear_iff nonempty known
  | arr items =>
      rw [redactValue, valueStrings, ValueClear]
      exact itemsClear_iff nonempty known items
  | obj fields =>
      rw [redactValue, valueStrings, ValueClear]
      exact fieldsClear_iff nonempty known fields
  | null => exact iff_of_true without_nil trivial
  | bool b => exact iff_of_true without_nil trivial
  | int n => exact iff_of_true without_nil trivial
  | num x => exact iff_of_true without_nil trivial

theorem itemsClear_iff (nonempty : ∀ secret ∈ secrets, secret ≠ "") (known : secret ∈ secrets)
    (items : List (Json K)) :
    Without secret (itemStrings (redactItems secrets items)) ↔ ItemsClear secrets secret items := by
  cases items with
  | nil => exact iff_of_true without_nil trivial
  | cons item items =>
      rw [redactItems, itemStrings, ItemsClear, without_append,
        valueClear_iff nonempty known item, itemsClear_iff nonempty known items]

theorem fieldsClear_iff (nonempty : ∀ secret ∈ secrets, secret ≠ "") (known : secret ∈ secrets)
    (fields : List (String × Json K)) :
    Without secret (fieldStrings (redactFields secrets fields)) ↔
      FieldsClear secrets secret fields := by
  cases fields with
  | nil => exact iff_of_true without_nil trivial
  | cons field fields =>
      obtain ⟨key, item⟩ := field
      rw [redactFields, fieldStrings, FieldsClear, without_cons, without_append,
        fieldsClear_iff nonempty known fields]
      split
      · rw [valueStrings, without_singleton]
      · rw [valueClear_iff nonempty known item]

end

end payload

end Redaction
end Johnny
