import Mathlib.Algebra.Order.Floor.Ring
import Mathlib.Tactic.Linarith

/-!
# Values the whole Mind passes around

JSON-like values, dictionaries in insertion order, and the few built-ins the
modelled functions use on strings and numbers. Floats are read as elements of an
ordered field `K`.
-/
namespace Johnny

/-- A JSON-like value, as `json.dumps` sees it: dictionary keys are already strings. Its
texts are strings, unless a reader makes something else of them. -/
inductive Json (K : Type) (S : Type := String) where
  | null
  | bool (b : Bool)
  | int (n : ℤ)
  | num (x : K)
  | str (s : S)
  | arr (items : List (Json K S))
  | obj (fields : List (S × Json K S))

/-- A dictionary in insertion order. -/
abbrev Dict (K : Type) := List (String × Json K)

section dictionaries
variable {κ α : Type} [DecidableEq κ]

/-- `d.get(key)`. -/
def dictGet (d : List (κ × α)) (key : κ) : Option α :=
  (d.find? fun e => e.1 == key).map Prod.snd

/-- `d[key] = value`: in place where the key exists, at the end where it does not. -/
def dictSet (d : List (κ × α)) (key : κ) (value : α) : List (κ × α) :=
  if d.any fun e => e.1 == key then d.map fun e => if e.1 == key then (key, value) else e
  else d ++ [(key, value)]

theorem mem_dictSet {d : List (κ × α)} {key : κ} {value : α} {entry : κ × α}
    (member : entry ∈ dictSet d key value) :
    entry ∈ d ∨ entry = (key, value) := by
  unfold dictSet at member
  split at member
  · obtain ⟨old, inside, rfl⟩ := List.mem_map.mp member
    split
    · exact .inr rfl
    · exact .inl inside
  · rcases List.mem_append.mp member with inside | new
    · exact .inl inside
    · exact .inr (List.mem_singleton.mp new)

theorem dictGet_dictSet (d : List (κ × α)) (key : κ) (value : α) :
    dictGet (dictSet d key value) key = some value := by
  have found (e : List (κ × α)) (first : κ × α) (known : first.1 = key) :
      dictGet (first :: e) key = some first.2 := by
    unfold dictGet
    rw [List.find?_cons, known, beq_self_eq_true]
    rfl
  unfold dictSet
  split
  next known =>
    induction d with
    | nil => cases known
    | cons e d ih =>
        rw [List.map_cons]
        by_cases here : e.1 = key
        · rw [here, beq_self_eq_true]
          exact found _ (key, value) rfl
        · have other : (e.1 == key) = false := beq_false_of_ne here
          rw [List.any_cons, other, Bool.false_or] at known
          rw [other]
          unfold dictGet at ih ⊢
          rw [if_neg Bool.false_ne_true, List.find?_cons, other]
          exact ih known
  next fresh =>
    induction d with
    | nil => exact found [] (key, value) rfl
    | cons e d ih =>
        rw [List.any_cons, Bool.or_eq_true, not_or, Bool.not_eq_true] at fresh
        unfold dictGet at ih ⊢
        rw [List.cons_append, List.find?_cons, fresh.1]
        exact ih fresh.2

theorem dictGet_dictSet_of_ne {d : List (κ × α)} {key other : κ} (value : α)
    (apart : other ≠ key) : dictGet (dictSet d key value) other = dictGet d other := by
  have unequal : (key == other) = false := beq_false_of_ne apart.symm
  unfold dictSet dictGet
  split
  next known =>
    clear known
    induction d with
    | nil => rfl
    | cons e d ih =>
        rw [List.map_cons, List.find?_cons, List.find?_cons]
        by_cases here : e.1 = key
        · rw [here, beq_self_eq_true, if_pos rfl, unequal]
          exact ih
        · rw [if_neg (by simpa using here)]
          cases e.1 == other
          · exact ih
          · rfl
  next =>
    rw [List.find?_append, List.find?_cons, unequal]
    simp

theorem dictGet_eq_none {d : List (κ × α)} {key : κ} :
    dictGet d key = none ↔ key ∉ d.map Prod.fst := by
  unfold dictGet
  rw [Option.map_eq_none_iff, List.find?_eq_none, List.mem_map]
  constructor
  · rintro absent ⟨e, inside, same⟩
    exact absent e inside (beq_iff_eq.mpr same)
  · intro absent e inside same
    exact absent ⟨e, inside, beq_iff_eq.mp same⟩

theorem mem_of_dictGet {d : List (κ × α)} {key : κ} {value : α}
    (found : dictGet d key = some value) : (key, value) ∈ d := by
  obtain ⟨e, first, rfl⟩ := Option.map_eq_some_iff.mp found
  have same : e.1 = key := by simpa using List.find?_some first
  exact same ▸ List.mem_of_find?_eq_some first

theorem keys_dictSet (d : List (κ × α)) (key : κ) (value : α) :
    (dictSet d key value).map Prod.fst =
      if key ∈ d.map Prod.fst then d.map Prod.fst else d.map Prod.fst ++ [key] := by
  have known : (d.any fun e => e.1 == key) ↔ key ∈ d.map Prod.fst := by simp
  unfold dictSet
  by_cases present : key ∈ d.map Prod.fst
  · rw [if_pos (known.mpr present), if_pos present, List.map_map]
    refine List.map_congr_left fun e _ => ?_
    by_cases same : e.1 = key
    · simp [same]
    · simp [same]
  · rw [if_neg (mt known.mp present), if_neg present, List.map_append]
    rfl

/-- After `d[key] = value` nothing else stands under the key. -/
theorem dictSet_only {d : List (κ × α)} {key : κ} {value : α} {entry : κ × α}
    (member : entry ∈ dictSet d key value) (same : entry.1 = key) : entry = (key, value) := by
  unfold dictSet at member
  split at member
  · obtain ⟨old, -, rfl⟩ := List.mem_map.mp member
    split at same
    next here => rw [if_pos here]
    next apart => exact absurd (beq_iff_eq.mpr same) apart
  next fresh =>
    rcases List.mem_append.mp member with inside | new
    · have known : (d.any fun e => e.1 == key) = true :=
        List.any_eq_true.mpr ⟨entry, inside, beq_iff_eq.mpr same⟩
      exact absurd known fresh
    · exact List.mem_singleton.mp new

end dictionaries

/-- The exception classes that some `except` clause or report tells apart. -/
inductive ExcClass where
  | llmUnavailable
  | validationError
  | dispatchError
  | other (name : String)
  deriving DecidableEq, Repr

def ExcClass.name : ExcClass → String
  | .llmUnavailable => "LLMUnavailableError"
  | .validationError => "ValidationError"
  | .dispatchError => "DispatchError"
  | .other name => name

/-- What a call can raise: an `Exception`, or `asyncio.CancelledError`, which is not one. -/
inductive Failure where
  | exception (cls : ExcClass) (text : String)
  | cancelled
  deriving DecidableEq, Repr

/-- `except Exception`. -/
def Failure.isException : Failure → Bool
  | .exception _ _ => true
  | .cancelled => false

/-- `except LLMUnavailableError`. -/
def Failure.isUnavailable : Failure → Bool
  | .exception .llmUnavailable _ => true
  | _ => false

/-- `str(exc)`. -/
def Failure.text : Failure → String
  | .exception _ text => text
  | .cancelled => ""

/-- `f"{type(exc).__name__}: {exc}"`. -/
def Failure.describe : Failure → String
  | .exception cls text => cls.name ++ ": " ++ text
  | .cancelled => "CancelledError: "

/-- `str.isspace` on one character. -/
def isSpace (c : Char) : Bool :=
  let n := c.toNat
  (0x09 ≤ n && n ≤ 0x0D) || (0x1C ≤ n && n ≤ 0x20) || n == 0x85 || n == 0xA0 || n == 0x1680 ||
    (0x2000 ≤ n && n ≤ 0x200A) || n == 0x2028 || n == 0x2029 || n == 0x202F || n == 0x205F ||
    n == 0x3000

/-- Drops the characters of `drop` from both ends. -/
def stripBy (drop : Char → Bool) (s : String) : String :=
  String.ofList ((s.toList.dropWhile drop).reverse.dropWhile drop).reverse

/-- `s.strip()`. -/
def strip (s : String) : String := stripBy isSpace s

/-- The characters `str.splitlines` breaks at. -/
def isLineBreak (c : Char) : Bool :=
  let n := c.toNat
  (0x0A ≤ n && n ≤ 0x0D) || (0x1C ≤ n && n ≤ 0x1E) || n == 0x85 || n == 0x2028 || n == 0x2029

/-- The lines of a text whose current line, read backwards, is `current`. -/
def splitLinesFrom (current : List Char) : List Char → List String
  | [] => if current = [] then [] else [String.ofList current.reverse]
  | '\r' :: '\n' :: rest => String.ofList current.reverse :: splitLinesFrom [] rest
  | c :: rest =>
    if isLineBreak c then String.ofList current.reverse :: splitLinesFrom [] rest
    else splitLinesFrom (c :: current) rest

/-- `s.splitlines()`. -/
def splitLines (s : String) : List String := splitLinesFrom [] s.toList

/-- The two hexadecimal digits of a code below 256. -/
def hexByte (n : ℕ) : String :=
  String.ofList [Nat.digitChar (n / 16 % 16), Nat.digitChar (n % 16)]

/-- `repr(s)`, up to the escapes of the non-printable characters above ASCII. -/
def pyRepr (s : String) : String :=
  let quote := if s.toList.contains '\'' && !s.toList.contains '"' then '"' else '\''
  let escape (c : Char) : String :=
    if c == quote || c == '\\' then String.ofList ['\\', c]
    else if c == '\t' then "\\t"
    else if c == '\n' then "\\n"
    else if c == '\r' then "\\r"
    else if c.toNat < 0x20 || c.toNat == 0x7F then "\\x" ++ hexByte c.toNat
    else c.toString
  quote.toString ++ String.join (s.toList.map escape) ++ quote.toString

section numbers
variable {K : Type} [Field K] [LinearOrder K]

/-- A decimal of the source: `frac 3 10` is `0.3`. -/
def frac (num den : ℕ) : K := (num : K) / (den : K)

/-- `min(1.0, max(0.0, value))`. -/
def clamp01 (value : K) : K := min 1 (max 0 value)

/-- `round(x)` to an integer, ties to even. -/
def roundHalfEven [FloorRing K] (x : K) : ℤ :=
  let f := ⌊x⌋
  if x - f < 1 / 2 then f
  else if 1 / 2 < x - f then f + 1
  else if f % 2 = 0 then f else f + 1

/-- `round(x, digits)`. -/
def roundTo [FloorRing K] (digits : ℕ) (x : K) : K :=
  (roundHalfEven (x * 10 ^ digits) : K) / 10 ^ digits

theorem clamp01_nonneg [IsStrictOrderedRing K] (x : K) : 0 ≤ clamp01 x :=
  le_min zero_le_one (le_max_left 0 x)

theorem clamp01_le_one (x : K) : clamp01 x ≤ 1 := min_le_left 1 _

theorem clamp01_of_mem {x : K} (h0 : 0 ≤ x) (h1 : x ≤ 1) : clamp01 x = x := by
  rw [clamp01, max_eq_right h0, min_eq_right h1]

end numbers

end Johnny
