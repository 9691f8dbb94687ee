import Johnny.Foundation.Tokens
import Johnny.Lib.JsonNumber
import Johnny.Lib.JsonString
import Mathlib.Data.List.Nodup
import Mathlib.Data.List.TakeWhile

/-!
# JSON text

Writing and reading JSON on the characters. A writer has a layout, compact or indented; a
reader skips white space between the tokens, reads numbers and literals by their own rules,
and lets a later field of one key replace an earlier one. Readers differ in what they make of
lone surrogates, and in how long an integer and how deep a nesting they take.
-/
namespace Johnny

variable {K S S' : Type}

/-! ### Floats as text -/

open JsonString (printable)

/-- How floats are written and read: `float.__repr__`, with the names of JSON for what is
not finite, and `float(text)`. -/
structure NumberText (K : Type) where
  repr : K → List Char
  float : List Char → K
  nan : K
  infinity : K
  negInfinity : K
  /-- `x == n`. -/
  equals : K → ℤ → Bool
  /-- A finite float is written as a number with a fraction or an exponent, and reads back. -/
  reads : ∀ x, (∃ t : JsonNumber.Token, repr x = t.text ∧
      JsonNumber.readToken t.text = some (t, []) ∧ t.isInteger = false ∧ float t.text = x) ∨
    (repr x, x) ∈ [("NaN".toList, nan), ("Infinity".toList, infinity),
      ("-Infinity".toList, negInfinity)]
  printed : ∀ x, ∀ c ∈ repr x, printable c = true

/-! ### White space and layouts -/

/-- `[ \t\n\r]`. -/
def isBlank (c : Char) : Bool := c == ' ' || c == '\t' || c == '\n' || c == '\r'

def skipBlank (cs : List Char) : List Char := cs.dropWhile isBlank

/-- The white space a writer puts at the depth of an item. -/
structure Layout where
  /-- Before the first item and the closing bracket. -/
  newline : ℕ → List Char
  /-- After a comma. -/
  comma : ℕ → List Char
  blankNewline : ∀ d, ∀ c ∈ newline d, isBlank c = true
  blankComma : ∀ d, ∀ c ∈ comma d, isBlank c = true

/-- What `dumps` writes by default. -/
def Layout.compact : Layout where
  newline _ := []
  comma _ := [' ']
  blankNewline _ := List.forall_mem_nil _
  blankComma _ := List.forall_mem_singleton.mpr rfl

/-- What it writes with `indent`. -/
def Layout.indented (indent : ℕ) : Layout where
  newline d := '\n' :: List.replicate (indent * d) ' '
  comma d := '\n' :: List.replicate (indent * d) ' '
  blankNewline d := List.forall_mem_cons.mpr ⟨rfl, fun _ inside => by
    rw [List.eq_of_mem_replicate inside]
    rfl⟩
  blankComma d := List.forall_mem_cons.mpr ⟨rfl, fun _ inside => by
    rw [List.eq_of_mem_replicate inside]
    rfl⟩

/-! ### The writer -/

mutual

def writeValue (f : NumberText K) (l : Layout) (d : ℕ) : Json K → List Char
  | .null => "null".toList
  | .bool b => if b then "true".toList else "false".toList
  | .int n => JsonNumber.intText n
  | .num x => f.repr x
  | .str s => JsonString.literal true s
  | .arr [] => ['[', ']']
  | .arr (item :: items) =>
    '[' :: (l.newline (d + 1) ++ (writeValue f l (d + 1) item ++ writeItems f l d items))
  | .obj [] => ['\x7b', '\x7d']
  | .obj ((key, value) :: fields) =>
    '\x7b' :: (l.newline (d + 1) ++ (JsonString.literal true key ++
      (':' :: ' ' :: (writeValue f l (d + 1) value ++ writeFields f l d fields))))

/-- The items after the first, and the closing bracket. -/
def writeItems (f : NumberText K) (l : Layout) (d : ℕ) : List (Json K) → List Char
  | [] => l.newline d ++ [']']
  | item :: items =>
    ',' :: (l.comma (d + 1) ++ (writeValue f l (d + 1) item ++ writeItems f l d items))

def writeFields (f : NumberText K) (l : Layout) (d : ℕ) : List (String × Json K) → List Char
  | [] => l.newline d ++ ['\x7d']
  | (key, value) :: fields =>
    ',' :: (l.comma (d + 1) ++ (JsonString.literal true key ++
      (':' :: ' ' :: (writeValue f l (d + 1) value ++ writeFields f l d fields))))

end

/-! ### Readers -/

/-- How much is read or written of what is JSON; without a limit, all. -/
structure JsonLimits where
  /-- The digits of an integer. -/
  digits : Option ℕ := none
  /-- The lists and dictionaries around a value, itself included. -/
  depth : Option ℕ := none
  deriving DecidableEq

/-- What is left inside a list or dictionary, where one may still be opened. -/
def JsonLimits.enter (limits : JsonLimits) : Option JsonLimits :=
  match limits.depth with
  | none => some limits
  | some 0 => none
  | some (depth + 1) => some { limits with depth := some depth }

/-- What a reader makes of numbers and texts, and how much it takes. -/
structure JsonReader (K S : Type) where
  numbers : NumberText K
  /-- What the code points of a literal are read as. -/
  text : List ℕ → Option S
  limits : JsonLimits
  /-- What a string reads back as. -/
  of : String → S
  reads : ∀ s : String, text (s.toList.map Char.toNat) = some (of s)
  distinct : Function.Injective of

namespace JsonReader

/-- Texts are strings, so a lone surrogate is refused: the reader of the models' validation. -/
def strict (f : NumberText K) : JsonReader K String where
  numbers := f
  text := JsonString.scalars
  limits := {}
  of := id
  reads := JsonString.scalars_toNat
  distinct := Function.injective_id

/-- The reader of `json.loads`: it keeps lone surrogates, but the interpreter has its limits. -/
def python (f : NumberText K) (limits : JsonLimits) : JsonReader K PyText where
  numbers := f
  text := some
  limits := limits
  of := points
  reads _ := rfl
  distinct := points_injective

def enter (r : JsonReader K S) : Option (JsonReader K S) :=
  r.limits.enter.map fun limits => { r with limits := limits }

theorem enter_strict (f : NumberText K) : (strict f).enter = some (strict f) := rfl

end JsonReader

def constants (f : NumberText K) : List (List Char × Json K S) :=
  [("null".toList, .null), ("true".toList, .bool true), ("false".toList, .bool false),
    ("NaN".toList, .num f.nan), ("Infinity".toList, .num f.infinity),
    ("-Infinity".toList, .num f.negInfinity)]

/-- A number: an integer where it has no fraction and no exponent. -/
def readNumber (r : JsonReader K S) (cs : List Char) : Option (Json K S × List Char) := do
  let (t, rest) ← JsonNumber.readToken cs
  if t.isInteger then
    let n ← JsonNumber.readInt r.limits.digits t.whole
    some (.int n, rest)
  else some (.num (r.numbers.float t.text), rest)

def readScalar (r : JsonReader K S) (cs : List Char) : Option (Json K S × List Char) :=
  ((constants r.numbers).findSome? fun e =>
    (JsonString.expect e.1 cs).map fun rest => (e.2, rest)).or (readNumber r cs)

/-- A dictionary of pairs that come one after the other. -/
def dictOf {κ α : Type} [DecidableEq κ] (pairs : List (κ × α)) : List (κ × α) :=
  pairs.foldl (fun d e => dictSet d e.1 e.2) []

section reader
variable [DecidableEq S]

/-- A key, a colon and a value. -/
def readField (text : List ℕ → Option S) (value : List Char → Option (Json K S × List Char))
    (cs : List Char) : Option ((S × Json K S) × List Char) := do
  let (key, cs) ← JsonString.readLiteral text cs
  let cs ← JsonString.expect [':'] (skipBlank cs)
  let (item, cs) ← value (skipBlank cs)
  some ((key, item), cs)

mutual

/-- The value at the head of a text, with a bound on its characters. -/
def readValue : JsonReader K S → ℕ → List Char → Option (Json K S × List Char)
  | r, n + 1, c :: cs =>
    if c = '"' then (JsonString.readLiteral r.text (c :: cs)).map fun p => (.str p.1, p.2)
    else if c = '\x7b' then do
      let r ← r.enter
      match JsonString.expect ['\x7d'] (skipBlank cs) with
      | some cs => some (.obj [], cs)
      | none => do
        let (field, cs) ← readField r.text (readValue r n) (skipBlank cs)
        let (fields, cs) ← readFields r n cs
        some (.obj (dictOf (field :: fields)), cs)
    else if c = '[' then do
      let r ← r.enter
      match JsonString.expect [']'] (skipBlank cs) with
      | some cs => some (.arr [], cs)
      | none => do
        let (item, cs) ← readValue r n (skipBlank cs)
        let (items, cs) ← readItems r n cs
        some (.arr (item :: items), cs)
    else readScalar r (c :: cs)
  | _, _, _ => none

/-- The items after the first, up to the closing bracket. -/
def readItems : JsonReader K S → ℕ → List Char → Option (List (Json K S) × List Char)
  | r, n + 1, cs =>
    match skipBlank cs with
    | c :: cs =>
      if c = ']' then some ([], cs)
      else if c = ',' then do
        let (item, cs) ← readValue r n (skipBlank cs)
        let (items, cs) ← readItems r n cs
        some (item :: items, cs)
      else none
    | [] => none
  | _, 0, _ => none

def readFields : JsonReader K S → ℕ → List Char → Option (List (S × Json K S) × List Char)
  | r, n + 1, cs =>
    match skipBlank cs with
    | c :: cs =>
      if c = '\x7d' then some ([], cs)
      else if c = ',' then do
        let (field, cs) ← readField r.text (readValue r n) (skipBlank cs)
        let (fields, cs) ← readFields r n cs
        some (field :: fields, cs)
      else none
    | [] => none
  | _, 0, _ => none

end

end reader

/-! ### Proper values -/

mutual

/-- No dictionary inside has a key twice. -/
def Json.Proper : Json K → Prop
  | .arr items => ItemsProper items
  | .obj fields => (fields.map Prod.fst).Nodup ∧ FieldsProper fields
  | _ => True

def ItemsProper : List (Json K) → Prop
  | [] => True
  | item :: items => item.Proper ∧ ItemsProper items

def FieldsProper : List (String × Json K) → Prop
  | [] => True
  | (_, value) :: fields => value.Proper ∧ FieldsProper fields

end

/-! ### Values within limits -/

mutual

/-- Its integers are short enough, and nothing in it is nested too deep. -/
def Json.within : JsonLimits → Json K S → Bool
  | limits, .int n => JsonNumber.shortEnough limits.digits (JsonNumber.intText n)
  | limits, .arr items => limits.enter.any fun inside => itemsWithin inside items
  | limits, .obj fields => limits.enter.any fun inside => fieldsWithin inside fields
  | _, _ => true

def itemsWithin : JsonLimits → List (Json K S) → Bool
  | _, [] => true
  | limits, item :: items => item.within limits && itemsWithin limits items

def fieldsWithin : JsonLimits → List (S × Json K S) → Bool
  | _, [] => true
  | limits, (_, value) :: fields => value.within limits && fieldsWithin limits fields

end

mutual

theorem within_unlimited (j : Json K S) : j.within {} = true := by
  cases j with
  | arr items => exact itemsWithin_unlimited items
  | obj fields => exact fieldsWithin_unlimited fields
  | null | bool | int | num | str => rfl

theorem itemsWithin_unlimited (items : List (Json K S)) : itemsWithin {} items = true := by
  cases items with
  | nil => rfl
  | cons item items =>
      rw [itemsWithin, within_unlimited item, itemsWithin_unlimited items, Bool.and_self]

theorem fieldsWithin_unlimited (fields : List (S × Json K S)) : fieldsWithin {} fields = true := by
  cases fields with
  | nil => rfl
  | cons field fields =>
      obtain ⟨key, value⟩ := field
      rw [fieldsWithin, within_unlimited value, fieldsWithin_unlimited fields, Bool.and_self]

end

/-! ### The same value with other texts -/

mutual

def Json.mapText (g : S → S') : Json K S → Json K S'
  | .null => .null
  | .bool b => .bool b
  | .int n => .int n
  | .num x => .num x
  | .str s => .str (g s)
  | .arr items => .arr (mapItems g items)
  | .obj fields => .obj (mapFields g fields)

def mapItems (g : S → S') : List (Json K S) → List (Json K S')
  | [] => []
  | item :: items => item.mapText g :: mapItems g items

def mapFields (g : S → S') : List (S × Json K S) → List (S' × Json K S')
  | [] => []
  | (key, value) :: fields => (g key, value.mapText g) :: mapFields g fields

end

theorem mapFields_eq (g : S → S') (fields : List (S × Json K S)) :
    mapFields g fields = fields.map fun e => (g e.1, e.2.mapText g) := by
  induction fields with
  | nil => rfl
  | cons field fields ih =>
      obtain ⟨key, value⟩ := field
      rw [mapFields, ih, List.map_cons]

mutual

theorem mapText_id (j : Json K S) : j.mapText id = j := by
  cases j with
  | arr items => exact congrArg Json.arr (mapItems_id items)
  | obj fields => exact congrArg Json.obj (mapFields_id fields)
  | null | bool | int | num | str => rfl

theorem mapItems_id (items : List (Json K S)) : mapItems id items = items := by
  cases items with
  | nil => rfl
  | cons item items => rw [mapItems, mapText_id item, mapItems_id items]

theorem mapFields_id (fields : List (S × Json K S)) : mapFields id fields = fields := by
  cases fields with
  | nil => rfl
  | cons field fields =>
      obtain ⟨key, value⟩ := field
      rw [mapFields, mapText_id value, mapFields_id fields, id]

end

theorem dictGet_mapFields [DecidableEq S] [DecidableEq S'] {g : S → S'}
    (injective : Function.Injective g) (fields : List (S × Json K S)) (key : S) :
    dictGet (mapFields g fields) (g key) = (dictGet fields key).map (Json.mapText g) := by
  rw [mapFields_eq]
  unfold dictGet
  induction fields with
  | nil => rfl
  | cons e fields ih =>
      rw [List.map_cons, List.find?_cons, List.find?_cons]
      by_cases same : e.1 = key
      · rw [same, beq_self_eq_true, beq_self_eq_true]
        rfl
      · rw [beq_false_of_ne (injective.ne same), beq_false_of_ne same]
        exact ih

/-! ### What is written reads back -/

section reading
variable {f : NumberText K} {r : JsonReader K S} {l : Layout} {cs ws rest : List Char} {n : ℕ}

theorem skipBlank_append (blank : ∀ c ∈ ws, isBlank c = true) (cs : List Char) :
    skipBlank (ws ++ cs) = skipBlank cs :=
  List.dropWhile_append_of_pos blank

theorem skipBlank_cons {c : Char} (solid : isBlank c = false) (cs : List Char) :
    skipBlank (c :: cs) = c :: cs := by
  simp [skipBlank, solid]

theorem not_continues_of_blank {c : Char} (blank : isBlank c = true) :
    JsonNumber.continues c = false := by
  simp only [isBlank, Bool.or_eq_true, beq_iff_eq] at blank
  rcases blank with ((rfl | rfl) | rfl) | rfl <;> rfl

theorem stops_blank (blank : ∀ c ∈ ws, isBlank c = true) (stops : JsonNumber.Stops rest) :
    JsonNumber.Stops (ws ++ rest) := by
  cases ws with
  | nil => exact stops
  | cons c ws => exact not_continues_of_blank (blank c List.mem_cons_self)

theorem stops_writeItems (f : NumberText K) (l : Layout) (d : ℕ) (items : List (Json K))
    (rest : List Char) : JsonNumber.Stops (writeItems f l d items ++ rest) := by
  cases items with
  | nil =>
      rw [writeItems, List.append_assoc]
      exact stops_blank (l.blankNewline d) rfl
  | cons item items => exact (rfl : JsonNumber.continues ',' = false)

theorem stops_writeFields (f : NumberText K) (l : Layout) (d : ℕ) (fields : List (String × Json K))
    (rest : List Char) : JsonNumber.Stops (writeFields f l d fields ++ rest) := by
  cases fields with
  | nil =>
      rw [writeFields, List.append_assoc]
      exact stops_blank (l.blankNewline d) rfl
  | cons field fields => exact (rfl : JsonNumber.continues ',' = false)

/-- A character that can stand at the head of a value. -/
def Opens (c : Char) : Prop := isBlank c = false ∧ c ≠ ']' ∧ c ≠ '\x7d'

theorem opens_number {c : Char} (head : c = '-' ∨ c.isDigit = true) : Opens c := by
  rcases head with rfl | digit
  · exact ⟨rfl, by decide, by decide⟩
  · refine ⟨?_, ?_, ?_⟩
    · by_contra blank
      rw [Bool.not_eq_false] at blank
      have other := not_continues_of_blank blank
      simp [JsonNumber.continues, digit] at other
    · rintro rfl
      cases digit
    · rintro rfl
      cases digit

/-- A character that opens no text, no list and no dictionary. -/
def Plain (c : Char) : Prop := c ≠ '"' ∧ c ≠ '\x7b' ∧ c ≠ '['

theorem plain_number {c : Char} (head : c = '-' ∨ c.isDigit = true) : Plain c := by
  refine ⟨?_, ?_, ?_⟩
  · rintro rfl
    rcases head with same | digit
    · cases same
    · cases digit
  · rintro rfl
    rcases head with same | digit
    · cases same
    · cases digit
  · rintro rfl
    rcases head with same | digit
    · cases same
    · cases digit

theorem intText_head (n : ℤ) :
    ∃ c tail, JsonNumber.intText n = c :: tail ∧ Opens c ∧ Plain c := by
  obtain ⟨c, tail, head, starts⟩ := JsonNumber.readToken_head (JsonNumber.readToken_intText n)
  exact ⟨c, tail, head, opens_number starts, plain_number starts⟩

theorem repr_head (f : NumberText K) (x : K) :
    ∃ c tail, f.repr x = c :: tail ∧ Opens c ∧ Plain c := by
  rcases f.reads x with ⟨t, written, read, -, -⟩ | named
  · obtain ⟨c, tail, head, starts⟩ := JsonNumber.readToken_head read
    exact ⟨c, tail, written.trans head, opens_number starts, plain_number starts⟩
  · simp only [List.mem_cons, Prod.mk.injEq, List.not_mem_nil, or_false] at named
    rcases named with ⟨written, -⟩ | ⟨written, -⟩ | ⟨written, -⟩
    · exact ⟨'N', _, written, ⟨rfl, by decide, by decide⟩, by decide, by decide, by decide⟩
    · exact ⟨'I', _, written, ⟨rfl, by decide, by decide⟩, by decide, by decide, by decide⟩
    · exact ⟨'-', _, written, ⟨rfl, by decide, by decide⟩, by decide, by decide, by decide⟩

theorem writeValue_head (f : NumberText K) (l : Layout) (d : ℕ) (j : Json K) :
    ∃ c tail, writeValue f l d j = c :: tail ∧ Opens c := by
  cases j with
  | null => exact ⟨'n', _, rfl, rfl, by decide, by decide⟩
  | bool b =>
      cases b with
      | true => exact ⟨'t', _, rfl, rfl, by decide, by decide⟩
      | false => exact ⟨'f', _, rfl, rfl, by decide, by decide⟩
  | int n =>
      obtain ⟨c, tail, head, opens, -⟩ := intText_head n
      exact ⟨c, tail, head, opens⟩
  | num x =>
      obtain ⟨c, tail, head, opens, -⟩ := repr_head f x
      exact ⟨c, tail, head, opens⟩
  | str s => exact ⟨'"', _, rfl, rfl, by decide, by decide⟩
  | arr items =>
      cases items with
      | nil => exact ⟨'[', _, rfl, rfl, by decide, by decide⟩
      | cons item items => exact ⟨'[', _, rfl, rfl, by decide, by decide⟩
  | obj fields =>
      cases fields with
      | nil => exact ⟨'\x7b', _, rfl, rfl, by decide, by decide⟩
      | cons field fields => exact ⟨'\x7b', _, rfl, rfl, by decide, by decide⟩

theorem skipBlank_writeValue (f : NumberText K) (l : Layout) (d : ℕ) (j : Json K)
    (rest : List Char) :
    skipBlank (writeValue f l d j ++ rest) = writeValue f l d j ++ rest := by
  obtain ⟨c, tail, head, opens⟩ := writeValue_head f l d j
  rw [head, List.cons_append]
  exact skipBlank_cons opens.1 _

/-! #### Scalars -/

/-- No name of a constant starts with a number. -/
theorem readToken_constant (f : NumberText K) :
    ∀ e ∈ (constants f : List (List Char × Json K S)), ∀ rest,
      JsonNumber.readToken (e.1 ++ rest) = none := by
  simp only [constants, List.forall_mem_cons]
  exact ⟨fun _ => rfl, fun _ => rfl, fun _ => rfl, fun _ => rfl, fun _ => rfl, fun _ => rfl,
    List.forall_mem_nil _⟩

theorem readScalar_number {t : JsonNumber.Token} (read : JsonNumber.readToken cs = some (t, []))
    (stops : JsonNumber.Stops rest) : readScalar r (cs ++ rest) =
      if t.isInteger then
        (JsonNumber.readInt r.limits.digits t.whole).map fun n => (.int n, rest)
      else some (.num (r.numbers.float t.text), rest) := by
  have whole := JsonNumber.readToken_append stops read
  have none : (constants r.numbers).findSome? (fun e =>
      (JsonString.expect e.1 (cs ++ rest)).map fun rest => ((e.2 : Json K S), rest)) = none := by
    rw [List.findSome?_eq_none_iff]
    intro e among
    rw [Option.map_eq_none_iff]
    by_contra named
    obtain ⟨left, expected⟩ := Option.ne_none_iff_exists'.mp named
    rw [JsonString.eq_append_of_expect expected, readToken_constant r.numbers e among] at whole
    cases whole
  unfold readScalar readNumber
  rw [none, whole, Option.none_or]
  change (if t.isInteger then _ else _) = _
  split
  · exact (Option.map_eq_bind ..).symm
  · rfl

theorem readScalar_int {n : ℤ} (short : JsonNumber.shortEnough r.limits.digits
    (JsonNumber.intText n) = true) (stops : JsonNumber.Stops rest) :
    readScalar r (JsonNumber.intText n ++ rest) = some (.int n, rest) := by
  rw [readScalar_number (JsonNumber.readToken_intText n) stops]
  simp only [JsonNumber.Token.isInteger, List.isEmpty_nil, Bool.and_self, if_true,
    JsonNumber.readInt_intText short, Option.map_some]

theorem readScalar_repr (r : JsonReader K S) (x : K) (stops : JsonNumber.Stops rest) :
    readScalar r (r.numbers.repr x ++ rest) = some (.num x, rest) := by
  rcases r.numbers.reads x with ⟨t, written, read, float, value⟩ | named
  · rw [written, readScalar_number read stops, float, value]
    rfl
  · simp only [List.mem_cons, Prod.mk.injEq, List.not_mem_nil, or_false] at named
    rcases named with ⟨written, rfl⟩ | ⟨written, rfl⟩ | ⟨written, rfl⟩
    · rw [written]
      rfl
    · rw [written]
      rfl
    · rw [written]
      rfl

/-! #### Values -/

theorem readLiteral_written (r : JsonReader K S) (ascii : Bool) (s : String) (rest : List Char) :
    JsonString.readLiteral r.text (JsonString.literal ascii s ++ rest) = some (r.of s, rest) := by
  rw [JsonString.readLiteral_literal, r.reads, Option.map_some]

theorem expect_other {c d : Char} (other : d ≠ c) (cs : List Char) :
    JsonString.expect [d] (c :: cs) = none := if_neg other

theorem enter_of {inside : JsonLimits} (entered : r.limits.enter = some inside) :
    r.enter = some { r with limits := inside } := by
  rw [JsonReader.enter, entered, Option.map_some]

theorem dictSet_absent {κ α : Type} [DecidableEq κ] {d : List (κ × α)} {key : κ}
    (absent : key ∉ d.map Prod.fst) (value : α) : dictSet d key value = d ++ [(key, value)] := by
  unfold dictSet
  rw [if_neg]
  intro present
  obtain ⟨e, inside, same⟩ := List.any_eq_true.mp present
  exact absent (List.mem_map.mpr ⟨e, inside, beq_iff_eq.mp same⟩)

variable [DecidableEq S]

theorem readValue_scalar (cs : List Char) {c : Char} (plain : Plain c) :
    readValue r (n + 1) (c :: cs) = readScalar r (c :: cs) := by
  rw [readValue, if_neg plain.1, if_neg plain.2.1, if_neg plain.2.2]

theorem readValue_literal (r : JsonReader K S) (s : String) (rest : List Char) :
    readValue r (n + 1) (JsonString.literal true s ++ rest) = some (.str (r.of s), rest) := by
  have read := readLiteral_written r true s rest
  unfold JsonString.literal at read ⊢
  rw [List.cons_append] at read ⊢
  rw [readValue, if_pos rfl, read]
  rfl

/-- A list that is not empty. -/
theorem readValue_items {r' : JsonReader K S} (entered : r.enter = some r') {c : Char}
    {tail : List Char} (head : skipBlank cs = c :: tail) (opens : Opens c) :
    readValue r (n + 1) ('[' :: cs) = (readValue r' n (skipBlank cs)).bind fun p =>
      (readItems r' n p.2).bind fun q => some (.arr (p.1 :: q.1), q.2) := by
  have closing := expect_other opens.2.1.symm tail
  rw [readValue, if_neg (by decide), if_neg (by decide), if_pos rfl, entered, head,
    Option.bind_eq_bind, Option.bind_some, closing]
  rfl

theorem readValue_fields {r' : JsonReader K S} (entered : r.enter = some r') {tail : List Char}
    (head : skipBlank cs = '"' :: tail) : readValue r (n + 1) ('\x7b' :: cs) =
      (readField r'.text (readValue r' n) (skipBlank cs)).bind fun p =>
        (readFields r' n p.2).bind fun q => some (.obj (dictOf (p.1 :: q.1)), q.2) := by
  rw [readValue, if_neg (by decide), if_pos rfl, entered, head]
  rfl

theorem readValue_empty {r' : JsonReader K S} (entered : r.enter = some r') (rest : List Char) :
    readValue r (n + 1) ('[' :: ']' :: rest) = some (.arr [], rest) ∧
      readValue r (n + 1) ('\x7b' :: '\x7d' :: rest) = some (.obj [], rest) := by
  constructor
  · rw [readValue, if_neg (by decide), if_neg (by decide), if_pos rfl, entered]
    rfl
  · rw [readValue, if_neg (by decide), if_pos rfl, entered]
    rfl

omit [DecidableEq S] in
/-- A field reads back where its value does. -/
theorem readField_write (r : JsonReader K S) (key : String)
    {value : List Char → Option (Json K S × List Char)} {d : ℕ} {j : Json K} {j' : Json K S}
    (read : value (writeValue f l d j ++ rest) = some (j', rest)) :
    readField r.text value (JsonString.literal true key ++
      (':' :: ' ' :: (writeValue f l d j ++ rest))) = some ((r.of key, j'), rest) := by
  unfold readField
  rw [readLiteral_written]
  have blank : skipBlank (' ' :: (writeValue f l d j ++ rest)) = writeValue f l d j ++ rest :=
    skipBlank_writeValue f l d j rest
  simp only [Option.bind_eq_bind, Option.bind_some, skipBlank_cons (c := ':') rfl,
    JsonString.expect, if_true, blank, read]

/-- Pairs whose keys are distinct are a dictionary as they are. -/
theorem dictOf_of_nodup {pairs : List (S × Json K S)} (nodup : (pairs.map Prod.fst).Nodup) :
    dictOf pairs = pairs := by
  have through (d : List (S × Json K S)) (distinct : ((d ++ pairs).map Prod.fst).Nodup) :
      pairs.foldl (fun d e => dictSet d e.1 e.2) d = d ++ pairs := by
    clear nodup
    induction pairs generalizing d with
    | nil => exact (List.append_nil d).symm
    | cons e pairs ih =>
        have absent : e.1 ∉ d.map Prod.fst := by
          intro inside
          rw [List.map_append, List.nodup_append] at distinct
          exact distinct.2.2 e.1 inside e.1 List.mem_cons_self rfl
        rw [List.foldl_cons, dictSet_absent absent]
        rw [List.append_cons d e pairs] at distinct ⊢
        exact ih (d ++ [e]) distinct
  exact through [] nodup

/-- So are those that a reader makes of them. -/
theorem dictOf_mapFields {g : S' → S} (injective : Function.Injective g)
    {pairs : List (S' × Json K S')} (nodup : (pairs.map Prod.fst).Nodup) :
    dictOf (mapFields g pairs) = mapFields g pairs := by
  refine dictOf_of_nodup ?_
  rw [mapFields_eq, List.map_map]
  have keys := nodup.map injective
  rwa [List.map_map] at keys

mutual

/-- Whatever does not continue a number behind it, a value within the limits of the reader
reads back as it was written. -/
theorem readValue_write (r : JsonReader K S) (l : Layout) (d : ℕ) (j : Json K) (proper : j.Proper)
    (within : j.within r.limits = true) {n : ℕ} (bound : (writeValue r.numbers l d j).length ≤ n)
    {rest : List Char} (stops : JsonNumber.Stops rest) :
    readValue r n (writeValue r.numbers l d j ++ rest) = some (j.mapText r.of, rest) := by
  cases n with
  | zero =>
      obtain ⟨c, tail, head, -⟩ := writeValue_head r.numbers l d j
      rw [head] at bound
      cases bound
  | succ n =>
  cases j with
  | null => exact readValue_scalar _ ⟨by decide, by decide, by decide⟩
  | bool b =>
      cases b with
      | true => exact readValue_scalar _ ⟨by decide, by decide, by decide⟩
      | false => exact readValue_scalar _ ⟨by decide, by decide, by decide⟩
  | int m =>
      obtain ⟨c, tail, head, -, plain⟩ := intText_head m
      have read := readScalar_int (r := r) within stops
      rw [writeValue]
      rw [head] at read ⊢
      exact (readValue_scalar _ plain).trans read
  | num x =>
      obtain ⟨c, tail, head, -, plain⟩ := repr_head r.numbers x
      have read := readScalar_repr r x stops
      rw [writeValue]
      rw [head] at read ⊢
      exact (readValue_scalar _ plain).trans read
  | str s =>
      rw [writeValue]
      exact readValue_literal r s rest
  | arr items =>
      obtain ⟨inside, left, within⟩ := (Option.any_eq_true _ _).mp within
      have entered := enter_of left
      cases items with
      | nil => exact (readValue_empty entered rest).1
      | cons item items =>
          rw [itemsWithin, Bool.and_eq_true] at within
          simp only [writeValue, List.length_cons, List.length_append] at bound
          have short : (writeValue r.numbers l (d + 1) item).length ≤ n := by omega
          have shorter : (writeItems r.numbers l d items).length ≤ n := by omega
          have first := readValue_write { r with limits := inside } l (d + 1) item proper.1
            within.1 short (stops_writeItems r.numbers l d items rest)
          have others := readItems_write { r with limits := inside } l d items proper.2 within.2
            shorter rest
          obtain ⟨c, tail, head, opens⟩ := writeValue_head r.numbers l (d + 1) item
          have skipped : skipBlank (l.newline (d + 1) ++ (writeValue r.numbers l (d + 1) item ++
              (writeItems r.numbers l d items ++ rest))) =
                writeValue r.numbers l (d + 1) item ++
                  (writeItems r.numbers l d items ++ rest) := by
            rw [skipBlank_append (l.blankNewline _), skipBlank_writeValue]
          simp only [writeValue, List.cons_append, List.append_assoc]
          rw [readValue_items entered (skipped.trans (by rw [head, List.cons_append])) opens,
            skipped, first, Option.bind_some, others, Option.bind_some]
          rfl
  | obj fields =>
      obtain ⟨inside, left, within⟩ := (Option.any_eq_true _ _).mp within
      have entered := enter_of left
      cases fields with
      | nil => exact (readValue_empty entered rest).2
      | cons field fields =>
          obtain ⟨key, value⟩ := field
          rw [fieldsWithin, Bool.and_eq_true] at within
          simp only [writeValue, List.length_cons, List.length_append] at bound
          have short : (writeValue r.numbers l (d + 1) value).length ≤ n := by omega
          have shorter : (writeFields r.numbers l d fields).length ≤ n := by omega
          have first := readValue_write { r with limits := inside } l (d + 1) value proper.2.1
            within.1 short (stops_writeFields r.numbers l d fields rest)
          have others := readFields_write { r with limits := inside } l d fields proper.2.2 within.2
            shorter rest
          have field := readField_write { r with limits := inside } key first
          have skipped : skipBlank (l.newline (d + 1) ++ (JsonString.literal true key ++
              (':' :: ' ' :: (writeValue r.numbers l (d + 1) value ++
                (writeFields r.numbers l d fields ++ rest))))) =
                JsonString.literal true key ++ (':' :: ' ' ::
                  (writeValue r.numbers l (d + 1) value ++
                    (writeFields r.numbers l d fields ++ rest))) := by
            rw [skipBlank_append (l.blankNewline _)]
            exact skipBlank_cons rfl _
          have whole := dictOf_mapFields r.distinct proper.1
          simp only [writeValue, List.cons_append, List.append_assoc]
          rw [readValue_fields entered (skipped.trans rfl), skipped, field,
            Option.bind_some, others, Option.bind_some]
          exact congrArg (fun fields => some (Json.obj fields, rest)) whole

theorem readItems_write (r : JsonReader K S) (l : Layout) (d : ℕ) (items : List (Json K))
    (proper : ItemsProper items) (within : itemsWithin r.limits items = true) {n : ℕ}
    (bound : (writeItems r.numbers l d items).length ≤ n) (rest : List Char) :
    readItems r n (writeItems r.numbers l d items ++ rest) = some (mapItems r.of items, rest) := by
  cases items with
  | nil =>
      cases n with
      | zero => simp [writeItems] at bound
      | succ n =>
          rw [writeItems, List.append_assoc, readItems, skipBlank_append (l.blankNewline d)]
          rfl
  | cons item items =>
      cases n with
      | zero => cases bound
      | succ n =>
          rw [itemsWithin, Bool.and_eq_true] at within
          simp only [writeItems, List.length_cons, List.length_append] at bound
          have first := readValue_write r l (d + 1) item proper.1 within.1 (n := n) (by omega)
            (stops_writeItems r.numbers l d items rest)
          have others := readItems_write r l d items proper.2 within.2 (n := n) (by omega) rest
          simp only [writeItems, List.cons_append, List.append_assoc]
          rw [readItems, skipBlank_cons (c := ',') rfl]
          simp only [Char.reduceEq, if_false, if_true, skipBlank_append (l.blankComma _),
            skipBlank_writeValue, first, others, Option.bind_eq_bind, Option.bind_some, mapItems]

theorem readFields_write (r : JsonReader K S) (l : Layout) (d : ℕ) (fields : List (String × Json K))
    (proper : FieldsProper fields) (within : fieldsWithin r.limits fields = true) {n : ℕ}
    (bound : (writeFields r.numbers l d fields).length ≤ n) (rest : List Char) :
    readFields r n (writeFields r.numbers l d fields ++ rest) =
      some (mapFields r.of fields, rest) := by
  cases fields with
  | nil =>
      cases n with
      | zero => simp [writeFields] at bound
      | succ n =>
          rw [writeFields, List.append_assoc, readFields, skipBlank_append (l.blankNewline d)]
          rfl
  | cons field fields =>
      obtain ⟨key, value⟩ := field
      cases n with
      | zero => cases bound
      | succ n =>
          rw [fieldsWithin, Bool.and_eq_true] at within
          simp only [writeFields, List.length_cons, List.length_append] at bound
          have first := readValue_write r l (d + 1) value proper.1 within.1 (n := n) (by omega)
            (stops_writeFields r.numbers l d fields rest)
          have others := readFields_write r l d fields proper.2 within.2 (n := n) (by omega) rest
          have literal : skipBlank (JsonString.literal true key ++ (':' :: ' ' ::
              (writeValue r.numbers l (d + 1) value ++
                (writeFields r.numbers l d fields ++ rest)))) =
                JsonString.literal true key ++ (':' :: ' ' ::
                  (writeValue r.numbers l (d + 1) value ++
                    (writeFields r.numbers l d fields ++ rest))) :=
            skipBlank_cons rfl _
          simp only [writeFields, List.cons_append, List.append_assoc]
          rw [readFields, skipBlank_cons (c := ',') rfl]
          simp only [Char.reduceEq, if_false, if_true, skipBlank_append (l.blankComma _), literal,
            readField_write r key first, others, Option.bind_eq_bind, Option.bind_some, mapFields]

end

/-- A strict reader without limits reads every value back. -/
theorem readValue_strict (f : NumberText K) (l : Layout) (d : ℕ) (j : Json K) (proper : j.Proper)
    {n : ℕ} (bound : (writeValue f l d j).length ≤ n) {rest : List Char}
    (stops : JsonNumber.Stops rest) :
    readValue (.strict f) n (writeValue f l d j ++ rest) = some (j, rest) := by
  have read := readValue_write (.strict f) l d j proper (within_unlimited j) bound stops
  rwa [show j.mapText (JsonReader.strict f).of = j from mapText_id j] at read

/-! #### The compact layout stays on one line -/

theorem intText_printable (n : ℤ) : ∀ c ∈ JsonNumber.intText n, printable c = true := by
  have digit (c : Char) (inside : c ∈ Nat.toDigits 10 n.natAbs) : printable c = true := by
    have is := Nat.isDigit_of_mem_toDigits (by decide) (by decide) inside
    simp only [Char.isDigit, Bool.and_eq_true, decide_eq_true_eq] at is
    unfold printable
    rw [decide_eq_true, decide_eq_true]
    · rfl
    · exact lt_of_le_of_lt is.2 (by decide)
    · exact le_trans (by decide) is.1
  unfold JsonNumber.intText
  split
  · exact List.forall_mem_cons.mpr ⟨rfl, digit⟩
  · exact digit

def Printed (cs : List Char) : Prop := ∀ c ∈ cs, printable c = true

theorem printed_nil : Printed [] := List.forall_mem_nil _

theorem printed_cons {c : Char} : Printed (c :: cs) ↔ printable c = true ∧ Printed cs :=
  List.forall_mem_cons

theorem printed_append : Printed (cs ++ rest) ↔ Printed cs ∧ Printed rest :=
  List.forall_mem_append

mutual

theorem writeValue_printed (f : NumberText K) (d : ℕ) (j : Json K) :
    Printed (writeValue f .compact d j) := by
  cases j with
  | null => exact List.all_eq_true.mp rfl
  | bool b =>
      cases b with
      | true => exact List.all_eq_true.mp rfl
      | false => exact List.all_eq_true.mp rfl
  | int n => exact intText_printable n
  | num x => exact f.printed x
  | str s => exact JsonString.literal_printable s
  | arr items =>
      cases items with
      | nil => exact List.all_eq_true.mp rfl
      | cons item items =>
          rw [writeValue, printed_cons, printed_append, printed_append]
          exact ⟨rfl, printed_nil, writeValue_printed f (d + 1) item, writeItems_printed f d items⟩
  | obj fields =>
      cases fields with
      | nil => exact List.all_eq_true.mp rfl
      | cons field fields =>
          obtain ⟨key, value⟩ := field
          rw [writeValue, printed_cons, printed_append, printed_append, printed_cons, printed_cons,
            printed_append]
          exact ⟨rfl, printed_nil, JsonString.literal_printable key, rfl, rfl,
            writeValue_printed f (d + 1) value, writeFields_printed f d fields⟩

theorem writeItems_printed (f : NumberText K) (d : ℕ) (items : List (Json K)) :
    Printed (writeItems f .compact d items) := by
  cases items with
  | nil =>
      rw [writeItems, printed_append, printed_cons]
      exact ⟨printed_nil, rfl, printed_nil⟩
  | cons item items =>
      rw [writeItems, printed_cons, printed_append, printed_append]
      exact ⟨rfl, printed_cons.mpr ⟨rfl, printed_nil⟩, writeValue_printed f (d + 1) item,
        writeItems_printed f d items⟩

theorem writeFields_printed (f : NumberText K) (d : ℕ) (fields : List (String × Json K)) :
    Printed (writeFields f .compact d fields) := by
  cases fields with
  | nil =>
      rw [writeFields, printed_append, printed_cons]
      exact ⟨printed_nil, rfl, printed_nil⟩
  | cons field fields =>
      obtain ⟨key, value⟩ := field
      rw [writeFields, printed_cons, printed_append, printed_append, printed_cons, printed_cons,
        printed_append]
      exact ⟨rfl, printed_cons.mpr ⟨rfl, printed_nil⟩, JsonString.literal_printable key, rfl, rfl,
        writeValue_printed f (d + 1) value, writeFields_printed f d fields⟩

end

end reading

/-! ### The ends of a dictionary -/

theorem writeFields_last (f : NumberText K) (l : Layout) (d : ℕ)
    (fields : List (String × Json K)) :
    ∃ middle, writeFields f l d fields = middle ++ ['\x7d'] := by
  induction fields with
  | nil => exact ⟨l.newline d, rfl⟩
  | cons field fields ih =>
      obtain ⟨key, value⟩ := field
      obtain ⟨middle, rest⟩ := ih
      refine ⟨',' :: (l.comma (d + 1) ++ (JsonString.literal true key ++
        (':' :: ' ' :: (writeValue f l (d + 1) value ++ middle)))), ?_⟩
      rw [writeFields, rest]
      simp only [List.cons_append, List.append_assoc]

theorem writeValue_braces (f : NumberText K) (l : Layout) (d : ℕ) (fields : Dict K) :
    ∃ middle, writeValue f l d (.obj fields) = '\x7b' :: (middle ++ ['\x7d']) := by
  cases fields with
  | nil => exact ⟨[], rfl⟩
  | cons field fields =>
      obtain ⟨key, value⟩ := field
      obtain ⟨middle, rest⟩ := writeFields_last f l d fields
      refine ⟨l.newline (d + 1) ++ (JsonString.literal true key ++
        (':' :: ' ' :: (writeValue f l (d + 1) value ++ middle))), ?_⟩
      rw [writeValue, rest]
      simp only [List.cons_append, List.append_assoc]

/-! ### Whole texts -/

/-- What `json.dumps(value)` writes. -/
def dumps (f : NumberText K) (j : Json K) : String := String.ofList (writeValue f .compact 0 j)

/-- `json.loads(text)`, or another reader, where it takes the text. -/
def loads [DecidableEq S] (r : JsonReader K S) (text : String) : Option (Json K S) := do
  let (j, rest) ← readValue r text.toList.length (skipBlank text.toList)
  if (skipBlank rest).isEmpty then some j else none

theorem loads_write [DecidableEq S] (r : JsonReader K S) (l : Layout) {j : Json K}
    (proper : j.Proper) (within : j.within r.limits = true) :
    loads r (String.ofList (writeValue r.numbers l 0 j)) = some (j.mapText r.of) := by
  have head := skipBlank_writeValue r.numbers l 0 j []
  have stops : JsonNumber.Stops [] := trivial
  have read := readValue_write r l 0 j proper within le_rfl stops
  rw [List.append_nil] at head read
  unfold loads
  rw [String.toList_ofList, head, read]
  rfl

theorem loads_strict (f : NumberText K) (l : Layout) {j : Json K} (proper : j.Proper) :
    loads (.strict f) (String.ofList (writeValue f l 0 j)) = some j := by
  have read := loads_write (.strict f) l proper (within_unlimited j)
  rwa [show j.mapText (JsonReader.strict f).of = j from mapText_id j] at read

end Johnny
