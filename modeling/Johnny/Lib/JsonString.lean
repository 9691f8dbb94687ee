import Mathlib.Tactic.Common

/-!
# String literals of JSON

A writer escapes quotes, backslashes and control characters, and on request everything
beyond ASCII, with surrogate pairs beyond the basic plane. The reader takes the escapes
back, so that whatever was written reads back as it was. It reads code points, since an
escape may be half of a pair; whether that is a text is for its caller to say.
-/

namespace JsonString

/-! ### Hexadecimal digits -/

def hexDigit (n : ℕ) : Char := ("0123456789abcdef".toList[n]?).getD '0'

def hexValue (c : Char) : Option ℕ :=
  if '0' ≤ c ∧ c ≤ '9' then some (c.toNat - '0'.toNat)
  else if 'a' ≤ c ∧ c ≤ 'f' then some (c.toNat - 'a'.toNat + 10)
  else if 'A' ≤ c ∧ c ≤ 'F' then some (c.toNat - 'A'.toNat + 10)
  else none

theorem hexValue_hexDigit : ∀ n < 16, hexValue (hexDigit n) = some n := by decide

/-- Four digits, the most significant first. -/
def hex4 (n : ℕ) : List Char :=
  [hexDigit (n / 4096 % 16), hexDigit (n / 256 % 16), hexDigit (n / 16 % 16), hexDigit (n % 16)]

def readHex4 : List Char → Option (ℕ × List Char)
  | a :: b :: c :: d :: rest => do
    let a ← hexValue a
    let b ← hexValue b
    let c ← hexValue c
    let d ← hexValue d
    some (((a * 16 + b) * 16 + c) * 16 + d, rest)
  | _ => none

theorem readHex4_hex4 {n : ℕ} (small : n < 65536) (rest : List Char) :
    readHex4 (hex4 n ++ rest) = some (n, rest) := by
  have digit (m : ℕ) : hexValue (hexDigit (m % 16)) = some (m % 16) :=
    hexValue_hexDigit _ (Nat.mod_lt m (by omega))
  have whole : ((n / 4096 % 16 * 16 + n / 256 % 16) * 16 + n / 16 % 16) * 16 + n % 16 = n := by
    omega
  simp only [hex4, List.cons_append, List.nil_append, readHex4, digit, Option.bind_eq_bind,
    Option.bind_some, whole]

/-! ### One character -/

def unicode (n : ℕ) : List Char := '\\' :: 'u' :: hex4 n

/-- The escape of a character; with `ascii`, of every character beyond the printable ones. -/
def escape (ascii : Bool) (c : Char) : List Char :=
  if c = '"' then ['\\', '"']
  else if c = '\\' then ['\\', '\\']
  else if c = '\n' then ['\\', 'n']
  else if c = '\r' then ['\\', 'r']
  else if c = '\t' then ['\\', 't']
  else if c.toNat = 8 then ['\\', 'b']
  else if c.toNat = 12 then ['\\', 'f']
  else if c.toNat < 32 then unicode c.toNat
  else if ascii = true ∧ 126 < c.toNat then
    if c.toNat < 65536 then unicode c.toNat
    else unicode (0xd800 + (c.toNat - 65536) / 1024) ++ unicode (0xdc00 + (c.toNat - 65536) % 1024)
  else [c]

/-- A high surrogate with the low one of its pair, or by itself where none follows. -/
def readLow (high : ℕ) : List Char → ℕ × List Char
  | '\\' :: 'u' :: rest =>
    match readHex4 rest with
    | some (low, left) =>
      if 0xdc00 ≤ low ∧ low < 0xe000 then
        (65536 + (high - 0xd800) * 1024 + (low - 0xdc00), left)
      else (high, '\\' :: 'u' :: rest)
    | none => (high, '\\' :: 'u' :: rest)
  | rest => (high, rest)

/-- A code point by its number, or with a second escape by its pair of surrogates. -/
def readUnicode (cs : List Char) : Option (ℕ × List Char) :=
  (readHex4 cs).map fun p => if 0xd800 ≤ p.1 ∧ p.1 < 0xdc00 then readLow p.1 p.2 else p

/-- What the short escapes stand for. -/
def escapes : List (Char × Char) :=
  [('"', '"'), ('\\', '\\'), ('/', '/'), ('n', '\n'), ('r', '\r'), ('t', '\t'),
    ('b', Char.ofNat 8), ('f', Char.ofNat 12)]

def readEscape : List Char → Option (ℕ × List Char)
  | c :: rest =>
    if c = 'u' then readUnicode rest else (escapes.lookup c).map fun d => (d.toNat, rest)
  | [] => none

/-- The code point at the head of the inside of a literal, before its closing quote. -/
def readChar : List Char → Option (ℕ × List Char)
  | c :: rest =>
    if c = '\\' then readEscape rest
    else if c = '"' ∨ c.toNat < 32 then none
    else some (c.toNat, rest)
  | [] => none

theorem readChar_u {n : ℕ} (small : n < 65536) (rest : List Char) :
    readChar (unicode n ++ rest) =
      some (if 0xd800 ≤ n ∧ n < 0xdc00 then readLow n rest else (n, rest)) := by
  have unfolded : readChar (unicode n ++ rest) = (readHex4 (hex4 n ++ rest)).map fun p =>
      if 0xd800 ≤ p.1 ∧ p.1 < 0xdc00 then readLow p.1 p.2 else p := rfl
  rw [unfolded, readHex4_hex4 small, Option.map_some]

theorem readLow_u {high n : ℕ} (low : 0xdc00 ≤ n ∧ n < 0xe000) (rest : List Char) :
    readLow high (unicode n ++ rest) =
      (65536 + (high - 0xd800) * 1024 + (n - 0xdc00), rest) := by
  have read := readHex4_hex4 (n := n) (by omega) rest
  change (match readHex4 (hex4 n ++ rest) with
    | some (low, left) =>
      if 0xdc00 ≤ low ∧ low < 0xe000 then
        (65536 + (high - 0xd800) * 1024 + (low - 0xdc00), left)
      else (high, '\\' :: 'u' :: (hex4 n ++ rest))
    | none => (high, '\\' :: 'u' :: (hex4 n ++ rest))) = _
  rw [read]
  exact if_pos low

theorem readChar_unicode {n : ℕ} (small : n < 65536) (plain : n < 0xd800 ∨ 0xe000 ≤ n)
    (rest : List Char) : readChar (unicode n ++ rest) = some (n, rest) := by
  rw [readChar_u small, if_neg (by omega)]

theorem readChar_pair {n : ℕ} (astral : 65536 ≤ n) (valid : n < 1114112) (rest : List Char) :
    readChar (unicode (0xd800 + (n - 65536) / 1024) ++
      unicode (0xdc00 + (n - 65536) % 1024) ++ rest) = some (n, rest) := by
  have whole : 65536 + (0xd800 + (n - 65536) / 1024 - 0xd800) * 1024 +
      (0xdc00 + (n - 65536) % 1024 - 0xdc00) = n := by omega
  rw [List.append_assoc, readChar_u (by omega), if_pos (by omega), readLow_u (by omega), whole]

theorem readChar_raw {c : Char} (quote : c ≠ '"') (backslash : c ≠ '\\') (printed : 32 ≤ c.toNat)
    (rest : List Char) : readChar (c :: rest) = some (c.toNat, rest) := by
  have accepted : ¬ (c = '"' ∨ c.toNat < 32) := by
    rintro (same | small)
    · exact quote same
    · omega
  exact (if_neg backslash).trans (if_neg accepted)

/-- Whatever stands behind it, an escaped character reads back as it was. -/
theorem readChar_escape (ascii : Bool) (c : Char) (rest : List Char) :
    readChar (escape ascii c ++ rest) = some (c.toNat, rest) := by
  have named (n : ℕ) (same : c.toNat = n) : Char.ofNat n = c := by
    rw [← same]
    exact Char.ofNat_toNat c
  have scalar : c.toNat < 0xd800 ∨ (0xe000 ≤ c.toNat ∧ c.toNat < 1114112) := by
    rcases c.valid with low | ⟨above, below⟩
    · exact .inl low
    · exact .inr ⟨above, below⟩
  unfold escape
  by_cases quote : c = '"'
  · subst quote
    rfl
  by_cases backslash : c = '\\'
  · subst backslash
    rfl
  by_cases newline : c = '\n'
  · subst newline
    rfl
  by_cases carriage : c = '\r'
  · subst carriage
    rfl
  by_cases tab : c = '\t'
  · subst tab
    rfl
  rw [if_neg quote, if_neg backslash, if_neg newline, if_neg carriage, if_neg tab]
  by_cases backspace : c.toNat = 8
  · rw [if_pos backspace, ← named 8 backspace]
    rfl
  by_cases feed : c.toNat = 12
  · rw [if_neg backspace, if_pos feed, ← named 12 feed]
    rfl
  rw [if_neg backspace, if_neg feed]
  by_cases control : c.toNat < 32
  · rw [if_pos control, readChar_unicode (by omega) (by omega)]
  rw [if_neg control]
  by_cases beyond : ascii = true ∧ 126 < c.toNat
  · rw [if_pos beyond]
    by_cases plane : c.toNat < 65536
    · rw [if_pos plane, readChar_unicode plane (by omega)]
    · rw [if_neg plane, readChar_pair (by omega) (by omega)]
  · rw [if_neg beyond]
    exact readChar_raw quote backslash (by omega) rest

/-! ### Literals -/

/-- The literal without its opening quote. -/
def body (ascii : Bool) (s : List Char) : List Char := s.flatMap (escape ascii) ++ ['"']

def literal (ascii : Bool) (s : String) : List Char := '"' :: body ascii s.toList

/-- The rest of a literal whose opening quote was read, with a bound on its characters. -/
def readBody : ℕ → List Char → Option (List ℕ × List Char)
  | n + 1, c :: cs =>
    if c = '"' then some ([], cs)
    else do
      let (d, rest) ← readChar (c :: cs)
      let (s, rest) ← readBody n rest
      some (d :: s, rest)
  | _, _ => none

/-- An escape starts with no quote, since it reads back. -/
theorem escape_head (ascii : Bool) (c : Char) :
    ∃ d tail, escape ascii c = d :: tail ∧ d ≠ '"' := by
  have read := readChar_escape ascii c []
  cases head : escape ascii c with
  | nil =>
      rw [head] at read
      cases read
  | cons d tail =>
      refine ⟨d, tail, rfl, ?_⟩
      rintro rfl
      have closed : readChar ('"' :: (tail ++ [])) = none := rfl
      rw [head, List.cons_append, closed] at read
      cases read

theorem readBody_body (ascii : Bool) {n : ℕ} {s : List Char} (bound : s.length < n)
    (rest : List Char) : readBody n (body ascii s ++ rest) = some (s.map Char.toNat, rest) := by
  induction s generalizing n with
  | nil =>
      cases n with
      | zero => cases bound
      | succ n => rfl
  | cons c s ih =>
      cases n with
      | zero => cases bound
      | succ n =>
          have inner := ih (n := n) (Nat.lt_of_succ_lt_succ bound)
          have split : body ascii (c :: s) ++ rest =
              escape ascii c ++ (body ascii s ++ rest) := by
            simp only [body, List.flatMap_cons, List.append_assoc]
          obtain ⟨d, tail, head, other⟩ := escape_head ascii c
          have read := readChar_escape ascii c (body ascii s ++ rest)
          rw [split]
          rw [head, List.cons_append] at read ⊢
          unfold readBody
          rw [if_neg other, read]
          simp only [Option.bind_eq_bind, Option.bind_some, inner, List.map_cons]

theorem length_le_body (ascii : Bool) (s : List Char) : s.length < (body ascii s).length := by
  induction s with
  | nil => exact Nat.one_pos
  | cons c s ih =>
      obtain ⟨d, tail, head, -⟩ := escape_head ascii c
      simp only [body, List.flatMap_cons, head, List.length_append, List.length_cons] at ih ⊢
      omega

/-- A literal, by what `text` makes of its code points. -/
def readLiteral {S : Type} (text : List ℕ → Option S) : List Char → Option (S × List Char)
  | c :: cs =>
    if c = '"' then (readBody cs.length cs).bind fun p => (text p.1).map fun s => (s, p.2) else none
  | [] => none

/-- Every string reads back from its literal, whatever stands behind it. -/
theorem readLiteral_literal {S : Type} (text : List ℕ → Option S) (ascii : Bool) (s : String)
    (rest : List Char) : readLiteral text (literal ascii s ++ rest) =
      (text (s.toList.map Char.toNat)).map fun v => (v, rest) := by
  have bound : s.toList.length < (body ascii s.toList ++ rest).length := by
    have shorter := length_le_body ascii s.toList
    rw [List.length_append]
    omega
  have read := readBody_body ascii bound rest
  change (readBody (body ascii s.toList ++ rest).length (body ascii s.toList ++ rest)).bind _ = _
  rw [read, Option.bind_some]

/-! ### Texts without surrogates -/

/-- The character of a code point; a surrogate is none. -/
def scalar (n : ℕ) : Option Char := if n.isValidChar then some (Char.ofNat n) else none

/-- The string of code points none of which is a surrogate. -/
def scalars (ns : List ℕ) : Option String := (ns.mapM scalar).map String.ofList

theorem scalar_toNat (c : Char) : scalar c.toNat = some c := by
  have valid : c.toNat.isValidChar := c.valid
  unfold scalar
  rw [if_pos valid, Char.ofNat_toNat]

theorem scalars_toNat (s : String) : scalars (s.toList.map Char.toNat) = some s := by
  have each (cs : List Char) : (cs.map Char.toNat).mapM scalar = some cs := by
    induction cs with
    | nil => rfl
    | cons c cs ih =>
        rw [List.map_cons, List.mapM_cons, scalar_toNat, ih]
        rfl
  unfold scalars
  rw [each, Option.map_some, String.ofList_toList]

/-! ### Printable characters -/

/-- The characters of ASCII that stand for themselves. -/
def printable (c : Char) : Bool := decide (32 ≤ c.toNat) && decide (c.toNat < 127)

theorem hexDigit_printable (n : ℕ) : printable (hexDigit n) = true := by
  have digit : ∀ n < 16, printable (hexDigit n) = true := by decide
  by_cases small : n < 16
  · exact digit n small
  · have beyond : "0123456789abcdef".toList[n]? = none :=
      List.getElem?_eq_none (Nat.le_of_not_lt small)
    unfold hexDigit
    rw [beyond]
    rfl

theorem unicode_printable (n : ℕ) : ∀ c ∈ unicode n, printable c = true := by
  simp only [unicode, hex4, List.forall_mem_cons, hexDigit_printable, true_and]
  exact ⟨rfl, rfl, List.forall_mem_nil _⟩

theorem ite_printable {p : Prop} [Decidable p] {cs ds : List Char}
    (first : p → ∀ c ∈ cs, printable c = true) (second : ¬ p → ∀ c ∈ ds, printable c = true) :
    ∀ c ∈ if p then cs else ds, printable c = true := by
  by_cases holds : p
  · rw [if_pos holds]
    exact first holds
  · rw [if_neg holds]
    exact second holds

/-- With everything beyond ASCII escaped, an escape is printable. -/
theorem escape_printable (c : Char) : ∀ d ∈ escape true c, printable d = true := by
  have pair (d : Char) (printed : printable d = true) : ∀ e ∈ ['\\', d], printable e = true :=
    List.forall_mem_cons.mpr ⟨rfl, List.forall_mem_singleton.mpr printed⟩
  refine ite_printable (fun _ => pair _ rfl) fun _ => ?_
  refine ite_printable (fun _ => pair _ rfl) fun _ => ?_
  refine ite_printable (fun _ => pair _ rfl) fun _ => ?_
  refine ite_printable (fun _ => pair _ rfl) fun _ => ?_
  refine ite_printable (fun _ => pair _ rfl) fun _ => ?_
  refine ite_printable (fun _ => pair _ rfl) fun _ => ?_
  refine ite_printable (fun _ => pair _ rfl) fun _ => ?_
  refine ite_printable (fun _ => unicode_printable _) fun control => ?_
  refine ite_printable (fun _ => ?_) fun within => ?_
  · exact ite_printable (fun _ => unicode_printable _) fun _ =>
      List.forall_mem_append.mpr ⟨unicode_printable _, unicode_printable _⟩
  · intro d inside
    have ascii : ¬ 126 < c.toNat := fun beyond => within ⟨rfl, beyond⟩
    rw [List.mem_singleton.mp inside]
    unfold printable
    rw [decide_eq_true (Nat.le_of_not_lt control), decide_eq_true (by omega)]
    rfl

theorem literal_printable (s : String) : ∀ c ∈ literal true s, printable c = true := by
  refine List.forall_mem_cons.mpr ⟨rfl, List.forall_mem_append.mpr ⟨?_, ?_⟩⟩
  · intro c inside
    obtain ⟨d, -, escaped⟩ := List.mem_flatMap.mp inside
    exact escape_printable d c escaped
  · exact List.forall_mem_singleton.mpr rfl

/-! ### Fixed text between literals -/

/-- The rest, where the text starts with these characters. -/
def expect : List Char → List Char → Option (List Char)
  | [], cs => some cs
  | k :: ks, c :: cs => if k = c then expect ks cs else none
  | _ :: _, [] => none

theorem expect_append (key rest : List Char) : expect key (key ++ rest) = some rest := by
  induction key with
  | nil => rfl
  | cons k key ih => exact (if_pos rfl).trans ih

theorem eq_append_of_expect {key cs rest : List Char} (read : expect key cs = some rest) :
    cs = key ++ rest := by
  induction key generalizing cs with
  | nil => exact Option.some.inj read
  | cons k key ih =>
      cases cs with
      | nil => cases read
      | cons c cs =>
          by_cases same : k = c
          · subst same
            rw [List.cons_append, ← ih ((if_pos rfl).symm.trans read)]
          · cases (if_neg same).symm.trans read

end JsonString
