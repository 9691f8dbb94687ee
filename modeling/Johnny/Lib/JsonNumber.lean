import Mathlib.Data.List.TakeWhile
import Mathlib.Tactic.IntervalCases

/-!
# Numbers of JSON

A number has an integer part, and may have a fraction and an exponent; without these it is
an integer. The reader takes the longest number at the head of a text, and takes the same
one whatever follows, if that does not continue it.
-/

namespace JsonNumber

/-- The parts of a number, as they are written. -/
structure Token where
  whole : List Char
  fraction : List Char := []
  exponent : List Char := []

namespace Token

def text (t : Token) : List Char := t.whole ++ t.fraction ++ t.exponent

def isInteger (t : Token) : Bool := t.fraction.isEmpty && t.exponent.isEmpty

end Token

/-! ### The reader -/

/-- `0|[1-9][0-9]*`. -/
def readNatural : List Char → Option (List Char × List Char)
  | [] => none
  | c :: cs =>
    if c = '0' then some (['0'], cs)
    else if c.isDigit then some (c :: cs.takeWhile Char.isDigit, cs.dropWhile Char.isDigit)
    else none

/-- `-?(?:0|[1-9][0-9]*)`. -/
def readInteger : List Char → Option (List Char × List Char)
  | [] => none
  | c :: cs =>
    if c = '-' then (readNatural cs).map fun p => ('-' :: p.1, p.2) else readNatural (c :: cs)

/-- `(\.[0-9]+)?`. -/
def readFraction : List Char → List Char × List Char
  | [] => ([], [])
  | c :: cs =>
    if c = '.' ∧ cs.takeWhile Char.isDigit ≠ [] then
      (c :: cs.takeWhile Char.isDigit, cs.dropWhile Char.isDigit)
    else ([], c :: cs)

/-- `[-+]?`. -/
def readSign : List Char → List Char × List Char
  | [] => ([], [])
  | c :: cs => if c = '-' ∨ c = '+' then ([c], cs) else ([], c :: cs)

/-- `([eE][-+]?[0-9]+)?`. -/
def readExponent : List Char → List Char × List Char
  | [] => ([], [])
  | c :: cs =>
    let signed := readSign cs
    if (c = 'e' ∨ c = 'E') ∧ signed.2.takeWhile Char.isDigit ≠ [] then
      (c :: (signed.1 ++ signed.2.takeWhile Char.isDigit), signed.2.dropWhile Char.isDigit)
    else ([], c :: cs)

def readToken (cs : List Char) : Option (Token × List Char) :=
  (readInteger cs).map fun whole =>
    let fraction := readFraction whole.2
    let exponent := readExponent fraction.2
    (⟨whole.1, fraction.1, exponent.1⟩, exponent.2)

/-! ### What follows a number -/

def continues (c : Char) : Bool :=
  c.isDigit || c == '.' || c == 'e' || c == 'E' || c == '-' || c == '+'

/-- The text does not go on with a character of a number. -/
def Stops : List Char → Prop
  | [] => True
  | c :: _ => continues c = false

section stops
variable {rest cs left : List Char}

theorem Stops.takeWhile (stops : Stops rest) : rest.takeWhile Char.isDigit = [] := by
  cases rest with
  | nil => rfl
  | cons c rest =>
      have other : c.isDigit = false := by
        simp only [Stops, continues, Bool.or_eq_false_iff] at stops
        exact stops.1.1.1.1.1
      simp [other]

theorem Stops.dropWhile (stops : Stops rest) : rest.dropWhile Char.isDigit = rest := by
  have whole := List.takeWhile_append_dropWhile (p := Char.isDigit) (l := rest)
  rwa [stops.takeWhile] at whole

theorem takeWhile_append (stops : Stops rest) (cs : List Char) :
    (cs ++ rest).takeWhile Char.isDigit = cs.takeWhile Char.isDigit := by
  induction cs with
  | nil => exact stops.takeWhile
  | cons c cs ih =>
      rw [List.cons_append, List.takeWhile_cons, List.takeWhile_cons, ih]

theorem dropWhile_append (stops : Stops rest) (cs : List Char) :
    (cs ++ rest).dropWhile Char.isDigit = cs.dropWhile Char.isDigit ++ rest := by
  induction cs with
  | nil => exact stops.dropWhile
  | cons c cs ih =>
      rw [List.cons_append, List.dropWhile_cons, List.dropWhile_cons, ih]
      split
      · rfl
      · rfl

theorem readNatural_append (stops : Stops rest) {digits : List Char}
    (read : readNatural cs = some (digits, left)) :
    readNatural (cs ++ rest) = some (digits, left ++ rest) := by
  cases cs with
  | nil => cases read
  | cons c cs =>
      simp only [List.cons_append, readNatural, takeWhile_append stops,
        dropWhile_append stops] at read ⊢
      split_ifs at read ⊢
      · cases read
        rfl
      · cases read
        rfl

theorem readInteger_append (stops : Stops rest) {whole : List Char}
    (read : readInteger cs = some (whole, left)) :
    readInteger (cs ++ rest) = some (whole, left ++ rest) := by
  cases cs with
  | nil => cases read
  | cons c cs =>
      simp only [List.cons_append, readInteger] at read ⊢
      split_ifs at read ⊢ with minus
      · obtain ⟨p, natural, same⟩ := Option.map_eq_some_iff.mp read
        cases same
        rw [readNatural_append stops natural, Option.map_some]
      · exact readNatural_append stops read

theorem readFraction_append (stops : Stops rest) (cs : List Char) :
    readFraction (cs ++ rest) = ((readFraction cs).1, (readFraction cs).2 ++ rest) := by
  cases cs with
  | nil =>
      cases rest with
      | nil => rfl
      | cons c rest =>
          have other : c ≠ '.' := by
            rintro rfl
            cases stops
          simp [readFraction, other]
  | cons c cs =>
      simp only [List.cons_append, readFraction, takeWhile_append stops, dropWhile_append stops]
      split
      · rfl
      · rfl

theorem readSign_append (stops : Stops rest) (cs : List Char) :
    readSign (cs ++ rest) = ((readSign cs).1, (readSign cs).2 ++ rest) := by
  cases cs with
  | nil =>
      cases rest with
      | nil => rfl
      | cons c rest =>
          have other : ¬ (c = '-' ∨ c = '+') := by
            rintro (rfl | rfl)
            · cases stops
            · cases stops
          simp [readSign, other]
  | cons c cs =>
      simp only [List.cons_append, readSign]
      split
      · rfl
      · rfl

theorem readExponent_append (stops : Stops rest) (cs : List Char) :
    readExponent (cs ++ rest) = ((readExponent cs).1, (readExponent cs).2 ++ rest) := by
  cases cs with
  | nil =>
      cases rest with
      | nil => rfl
      | cons c rest =>
          have other : ¬ (c = 'e' ∨ c = 'E') := by
            rintro (rfl | rfl)
            · cases stops
            · cases stops
          simp [readExponent, other]
  | cons c cs =>
      simp only [List.cons_append, readExponent, readSign_append stops, takeWhile_append stops,
        dropWhile_append stops]
      split
      · rfl
      · rfl

/-- A number is read as it is whatever follows it, if that does not continue it. -/
theorem readToken_append (stops : Stops rest) {t : Token} (read : readToken cs = some (t, left)) :
    readToken (cs ++ rest) = some (t, left ++ rest) := by
  obtain ⟨⟨whole, after⟩, integer, same⟩ := Option.map_eq_some_iff.mp read
  cases same
  unfold readToken
  rw [readInteger_append stops integer, Option.map_some]
  dsimp only
  rw [readFraction_append stops, readExponent_append stops]

end stops

/-! ### Integers -/

/-- `str(n)`. -/
def intText (n : ℤ) : List Char :=
  if n < 0 then '-' :: Nat.toDigits 10 n.natAbs else Nat.toDigits 10 n.natAbs

/-- The value of the integer part of a number. -/
def intValue : List Char → ℤ
  | [] => 0
  | c :: cs =>
    if c = '-' then -(Nat.ofDigitChars 10 cs 0 : ℤ) else (Nat.ofDigitChars 10 (c :: cs) 0 : ℤ)

/-- No more digits than the limit, where there is one. -/
def shortEnough (limit : Option ℕ) (whole : List Char) : Bool :=
  limit.all fun most => decide ((whole.filter Char.isDigit).length ≤ most)

/-- `int(text)`, for the integer part of a number. -/
def readInt (limit : Option ℕ) (whole : List Char) : Option ℤ :=
  if shortEnough limit whole then some (intValue whole) else none

theorem digit_ne_minus {c : Char} (digit : c.isDigit = true) : c ≠ '-' := by
  rintro rfl
  cases digit

/-- No number but zero starts with a zero. -/
theorem toDigits_head {n : ℕ} (positive : 0 < n) :
    ∃ c cs, Nat.toDigits 10 n = c :: cs ∧ c ≠ '0' := by
  induction n using Nat.strong_induction_on with
  | _ n ih =>
      by_cases small : n < 10
      · refine ⟨n.digitChar, [], Nat.toDigits_of_lt_base small, ?_⟩
        interval_cases n <;> decide
      · obtain ⟨c, cs, head, other⟩ := ih (n / 10) (by omega) (by omega)
        refine ⟨c, cs ++ [(n % 10).digitChar], ?_, other⟩
        rw [Nat.toDigits_of_base_le (by omega) (by omega), head, List.cons_append]

theorem readNatural_toDigits (n : ℕ) :
    readNatural (Nat.toDigits 10 n) = some (Nat.toDigits 10 n, []) := by
  rcases Nat.eq_zero_or_pos n with rfl | positive
  · rfl
  · obtain ⟨c, cs, head, other⟩ := toDigits_head positive
    have digits : ∀ d ∈ c :: cs, d.isDigit = true := fun d inside =>
      Nat.isDigit_of_mem_toDigits (by decide) (by decide) (head ▸ inside)
    have tail : ∀ d ∈ cs, d.isDigit = true := fun d inside =>
      digits d (List.mem_cons_of_mem c inside)
    rw [head]
    simp only [readNatural, if_neg other, digits c List.mem_cons_self, if_true]
    rw [List.takeWhile_eq_self_iff.mpr tail, List.dropWhile_eq_nil_iff.mpr tail]

theorem toDigits_cons (n : ℕ) :
    ∃ c cs, Nat.toDigits 10 n = c :: cs ∧ c.isDigit = true := by
  cases head : Nat.toDigits 10 n with
  | nil => exact absurd head Nat.toDigits_ne_nil
  | cons c cs =>
      refine ⟨c, cs, rfl, Nat.isDigit_of_mem_toDigits (b := 10) (n := n) (by decide) (by decide) ?_⟩
      rw [head]
      exact List.mem_cons_self

theorem readInteger_intText (n : ℤ) : readInteger (intText n) = some (intText n, []) := by
  unfold intText
  split
  · simp only [readInteger, if_true, readNatural_toDigits, Option.map_some]
  · obtain ⟨c, cs, head, digit⟩ := toDigits_cons n.natAbs
    have natural := readNatural_toDigits n.natAbs
    rw [head] at natural ⊢
    simp only [readInteger, if_neg (digit_ne_minus digit), natural]

theorem readToken_intText (n : ℤ) : readToken (intText n) = some (⟨intText n, [], []⟩, []) := by
  unfold readToken
  rw [readInteger_intText, Option.map_some]
  rfl

theorem intValue_intText (n : ℤ) : intValue (intText n) = n := by
  unfold intText
  split
  · simp only [intValue, if_true, Nat.ofDigitChars_ten_toDigits]
    omega
  · obtain ⟨c, cs, head, digit⟩ := toDigits_cons n.natAbs
    have value := Nat.ofDigitChars_ten_toDigits (n := n.natAbs)
    rw [head] at value ⊢
    simp only [intValue, if_neg (digit_ne_minus digit), value]
    omega

theorem readInt_intText {limit : Option ℕ} {n : ℤ} (short : shortEnough limit (intText n) = true) :
    readInt limit (intText n) = some n := by
  rw [readInt, if_pos short, intValue_intText]

/-- A number starts with a minus or a digit. -/
theorem readToken_head {cs left : List Char} {t : Token} (read : readToken cs = some (t, left)) :
    ∃ c tail, cs = c :: tail ∧ (c = '-' ∨ c.isDigit = true) := by
  obtain ⟨⟨whole, after⟩, integer, -⟩ := Option.map_eq_some_iff.mp read
  cases cs with
  | nil => cases integer
  | cons c tail =>
      refine ⟨c, tail, rfl, ?_⟩
      simp only [readInteger] at integer
      split_ifs at integer with minus
      · exact .inl minus
      · right
        simp only [readNatural] at integer
        split_ifs at integer with zero digit
        · rw [zero]
          rfl
        · exact digit

end JsonNumber
