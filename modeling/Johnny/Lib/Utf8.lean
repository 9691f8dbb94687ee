import Mathlib.Tactic.Common

/-!
# UTF-8 read with replacements

The decoder takes one byte at a time. The longest start of a character that is not finished is
shown as one replacement character, and reading goes on with the byte that broke it.
-/

namespace Utf8

/-- What stands for bytes that are no character. -/
def replacement : Char := Char.ofNat 0xFFFD

/-- Between characters, or in one, with the next byte from `low` to `high` and `owed` more after
it. No byte of a character but the first is ASCII. -/
inductive State where
  | start
  | within (owed bits low high : ℕ) (beyond : 0x80 ≤ low)

/-- The first byte of a character. -/
def first (n : ℕ) : List Char × State :=
  if n < 0x80 then ([Char.ofNat n], .start)
  else if 0xC2 ≤ n ∧ n < 0xE0 then ([], .within 0 (n - 0xC0) 0x80 0xBF (by decide))
  else if n = 0xE0 then ([], .within 1 0 0xA0 0xBF (by decide))
  else if n = 0xED then ([], .within 1 0xD 0x80 0x9F (by decide))
  else if 0xE1 ≤ n ∧ n < 0xF0 then ([], .within 1 (n - 0xE0) 0x80 0xBF (by decide))
  else if n = 0xF0 then ([], .within 2 0 0x90 0xBF (by decide))
  else if n = 0xF4 then ([], .within 2 4 0x80 0x8F (by decide))
  else if 0xF1 ≤ n ∧ n < 0xF4 then ([], .within 2 (n - 0xF0) 0x80 0xBF (by decide))
  else ([replacement], .start)

/-- One byte: the characters it completes, and the state after it. -/
def step : State → ℕ → List Char × State
  | .start, n => first n
  | .within owed bits low high _, n =>
    if low ≤ n ∧ n ≤ high then
      match owed with
      | 0 => ([Char.ofNat (bits * 64 + (n - 0x80))], .start)
      | owed + 1 => ([], .within owed (bits * 64 + (n - 0x80)) 0x80 0xBF (by decide))
    else (replacement :: (first n).1, (first n).2)

def decodeFrom : State → List UInt8 → List Char
  | .start, [] => []
  | .within _ _ _ _ _, [] => [replacement]
  | s, b :: bs => (step s b.toNat).1 ++ decodeFrom (step s b.toNat).2 bs

/-- `bytes.decode("utf-8", "replace")`. -/
def decode (bytes : List UInt8) : List Char := decodeFrom .start bytes

def encodeChar (c : Char) : List UInt8 :=
  let n := c.toNat
  if n < 0x80 then [UInt8.ofNat n]
  else if n < 0x800 then [UInt8.ofNat (0xC0 + n / 64), UInt8.ofNat (0x80 + n % 64)]
  else if n < 0x10000 then
    [UInt8.ofNat (0xE0 + n / 4096), UInt8.ofNat (0x80 + n / 64 % 64), UInt8.ofNat (0x80 + n % 64)]
  else
    [UInt8.ofNat (0xF0 + n / 262144), UInt8.ofNat (0x80 + n / 4096 % 64),
      UInt8.ofNat (0x80 + n / 64 % 64), UInt8.ofNat (0x80 + n % 64)]

/-- `text.encode("utf-8")`. -/
def encode (text : List Char) : List UInt8 := text.flatMap encodeChar

/-! ### What is encoded reads back -/

theorem decodeFrom_cons (s : State) (b : UInt8) (bs : List UInt8) :
    decodeFrom s (b :: bs) = (step s b.toNat).1 ++ decodeFrom (step s b.toNat).2 bs := by
  cases s <;> rfl

theorem toNat_ofNat_of_lt {n : ℕ} (small : n < 256) : (UInt8.ofNat n).toNat = n :=
  UInt8.toNat_ofNat_of_lt' small

theorem valid_toNat (c : Char) : c.toNat < 0xD800 ∨ 0xDFFF < c.toNat ∧ c.toNat < 0x110000 := c.valid

theorem step_last {bits low high n : ℕ} (beyond : 0x80 ≤ low) (lower : low ≤ n) (upper : n ≤ high) :
    step (.within 0 bits low high beyond) n =
      ([Char.ofNat (bits * 64 + (n - 0x80))], .start) :=
  if_pos ⟨lower, upper⟩

theorem step_more {owed bits low high n : ℕ} (beyond : 0x80 ≤ low) (lower : low ≤ n)
    (upper : n ≤ high) : step (.within (owed + 1) bits low high beyond) n =
      ([], .within owed (bits * 64 + (n - 0x80)) 0x80 0xBF (by decide)) :=
  if_pos ⟨lower, upper⟩

theorem step_outside {owed bits low high n : ℕ} (beyond : 0x80 ≤ low)
    (outside : ¬ (low ≤ n ∧ n ≤ high)) : step (.within owed bits low high beyond) n =
      (replacement :: (first n).1, (first n).2) := by
  cases owed <;> exact if_neg outside

/-- The two bytes that end a character of three or four. -/
theorem decodeFrom_two {bits low high m : ℕ} (beyond : 0x80 ≤ low) (lower : low ≤ 0x80 + m / 64 % 64)
    (upper : 0x80 + m / 64 % 64 ≤ high) (rest : List UInt8) :
    decodeFrom (.within 1 bits low high beyond)
        (UInt8.ofNat (0x80 + m / 64 % 64) :: UInt8.ofNat (0x80 + m % 64) :: rest) =
      Char.ofNat ((bits * 64 + m / 64 % 64) * 64 + m % 64) :: decodeFrom .start rest := by
  rw [decodeFrom_cons, decodeFrom_cons, toNat_ofNat_of_lt (by omega), toNat_ofNat_of_lt (by omega),
    step_more beyond lower upper, step_last _ (by omega) (by omega)]
  simp only [Nat.add_sub_cancel_left, List.nil_append, List.singleton_append]

/-- A character reads back, whatever stands behind it. -/
theorem decodeFrom_encodeChar (c : Char) (rest : List UInt8) :
    decodeFrom .start (encodeChar c ++ rest) = c :: decodeFrom .start rest := by
  have valid := valid_toNat c
  have back {n : ℕ} (same : n = c.toNat) : Char.ofNat n = c := by
    rw [same, Char.ofNat_toNat]
  unfold encodeChar
  dsimp only
  split
  · next one =>
      rw [List.cons_append, decodeFrom_cons, toNat_ofNat_of_lt (by omega), step, first, if_pos one,
        back rfl]
      rfl
  split
  · next more two =>
      have opens : first (0xC0 + c.toNat / 64) =
          ([], .within 0 (c.toNat / 64) 0x80 0xBF (by decide)) := by
        rw [first, if_neg (by omega), if_pos (by omega)]
        simp only [Nat.add_sub_cancel_left]
      rw [List.cons_append, List.cons_append, decodeFrom_cons, toNat_ofNat_of_lt (by omega), step,
        opens, decodeFrom_cons, toNat_ofNat_of_lt (by omega), step_last _ (by omega) (by omega)]
      rw [back (by omega)]
      rfl
  split
  · next more two three =>
      rw [List.cons_append, List.cons_append, List.cons_append, decodeFrom_cons,
        toNat_ofNat_of_lt (by omega), step, first, if_neg (by omega), if_neg (by omega)]
      split
      · next lowest =>
          rw [decodeFrom_two _ (by omega) (by omega), back (by omega)]
          rfl
      split
      · next below =>
          rw [decodeFrom_two _ (by omega) (by omega), back (by omega)]
          rfl
      · rw [if_pos (by omega), decodeFrom_two _ (by omega) (by omega), back (by omega)]
        rfl
  · next more two three =>
      have tail {bits low high : ℕ} (beyond : 0x80 ≤ low) (lower : low ≤ 0x80 + c.toNat / 4096 % 64)
          (upper : 0x80 + c.toNat / 4096 % 64 ≤ high) (lead : bits = c.toNat / 262144) :
          decodeFrom (.within 2 bits low high beyond)
            (UInt8.ofNat (0x80 + c.toNat / 4096 % 64) :: UInt8.ofNat (0x80 + c.toNat / 64 % 64) ::
              UInt8.ofNat (0x80 + c.toNat % 64) :: rest) = c :: decodeFrom .start rest := by
        rw [decodeFrom_cons, toNat_ofNat_of_lt (by omega), step_more beyond lower upper,
          decodeFrom_two _ (by omega) (by omega), back (by omega)]
        rfl
      rw [List.cons_append, List.cons_append, List.cons_append, List.cons_append, decodeFrom_cons,
        toNat_ofNat_of_lt (by omega), step, first, if_neg (by omega), if_neg (by omega),
        if_neg (by omega), if_neg (by omega), if_neg (by omega)]
      split
      · next lowest => exact tail _ (by omega) (by omega) (by omega)
      split
      · next highest => exact tail _ (by omega) (by omega) (by omega)
      · rw [if_pos (by omega)]
        exact tail _ (by omega) (by omega) (by omega)

theorem decode_encode_append (text : List Char) (rest : List UInt8) :
    decode (encode text ++ rest) = text ++ decode rest := by
  induction text with
  | nil => rfl
  | cons c text ih =>
      unfold decode encode at ih ⊢
      rw [List.flatMap_cons, List.append_assoc, decodeFrom_encodeChar, ih, List.cons_append]

theorem decode_encode (text : List Char) : decode (encode text) = text := by
  have alone := decode_encode_append text []
  have empty : decode [] = [] := rfl
  rwa [List.append_nil, empty, List.append_nil] at alone

/-! ### At an ASCII byte reading starts anew -/

theorem first_ascii {n : ℕ} (ascii : n < 0x80) : first n = ([Char.ofNat n], .start) := if_pos ascii

/-- An ASCII byte shows what was begun before it, and itself. -/
theorem step_ascii (s : State) {n : ℕ} (ascii : n < 0x80) :
    step s n = (decodeFrom s [] ++ [Char.ofNat n], .start) := by
  cases s with
  | start => exact first_ascii ascii
  | within owed bits low high beyond =>
      have outside : ¬ (low ≤ n ∧ n ≤ high) := fun inside => by omega
      rw [step_outside beyond outside, first_ascii ascii]
      rfl

theorem decodeFrom_append_ascii (s : State) (before : List UInt8) {b : UInt8} (ascii : b.toNat < 0x80)
    (rest : List UInt8) : decodeFrom s (before ++ b :: rest) =
      decodeFrom s before ++ Char.ofNat b.toNat :: decodeFrom .start rest := by
  induction before generalizing s with
  | nil =>
      rw [List.nil_append, decodeFrom_cons, step_ascii s ascii, List.append_assoc]
      rfl
  | cons c before ih =>
      rw [List.cons_append, decodeFrom_cons, decodeFrom_cons, ih, List.append_assoc]

/-- A text that starts with an ASCII character reads as it was written, after anything. -/
theorem decode_append_encode (before : List UInt8) {c : Char} (ascii : c.toNat < 0x80)
    (text : List Char) (rest : List UInt8) :
    decode (before ++ encode (c :: text) ++ rest) = decode before ++ c :: text ++ decode rest := by
  have single : encodeChar c = [UInt8.ofNat c.toNat] := if_pos ascii
  have value : (UInt8.ofNat c.toNat).toNat = c.toNat := toNat_ofNat_of_lt (by omega)
  have tail := decode_encode_append text rest
  unfold decode encode at tail ⊢
  rw [List.flatMap_cons, single, List.append_assoc, List.append_assoc, List.singleton_append,
    decodeFrom_append_ascii .start before (by rwa [value]), value, Char.ofNat_toNat, tail,
    List.append_assoc, List.cons_append]

/-! ### Bytes that are marked by a byte before them -/

/-- What is begun of a character comes to one beyond ASCII. -/
def State.Beyond : State → Prop
  | .start => True
  | .within 0 bits low _ _ => 0x80 ≤ bits * 64 + (low - 0x80)
  | .within 1 bits low _ _ => 2 ≤ bits * 64 + (low - 0x80)
  | .within (_ + 2) bits low _ _ => 1 ≤ bits * 64 + (low - 0x80)

theorem beyond_first (n : ℕ) : (first n).2.Beyond := by
  unfold first
  split_ifs <;> simp only [State.Beyond] <;> omega

theorem beyond_step {s : State} (beyond : s.Beyond) (n : ℕ) : (step s n).2.Beyond := by
  cases s with
  | start => exact beyond_first n
  | within owed bits low high above =>
      by_cases inside : low ≤ n ∧ n ≤ high
      · match owed with
        | 0 =>
            rw [step_last above inside.1 inside.2]
            trivial
        | 1 =>
            rw [step_more above inside.1 inside.2]
            simp only [State.Beyond] at beyond ⊢
            omega
        | 2 =>
            rw [step_more above inside.1 inside.2]
            simp only [State.Beyond] at beyond ⊢
            omega
        | owed + 3 =>
            rw [step_more above inside.1 inside.2]
            simp only [State.Beyond] at beyond ⊢
            omega
      · rw [step_outside above inside]
        exact beyond_first n

theorem toNat_ofNat_of_valid {n : ℕ} (valid : n.isValidChar) : (Char.ofNat n).toNat = n := by
  unfold Char.ofNat
  rw [dif_pos valid]
  rfl

theorem toNat_ofNat_of_ascii {n : ℕ} (ascii : n < 0x80) : (Char.ofNat n).toNat = n :=
  toNat_ofNat_of_valid (.inl (by omega))

theorem toNat_ofNat_cases (n : ℕ) : (Char.ofNat n).toNat = n ∨ (Char.ofNat n).toNat = 0 := by
  by_cases valid : n.isValidChar
  · exact .inl (toNat_ofNat_of_valid valid)
  · right
    unfold Char.ofNat
    rw [dif_neg valid]
    rfl

theorem mem_first {n : ℕ} {c : Char} (inside : c ∈ (first n).1) :
    n < 0x80 ∧ c = Char.ofNat n ∨ c = replacement := by
  unfold first at inside
  split_ifs at inside with ascii
  all_goals simp only [List.mem_singleton, List.not_mem_nil] at inside
  · exact .inl ⟨ascii, inside⟩
  · exact .inr inside

/-- A byte shows itself where it is ASCII, and else nothing that is. -/
theorem mem_step {s : State} (beyond : s.Beyond) {n : ℕ} {c : Char} (inside : c ∈ (step s n).1) :
    n < 0x80 ∧ c = Char.ofNat n ∨ 0x80 ≤ c.toNat ∨ c.toNat = 0 := by
  have opening {c : Char} (inside : c ∈ (first n).1) :
      n < 0x80 ∧ c = Char.ofNat n ∨ 0x80 ≤ c.toNat ∨ c.toNat = 0 := by
    refine (mem_first inside).imp_right ?_
    rintro rfl
    exact .inl (by decide)
  cases s with
  | start => exact opening inside
  | within owed bits low high above =>
      by_cases within : low ≤ n ∧ n ≤ high
      · cases owed with
        | zero =>
            rw [step_last above within.1 within.2, List.mem_singleton] at inside
            rw [inside]
            simp only [State.Beyond] at beyond
            refine .inr ((toNat_ofNat_cases _).imp_left fun same => ?_)
            rw [same]
            omega
        | succ owed =>
            rw [step_more above within.1 within.2] at inside
            cases inside
      · rw [step_outside above within, List.mem_cons] at inside
        rcases inside with rfl | inside
        · exact .inr (.inl (by decide))
        · exact opening inside

theorem first_step {n : ℕ} (ascii : n < 0x80) : step .start n = ([Char.ofNat n], .start) :=
  first_ascii ascii

section marked
variable {marked : List ℕ} {lead : UInt8}

/-- A byte with the lead before it, if it is marked. -/
def markByte (marked : List ℕ) (lead b : UInt8) : List UInt8 :=
  if b.toNat ∈ marked then [lead, b] else [b]

def markChar (marked : List ℕ) (lead : UInt8) (c : Char) : List Char :=
  if c.toNat ∈ marked then [Char.ofNat lead.toNat, c] else [c]

theorem markChar_of_plain {c : Char} (plain : c.toNat ∉ marked) : markChar marked lead c = [c] :=
  if_neg plain

theorem flatMap_markChar {cs : List Char} (plain : ∀ c ∈ cs, c.toNat ∉ marked) :
    cs.flatMap (markChar marked lead) = cs := by
  induction cs with
  | nil => rfl
  | cons c cs ih =>
      rw [List.flatMap_cons, markChar_of_plain (plain c List.mem_cons_self),
        ih fun d inside => plain d (List.mem_cons_of_mem c inside)]
      rfl

/-- ASCII bytes are marked in the bytes as their characters are in the text. -/
theorem decodeFrom_markByte (ascii : ∀ n ∈ marked, 0 < n ∧ n < 0x80) (leads : lead.toNat < 0x80)
    {s : State} (beyond : s.Beyond) (bytes : List UInt8) :
    decodeFrom s (bytes.flatMap (markByte marked lead)) =
      (decodeFrom s bytes).flatMap (markChar marked lead) := by
  have shown (s : State) : (decodeFrom s []).flatMap (markChar marked lead) = decodeFrom s [] := by
    apply flatMap_markChar
    cases s with
    | start => exact List.forall_mem_nil _
    | within owed bits low high above =>
        intro c inside
        rw [List.mem_singleton.mp inside]
        intro among
        exact absurd (ascii _ among).2 (by decide)
  induction bytes generalizing s with
  | nil => exact (shown s).symm
  | cons b bytes ih =>
      rw [List.flatMap_cons]
      by_cases among : b.toNat ∈ marked
      · have small := (ascii _ among).2
        have read : (Char.ofNat b.toNat).toNat = b.toNat := toNat_ofNat_of_ascii small
        have both : markByte marked lead b = [lead, b] := if_pos among
        have chars : markChar marked lead (Char.ofNat b.toNat) =
            [Char.ofNat lead.toNat, Char.ofNat b.toNat] := by
          unfold markChar
          rw [read, if_pos among]
        have rest := ih (s := .start) trivial
        rw [both, List.cons_append, List.singleton_append, decodeFrom_cons, decodeFrom_cons,
          step_ascii s leads, first_step small, rest, decodeFrom_cons s b bytes,
          step_ascii s small]
        simp only [List.flatMap_append, List.flatMap_cons, shown, chars,
          List.append_assoc, List.cons_append, List.nil_append]
      · have alone : markByte marked lead b = [b] := if_neg among
        have plain : ∀ c ∈ (step s b.toNat).1, c.toNat ∉ marked := by
          intro c inside found
          rcases mem_step beyond inside with ⟨small, rfl⟩ | above | zero
          · rw [toNat_ofNat_of_ascii small] at found
            exact among found
          · have small := (ascii _ found).2
            omega
          · have positive := (ascii _ found).1
            omega
        rw [alone, List.singleton_append, decodeFrom_cons, decodeFrom_cons s b bytes,
          ih (beyond_step beyond _), List.flatMap_append, flatMap_markChar plain]

theorem decode_markByte (ascii : ∀ n ∈ marked, 0 < n ∧ n < 0x80) (leads : lead.toNat < 0x80)
    (bytes : List UInt8) : decode (bytes.flatMap (markByte marked lead)) =
      (decode bytes).flatMap (markChar marked lead) :=
  decodeFrom_markByte ascii leads (s := .start) trivial bytes

end marked

/-! ### Nothing is shown of nothing only -/

theorem decodeFrom_within_ne_nil {owed bits low high : ℕ} (above : 0x80 ≤ low)
    (bytes : List UInt8) : decodeFrom (.within owed bits low high above) bytes ≠ [] := by
  induction bytes generalizing owed bits low high with
  | nil => exact List.cons_ne_nil _ _
  | cons b bytes ih =>
      rw [decodeFrom_cons]
      by_cases inside : low ≤ b.toNat ∧ b.toNat ≤ high
      · cases owed with
        | zero =>
            rw [step_last above inside.1 inside.2]
            exact List.cons_ne_nil _ _
        | succ owed =>
            rw [step_more above inside.1 inside.2]
            exact ih _
      · rw [step_outside above inside]
        exact List.cons_ne_nil _ _

theorem decode_eq_nil {bytes : List UInt8} : decode bytes = [] ↔ bytes = [] := by
  constructor
  · intro empty
    cases bytes with
    | nil => rfl
    | cons b bytes =>
        have opened : (first b.toNat).1 ≠ [] ∨
            ∃ owed bits low high above, (first b.toNat).2 = .within owed bits low high above := by
          unfold first
          split_ifs
          all_goals first
            | exact .inl (List.cons_ne_nil _ _)
            | exact .inr ⟨_, _, _, _, by decide, rfl⟩
        have parts : (first b.toNat).1 = [] ∧ decodeFrom (first b.toNat).2 bytes = [] := by
          rw [decode, decodeFrom_cons] at empty
          exact List.append_eq_nil_iff.mp empty
        rcases opened with shown | ⟨owed, bits, low, high, above, state⟩
        · exact absurd parts.1 shown
        · rw [state] at parts
          exact absurd parts.2 (decodeFrom_within_ne_nil above bytes)
  · rintro rfl
    rfl

end Utf8
