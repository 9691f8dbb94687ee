import Johnny.Foundation.JsonText

/-!
# What stands in front of a value

A reader goes on to the rest of its text over the characters it takes. Over blanks, brackets,
commas and scalars it meets no mark that opens a dictionary or a literal, so that a text in front
of such a mark is either a value of its own or no JSON at all with what follows.
-/
namespace Johnny

variable {K : Type}

/-! ### Going on over a text -/

/-- The text goes on to `rest` over none of these characters. -/
def Skips (marks cs rest : List Char) : Prop := ∃ used, cs = used ++ rest ∧ ∀ c ∈ used, c ∉ marks

section skips
variable {marks cs ds rest : List Char} {c : Char}

theorem Skips.refl (marks cs : List Char) : Skips marks cs cs := ⟨[], rfl, List.forall_mem_nil _⟩

theorem Skips.trans (first : Skips marks cs ds) (then' : Skips marks ds rest) :
    Skips marks cs rest := by
  obtain ⟨used, rfl, free⟩ := first
  obtain ⟨more, rfl, clear⟩ := then'
  exact ⟨used ++ more, (List.append_assoc _ _ _).symm, List.forall_mem_append.mpr ⟨free, clear⟩⟩

theorem Skips.cons (free : c ∉ marks) (onward : Skips marks cs rest) : Skips marks (c :: cs) rest := by
  obtain ⟨used, rfl, clear⟩ := onward
  exact ⟨c :: used, rfl, List.forall_mem_cons.mpr ⟨free, clear⟩⟩

theorem Skips.dropWhile {taken : Char → Bool} (free : ∀ c, taken c = true → c ∉ marks)
    (cs : List Char) : Skips marks cs (cs.dropWhile taken) :=
  ⟨cs.takeWhile taken, List.takeWhile_append_dropWhile.symm,
    fun c inside => free c (List.mem_takeWhile_imp inside)⟩

theorem Skips.expect {key : List Char} (free : ∀ c ∈ key, c ∉ marks)
    (read : JsonString.expect key cs = some rest) : Skips marks cs rest :=
  ⟨key, JsonString.eq_append_of_expect read, free⟩

/-- It does not go on over a mark. -/
theorem Skips.before {before after : List Char} (mark : c ∈ marks)
    (onward : Skips marks (before ++ c :: after) rest) :
    ∃ left, Skips marks before left ∧ rest = left ++ c :: after := by
  obtain ⟨used, same, free⟩ := onward
  rcases List.append_eq_append_iff.mp same with ⟨more, rfl, tail⟩ | ⟨left, rfl, tail⟩
  · cases more with
    | nil => exact ⟨[], ⟨before, (List.append_nil before).symm,
        fun d inside => free d (by rwa [List.append_nil])⟩, tail.symm⟩
    | cons d more =>
        cases tail
        exact absurd mark (free c (List.mem_append_right _ List.mem_cons_self))
  · exact ⟨left, ⟨used, rfl, free⟩, tail⟩

end skips

/-! ### Readers of scalars and escapes -/

section readers
variable {marks cs rest : List Char}

/-- A number has none of the marks. -/
theorem skips_readToken (free : ∀ c, JsonNumber.continues c = true → c ∉ marks)
    {t : JsonNumber.Token} (read : JsonNumber.readToken cs = some (t, rest)) :
    Skips marks cs rest := by
  have digits (cs : List Char) : Skips marks cs (cs.dropWhile Char.isDigit) :=
    Skips.dropWhile (fun c digit => free c (by simp [JsonNumber.continues, digit])) cs
  have natural {cs : List Char} {p : List Char × List Char}
      (read : JsonNumber.readNatural cs = some p) : Skips marks cs p.2 := by
    cases cs with
    | nil => cases read
    | cons c cs =>
        simp only [JsonNumber.readNatural] at read
        split_ifs at read with zero digit
        · cases read
          exact .cons (free c (by rw [zero]; rfl)) (.refl _ _)
        · cases read
          exact .cons (free c (by simp [JsonNumber.continues, digit])) (digits cs)
  have integer {cs : List Char} {p : List Char × List Char}
      (read : JsonNumber.readInteger cs = some p) : Skips marks cs p.2 := by
    cases cs with
    | nil => cases read
    | cons c cs =>
        simp only [JsonNumber.readInteger] at read
        split_ifs at read with minus
        · obtain ⟨q, inner, same⟩ := Option.map_eq_some_iff.mp read
          cases same
          have behind := natural inner
          exact .cons (free c (by rw [minus]; rfl)) behind
        · exact natural read
  have fraction (cs : List Char) : Skips marks cs (JsonNumber.readFraction cs).2 := by
    cases cs with
    | nil => exact .refl _ _
    | cons c cs =>
        simp only [JsonNumber.readFraction]
        split_ifs with point
        · exact .cons (free c (by rw [point.1]; rfl)) (digits cs)
        · exact .refl _ _
  have sign (cs : List Char) : Skips marks cs (JsonNumber.readSign cs).2 := by
    cases cs with
    | nil => exact .refl _ _
    | cons c cs =>
        simp only [JsonNumber.readSign]
        split_ifs with signed
        · refine .cons (free c ?_) (.refl _ _)
          rcases signed with rfl | rfl
          · rfl
          · rfl
        · exact .refl _ _
  have exponent (cs : List Char) : Skips marks cs (JsonNumber.readExponent cs).2 := by
    cases cs with
    | nil => exact .refl _ _
    | cons c cs =>
        simp only [JsonNumber.readExponent]
        split_ifs with letter
        · refine .cons (free c ?_) ((sign cs).trans (digits _))
          rcases letter.1 with rfl | rfl
          · rfl
          · rfl
        · exact .refl _ _
  obtain ⟨whole, first, same⟩ := Option.map_eq_some_iff.mp read
  cases same
  exact (integer first).trans ((fraction _).trans (exponent _))

theorem skips_hex4 {n : ℕ} (read : JsonString.readHex4 cs = some (n, rest)) :
    Skips ['\x7b'] cs rest := by
  have digit {c : Char} {n : ℕ} (read : JsonString.hexValue c = some n) : c ∉ ['\x7b'] := by
    rw [List.mem_singleton]
    rintro rfl
    cases read
  unfold JsonString.readHex4 at read
  split at read
  · next a b c d tail =>
      simp only [Option.bind_eq_bind, Option.bind_eq_some_iff, Option.some.injEq,
        Prod.mk.injEq] at read
      obtain ⟨i, first, j, second, k, third, l, fourth, -, rfl⟩ := read
      exact .cons (digit first) (.cons (digit second) (.cons (digit third)
        (.cons (digit fourth) (.refl _ _))))
  · cases read

theorem skips_low (high : ℕ) (cs : List Char) :
    Skips ['\x7b'] cs (JsonString.readLow high cs).2 := by
  unfold JsonString.readLow
  split
  · next tail =>
      split
      · next n left digits =>
          split_ifs
          · exact .cons (by decide) (.cons (by decide) (skips_hex4 digits))
          · exact .refl _ _
      · exact .refl _ _
  · exact .refl _ _

theorem skips_unicode {n : ℕ} (read : JsonString.readUnicode cs = some (n, rest)) :
    Skips ['\x7b'] cs rest := by
  obtain ⟨⟨high, left⟩, digits, same⟩ := Option.map_eq_some_iff.mp read
  split_ifs at same
  · have onward := skips_low high left
    rw [same] at onward
    exact (skips_hex4 digits).trans onward
  · cases same
    exact skips_hex4 digits

/-- In a literal an opening brace stands for itself, or comes later. -/
theorem skips_readChar {c : Char} {n : ℕ} (read : JsonString.readChar (c :: cs) = some (n, rest)) :
    rest = cs ∨ Skips ['\x7b'] cs rest := by
  simp only [JsonString.readChar] at read
  split_ifs at read with backslash quote
  · right
    cases cs with
    | nil => cases read
    | cons e cs =>
        simp only [JsonString.readEscape] at read
        split_ifs at read with unicode
        · exact .cons (by rw [unicode]; decide) (skips_unicode read)
        · obtain ⟨short, named, same⟩ := Option.map_eq_some_iff.mp read
          cases same
          refine .cons ?_ (.refl _ _)
          rw [List.mem_singleton]
          rintro rfl
          have unknown : JsonString.escapes.lookup '\x7b' = none := rfl
          cases unknown.symm.trans named
  · cases read
    exact .inl rfl

end readers

/-! ### Texts that no reader gets through -/

/-- What opens a dictionary or a literal, or escapes in one. -/
def marks : List Char := ['\x7b', '"', '\\']

/-- What stands behind a value inside another. -/
def separators : List Char := [',', ']', '\x7d', ':']

/-- Something stands here, and no value inside another can end before it. -/
def Stuck (rest : List Char) : Prop := ∃ c tail, skipBlank rest = c :: tail ∧ c ∉ separators

/-- Readers go from `Pending` texts to such texts again, or get stuck; but a `Whole` one is a
value to its end. -/
structure Unclosed (f : NumberText K) (Pending Whole : List Char → Prop) : Prop where
  live : ∀ {cs}, Pending cs → skipBlank cs ≠ []
  skips : ∀ {cs rest}, Pending cs → Skips marks cs rest → Pending rest
  literal : ∀ {cs rest s}, Pending cs →
    JsonString.readLiteral JsonString.scalars cs = some (s, rest) → Pending rest ∨ Stuck rest
  brace : ∀ {cs}, Pending ('\x7b' :: cs) → Pending cs ∨ Whole ('\x7b' :: cs)
  whole : ∀ {n cs j rest}, Whole cs → readValue (.strict f) n cs = some (j, rest) → rest = []

section unclosed
variable {f : NumberText K} {Pending Whole : List Char → Prop} {cs rest : List Char}

theorem free_of_all {cs : List Char} (all : (cs.all fun c => !marks.contains c) = true) :
    ∀ c ∈ cs, c ∉ marks := by
  intro c inside mark
  have free := List.all_eq_true.mp all c inside
  rw [List.contains_iff_mem.mpr mark] at free
  cases free

theorem blank_free {c : Char} (blank : isBlank c = true) : c ∉ marks := by
  simp only [isBlank, Bool.or_eq_true, beq_iff_eq] at blank
  rcases blank with ((rfl | rfl) | rfl) | rfl <;> decide

theorem skips_skipBlank (cs : List Char) : Skips marks cs (skipBlank cs) :=
  Skips.dropWhile (fun _ => blank_free) cs

theorem continues_free {c : Char} (number : JsonNumber.continues c = true) : c ∉ marks := by
  intro inside
  simp only [marks, List.mem_cons, List.not_mem_nil, or_false] at inside
  rcases inside with rfl | rfl | rfl
  · cases number
  · cases number
  · cases number

theorem skips_readScalar {j : Json K} (read : readScalar (.strict f) cs = some (j, rest)) :
    Skips marks cs rest := by
  unfold readScalar at read
  rcases Option.or_eq_some_iff.mp read with named | ⟨-, number⟩
  · obtain ⟨e, among, found⟩ := List.exists_of_findSome?_eq_some named
    obtain ⟨left, expected, same⟩ := Option.map_eq_some_iff.mp found
    cases same
    have free : ∀ e ∈ (constants f : List (List Char × Json K)), ∀ c ∈ e.1, c ∉ marks := by
      simp only [constants, List.forall_mem_cons, String.toList]
      refine ⟨?_, ?_, ?_, ?_, ?_, ?_, List.forall_mem_nil _⟩ <;>
        exact free_of_all rfl
    exact .expect (free e among) expected
  · simp only [readNumber, Option.bind_eq_bind, Option.bind_eq_some_iff, Prod.exists] at number
    obtain ⟨t, left, token, value⟩ := number
    have ended : left = rest := by
      split_ifs at value
      · obtain ⟨n, -, same⟩ := Option.bind_eq_some_iff.mp value
        cases same
        rfl
      · cases value
        rfl
    exact ended ▸ skips_readToken (fun _ => continues_free) token

theorem Stuck.expect_none {key : Char} (stuck : Stuck rest) (separator : key ∈ separators) :
    JsonString.expect [key] (skipBlank rest) = none := by
  obtain ⟨c, tail, head, other⟩ := stuck
  rw [head]
  refine expect_other ?_ tail
  rintro rfl
  exact other separator

theorem readItems_stuck {n : ℕ} (stuck : Stuck rest ∨ rest = []) :
    readItems (.strict f) n rest = none := by
  cases n with
  | zero => rfl
  | succ n =>
      rcases stuck with ⟨c, tail, head, other⟩ | rfl
      · simp only [separators, List.mem_cons, not_or] at other
        rw [readItems, head]
        dsimp only
        rw [if_neg other.2.1, if_neg other.1]
      · rfl

theorem readFields_stuck {n : ℕ} (stuck : Stuck rest ∨ rest = []) :
    readFields (.strict f) n rest = none := by
  cases n with
  | zero => rfl
  | succ n =>
      rcases stuck with ⟨c, tail, head, other⟩ | rfl
      · simp only [separators, List.mem_cons, not_or] at other
        rw [readFields, head]
        dsimp only
        rw [if_neg other.2.2.1, if_neg other.1]
      · rfl

namespace Unclosed

/-- After a key, the rest of its field. -/
theorem readField (u : Unclosed f Pending Whole) {value : List Char → Option (Json K × List Char)}
    (reads : ∀ {cs j rest}, Pending cs → value cs = some (j, rest) →
      Pending rest ∨ Stuck rest ∨ rest = []) (pending : Pending cs) {e : String × Json K}
    (read : Johnny.readField JsonString.scalars value cs = some (e, rest)) :
    Pending rest ∨ Stuck rest ∨ rest = [] := by
  unfold Johnny.readField at read
  simp only [Option.bind_eq_bind, Option.bind_eq_some_iff, Prod.exists] at read
  obtain ⟨key, behind, literal, colon, expected, j, left, item, same⟩ := read
  cases same
  rcases u.literal pending literal with onward | stuck
  · have after := u.skips (u.skips onward (skips_skipBlank behind))
      (.expect (List.forall_mem_singleton.mpr (by decide)) expected)
    exact reads (u.skips after (skips_skipBlank colon)) item
  · rw [stuck.expect_none (by decide)] at expected
    cases expected

/-- What a reader leaves of a pending text is pending, or no value inside another ends there. -/
theorem reads (u : Unclosed f Pending Whole) (n : ℕ) :
    (∀ {cs j rest}, Pending cs → readValue (.strict f) n cs = some (j, rest) →
      Pending rest ∨ Stuck rest ∨ (Whole cs ∧ rest = [])) ∧
    (∀ {cs items rest}, Pending cs ∨ Stuck cs ∨ cs = [] →
      readItems (.strict f) n cs = some (items, rest) → Pending rest) ∧
    (∀ {cs fields rest}, Pending cs ∨ Stuck cs ∨ cs = [] →
      readFields (.strict f) n cs = some (fields, rest) → Pending rest) := by
  induction n with
  | zero =>
      refine ⟨?_, ?_, ?_⟩
      · intro cs j rest _ read
        rw [readValue] at read
        · cases read
        · intro n c cs' impossible
          cases impossible
      · intro cs items rest _ read
        cases read
      · intro cs fields rest _ read
        cases read
  | succ n ih =>
      obtain ⟨values, items, fields⟩ := ih
      have inner {cs : List Char} {j : Json K} {rest : List Char} (pending : Pending cs)
          (read : readValue (.strict f) n cs = some (j, rest)) :
          Pending rest ∨ Stuck rest ∨ rest = [] := by
        rcases values pending read with onward | stuck | ⟨-, ended⟩
        · exact .inl onward
        · exact .inr (.inl stuck)
        · exact .inr (.inr ended)
      refine ⟨?_, ?_, ?_⟩
      · intro cs j rest pending read
        cases cs with
        | nil => cases read
        | cons c cs =>
            rw [readValue] at read
            split_ifs at read with quote brace bracket
            · obtain ⟨⟨s, left⟩, literal, same⟩ := Option.map_eq_some_iff.mp read
              cases same
              exact (u.literal pending literal).imp_right .inl
            · subst brace
              rw [JsonReader.enter_strict, Option.bind_eq_bind, Option.bind_some] at read
              rcases u.brace pending with opened | whole
              · left
                have start := u.skips opened (skips_skipBlank cs)
                split at read
                · next left closed =>
                    cases read
                    exact u.skips start (.expect (List.forall_mem_singleton.mpr (by decide)) closed)
                · simp only [Option.bind_eq_bind, Option.bind_eq_some_iff, Prod.exists] at read
                  obtain ⟨key, value, behind, field, others, left, more, same⟩ := read
                  cases same
                  exact fields (u.readField inner start field) more
              · refine .inr (.inr ⟨whole, u.whole (n := n + 1) (j := j) whole ?_⟩)
                rw [readValue, if_neg quote, if_pos rfl, JsonReader.enter_strict]
                exact read
            · subst bracket
              rw [JsonReader.enter_strict, Option.bind_eq_bind, Option.bind_some] at read
              left
              have start := u.skips (u.skips pending (.cons (by decide) (.refl _ _)))
                (skips_skipBlank cs)
              split at read
              · next left closed =>
                  cases read
                  exact u.skips start (.expect (List.forall_mem_singleton.mpr (by decide)) closed)
              · simp only [Option.bind_eq_bind, Option.bind_eq_some_iff, Prod.exists] at read
                obtain ⟨item, behind, first, others, left, more, same⟩ := read
                cases same
                exact items (inner start first) more
            · exact .inl (u.skips pending (skips_readScalar read))
      · intro cs found rest from' read
        rcases from' with pending | stuck
        · have start := u.skips pending (skips_skipBlank cs)
          rw [readItems] at read
          cases head : skipBlank cs with
          | nil =>
              rw [head] at read
              cases read
          | cons c tail =>
              rw [head] at read start
              dsimp only at read
              split_ifs at read with closed comma
              · cases read
                subst closed
                exact u.skips start (.cons (by decide) (.refl _ _))
              · subst comma
                simp only [Option.bind_eq_bind, Option.bind_eq_some_iff, Prod.exists] at read
                obtain ⟨item, behind, first, others, left, more, same⟩ := read
                cases same
                have next := u.skips (u.skips start (.cons (by decide) (.refl _ _)))
                  (skips_skipBlank tail)
                exact items (inner next first) more
        · rw [readItems_stuck stuck] at read
          cases read
      · intro cs found rest from' read
        rcases from' with pending | stuck
        · have start := u.skips pending (skips_skipBlank cs)
          rw [readFields] at read
          cases head : skipBlank cs with
          | nil =>
              rw [head] at read
              cases read
          | cons c tail =>
              rw [head] at read start
              dsimp only at read
              split_ifs at read with closed comma
              · cases read
                subst closed
                exact u.skips start (.cons (by decide) (.refl _ _))
              · subst comma
                simp only [Option.bind_eq_bind, Option.bind_eq_some_iff, Prod.exists] at read
                obtain ⟨key, value, behind, first, others, left, more, same⟩ := read
                cases same
                have next := u.skips (u.skips start (.cons (by decide) (.refl _ _)))
                  (skips_skipBlank tail)
                exact fields (u.readField inner next first) more
        · rw [readFields_stuck stuck] at read
          cases read

/-- A text that is pending, and not a value to its end, is no JSON. -/
theorem loads_none (u : Unclosed f Pending Whole) {text : String} (pending : Pending text.toList)
    (part : ¬ Whole (skipBlank text.toList)) : loads (.strict f) text = none := by
  have start := u.skips pending (skips_skipBlank text.toList)
  cases read : readValue (.strict f) text.toList.length (skipBlank text.toList) with
  | none =>
      unfold loads
      rw [read]
      rfl
  | some found =>
      obtain ⟨j, rest⟩ := found
      have left : skipBlank rest ≠ [] := by
        rcases (u.reads _).1 start read with onward | ⟨c, tail, head, -⟩ | ⟨whole, -⟩
        · exact u.live onward
        · rw [head]
          exact List.cons_ne_nil _ _
        · exact absurd whole part
      unfold loads
      rw [read]
      exact if_neg fun empty => left (List.isEmpty_iff.mp empty)

end Unclosed
end unclosed

/-! ### More fuel changes nothing -/

section fuel
variable {f : NumberText K} {cs : List Char}

theorem readField_mono {value value' : List Char → Option (Json K × List Char)}
    (more : ∀ {cs r}, value cs = some r → value' cs = some r) {r : (String × Json K) × List Char}
    (read : readField JsonString.scalars value cs = some r) :
    readField JsonString.scalars value' cs = some r := by
  unfold readField at read ⊢
  simp only [Option.bind_eq_bind, Option.bind_eq_some_iff, Prod.exists] at read ⊢
  obtain ⟨key, behind, literal, colon, expected, j, left, item, same⟩ := read
  exact ⟨key, behind, literal, colon, expected, j, left, more item, same⟩

theorem readValue_succ (n : ℕ) :
    (∀ {cs : List Char} {r}, readValue (.strict f) n cs = some r →
      readValue (.strict f) (n + 1) cs = some r) ∧
    (∀ {cs : List Char} {r}, readItems (.strict f) n cs = some r →
      readItems (.strict f) (n + 1) cs = some r) ∧
    (∀ {cs : List Char} {r}, readFields (.strict f) n cs = some r →
      readFields (.strict f) (n + 1) cs = some r) := by
  induction n with
  | zero =>
      refine ⟨?_, ?_, ?_⟩
      · intro cs r read
        cases cs with
        | nil => cases read
        | cons c cs => cases read
      · intro cs r read
        cases read
      · intro cs r read
        cases read
  | succ n ih =>
      obtain ⟨values, items, fields⟩ := ih
      refine ⟨?_, ?_, ?_⟩
      · intro cs r read
        cases cs with
        | nil => cases read
        | cons c cs =>
            rw [readValue] at read ⊢
            split_ifs at read ⊢ with quote brace bracket
            · exact read
            · rw [JsonReader.enter_strict, Option.bind_eq_bind, Option.bind_some] at read ⊢
              split at read
              · exact read
              · simp only [Option.bind_eq_bind, Option.bind_eq_some_iff] at read ⊢
                obtain ⟨field, first, others, more, same⟩ := read
                exact ⟨field, readField_mono values first, others, fields more, same⟩
            · rw [JsonReader.enter_strict, Option.bind_eq_bind, Option.bind_some] at read ⊢
              split at read
              · exact read
              · simp only [Option.bind_eq_bind, Option.bind_eq_some_iff] at read ⊢
                obtain ⟨item, first, others, more, same⟩ := read
                exact ⟨item, values first, others, items more, same⟩
            · exact read
      · intro cs r read
        rw [readItems] at read ⊢
        cases head : skipBlank cs with
        | nil =>
            rw [head] at read
            cases read
        | cons c tail =>
            rw [head] at read
            dsimp only at read ⊢
            split_ifs at read ⊢ with closed comma
            · exact read
            · simp only [Option.bind_eq_bind, Option.bind_eq_some_iff] at read ⊢
              obtain ⟨item, first, others, more, same⟩ := read
              exact ⟨item, values first, others, items more, same⟩
      · intro cs r read
        rw [readFields] at read ⊢
        cases head : skipBlank cs with
        | nil =>
            rw [head] at read
            cases read
        | cons c tail =>
            rw [head] at read
            dsimp only at read ⊢
            split_ifs at read ⊢ with closed comma
            · exact read
            · simp only [Option.bind_eq_bind, Option.bind_eq_some_iff] at read ⊢
              obtain ⟨field, first, others, more, same⟩ := read
              exact ⟨field, readField_mono values first, others, fields more, same⟩

theorem readValue_le {n m : ℕ} (le : n ≤ m) {r : Json K × List Char}
    (read : readValue (.strict f) n cs = some r) : readValue (.strict f) m cs = some r := by
  induction le with
  | refl => exact read
  | step _ ih => exact (readValue_succ _).1 ih

/-- A text that was written reads to its end, if it reads at all. -/
theorem readValue_written (l : Layout) {d n : ℕ} {j i : Json K} (proper : j.Proper)
    {rest : List Char} (read : readValue (.strict f) n (writeValue f l d j) = some (i, rest)) :
    rest = [] := by
  have stops : JsonNumber.Stops [] := trivial
  have whole := readValue_strict f l d j proper (Nat.le_max_right n _) stops
  rw [List.append_nil, readValue_le (Nat.le_max_left n _) read] at whole
  cases whole
  rfl

end fuel

/-! ### A text in front of a dictionary -/

section front
variable {f : NumberText K} {o before rest : List Char}

/-- In a literal that is open the dictionary's first quote closes it. -/
theorem readBody_before {n : ℕ} {s : List ℕ}
    (read : JsonString.readBody n (before ++ '\x7b' :: '"' :: o) = some (s, rest)) :
    (∃ left, rest = left ++ '\x7b' :: '"' :: o) ∨ rest = o := by
  induction n generalizing before s with
  | zero =>
      rw [JsonString.readBody] at read
      · cases read
      · intro n c cs impossible
        cases impossible
  | succ n ih =>
      cases before with
      | nil =>
          right
          have raw : JsonString.readChar ('\x7b' :: '"' :: o) = some ('\x7b'.toNat, '"' :: o) :=
            JsonString.readChar_raw (by decide) (by decide) (by decide) _
          rw [List.nil_append, JsonString.readBody, if_neg (by decide), raw] at read
          simp only [Option.bind_eq_bind, Option.bind_some, Option.bind_eq_some_iff,
            Prod.exists] at read
          obtain ⟨t, left, closed, same⟩ := read
          cases same
          cases n with
          | zero => cases closed
          | succ n =>
              rw [JsonString.readBody, if_pos rfl] at closed
              cases closed
              rfl
      | cons c before =>
          rw [List.cons_append, JsonString.readBody] at read
          split_ifs at read with quote
          · cases read
            exact .inl ⟨before, rfl⟩
          · simp only [Option.bind_eq_bind, Option.bind_eq_some_iff, Prod.exists] at read
            obtain ⟨d, behind, char, t, left, more, same⟩ := read
            cases same
            rcases skips_readChar char with rfl | onward
            · exact ih more
            · obtain ⟨left, -, rfl⟩ := onward.before List.mem_cons_self
              exact ih more

/-- The texts that still have the dictionary in front of them. -/
theorem unclosed_before (stuck : Stuck o)
    (whole : ∀ {n j rest}, readValue (.strict f) n ('\x7b' :: '"' :: o) = some (j, rest) →
      rest = []) :
    Unclosed f (fun cs => ∃ before, cs = before ++ '\x7b' :: '"' :: o)
      (fun cs => cs = '\x7b' :: '"' :: o) where
  live := by
    rintro _ ⟨before, rfl⟩ empty
    have blank := List.dropWhile_eq_nil_iff.mp empty '\x7b'
      (List.mem_append_right _ List.mem_cons_self)
    cases blank
  skips := by
    rintro _ rest ⟨before, rfl⟩ onward
    obtain ⟨left, -, same⟩ := onward.before List.mem_cons_self
    exact ⟨left, same⟩
  literal := by
    rintro _ rest s ⟨before, rfl⟩ read
    cases before with
    | nil => cases read
    | cons c before =>
        rw [List.cons_append, JsonString.readLiteral] at read
        split_ifs at read
        obtain ⟨⟨t, left⟩, body, made⟩ := Option.bind_eq_some_iff.mp read
        obtain ⟨s, -, same⟩ := Option.map_eq_some_iff.mp made
        cases same
        rcases readBody_before body with onward | rfl
        · exact .inl onward
        · exact .inr stuck
  brace := by
    rintro cs ⟨before, same⟩
    cases before with
    | nil => exact .inr same
    | cons c before =>
        cases same
        exact .inl ⟨before, rfl⟩
  whole := by
    rintro n _ j rest rfl read
    exact whole read

/-- Behind anything but blanks a dictionary is no JSON. -/
theorem loads_before (l : Layout) {key : String} {c : Char} {ks : List Char} {value : Json K}
    {fields : List (String × Json K)} (proper : (Json.obj ((key, value) :: fields)).Proper)
    (named : key.toList = c :: ks) (plain : JsonString.escape true c = [c])
    (solid : isBlank c = false) (other : c ∉ separators) (tight : l.newline 1 = [])
    (solidBefore : ∃ d ∈ before, isBlank d = false) :
    loads (.strict f)
      (String.ofList (before ++ writeValue f l 0 (.obj ((key, value) :: fields)))) = none := by
  let o := JsonString.body true key.toList ++
    (':' :: ' ' :: (writeValue f l 1 value ++ writeFields f l 0 fields))
  have written : writeValue f l 0 (.obj ((key, value) :: fields)) = '\x7b' :: '"' :: o := by
    simp only [writeValue, tight, JsonString.literal, List.nil_append, List.cons_append, o]
  have head : Stuck o := by
    refine ⟨c, ks.flatMap (JsonString.escape true) ++ '"' ::
      (':' :: ' ' :: (writeValue f l 1 value ++ writeFields f l 0 fields)), ?_, other⟩
    have start : o = c :: (ks.flatMap (JsonString.escape true) ++ '"' ::
        (':' :: ' ' :: (writeValue f l 1 value ++ writeFields f l 0 fields))) := by
      simp only [o, JsonString.body, named, List.flatMap_cons, plain, List.cons_append,
        List.nil_append, List.append_assoc]
    rw [start]
    exact skipBlank_cons solid _
  have whole {n : ℕ} {j : Json K} {rest : List Char}
      (read : readValue (.strict f) n ('\x7b' :: '"' :: o) = some (j, rest)) : rest = [] := by
    rw [← written] at read
    exact readValue_written l proper read
  rw [written]
  refine (unclosed_before head whole).loads_none ⟨before, String.toList_ofList⟩ ?_
  intro same
  rw [String.toList_ofList, skipBlank, List.dropWhile_append] at same
  split_ifs at same with empty
  · obtain ⟨d, inside, solid⟩ := solidBefore
    have blank := List.dropWhile_eq_nil_iff.mp (List.isEmpty_iff.mp empty) d inside
    rw [solid] at blank
    cases blank
  · have longer := congrArg List.length same
    rw [List.length_append] at longer
    have some : 0 < (before.dropWhile isBlank).length :=
      List.length_pos_iff.mpr fun none => empty (List.isEmpty_iff.mpr none)
    omega

end front

end Johnny
