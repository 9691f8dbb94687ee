import Johnny.Foundation.JsonFraming

/-!
# JSON that a shell prints

A dictionary printed without blanks around texts that were put in with a backslash before every
quote and backslash. Such a text stays inside its literal: where it has a control character the
whole is no JSON, and what is behind it is no JSON by itself.
-/
namespace Johnny

variable {K : Type}

/-! ### Quotes and backslashes behind a backslash -/

/-- Every quote and every backslash behind a backslash, and the rest as it is. -/
def backslashed (cs : List Char) : List Char :=
  cs.flatMap fun c => if c = '"' ∨ c = '\\' then ['\\', c] else [c]

/-- Control characters, which may not stand in a literal. -/
def isControl (c : Char) : Bool := decide (c.toNat < 32)

section backslashed
variable {f : NumberText K} {cs rest t : List Char}

theorem backslashed_cons_of_marked {c : Char} (marked : c = '"' ∨ c = '\\') (cs : List Char) :
    backslashed (c :: cs) = '\\' :: c :: backslashed cs := by
  unfold backslashed
  rw [List.flatMap_cons, if_pos marked]
  rfl

theorem backslashed_cons_of_plain {c : Char} (plain : ¬ (c = '"' ∨ c = '\\')) (cs : List Char) :
    backslashed (c :: cs) = c :: backslashed cs := by
  unfold backslashed
  rw [List.flatMap_cons, if_neg plain]
  rfl

/-- Without control characters this is how a literal is written. -/
theorem backslashed_body (free : ∀ c ∈ cs, isControl c = false) :
    backslashed cs ++ ['"'] = JsonString.body false cs := by
  unfold JsonString.body
  congr 1
  induction cs with
  | nil => rfl
  | cons c cs ih =>
      have printed : ¬ c.toNat < 32 := of_decide_eq_false (free c List.mem_cons_self)
      have escaped : JsonString.escape false c =
          if c = '"' ∨ c = '\\' then ['\\', c] else [c] := by
        by_cases quote : c = '"'
        · subst quote
          rfl
        by_cases backslash : c = '\\'
        · subst backslash
          rfl
        have other (d : Char) (control : d.toNat < 32) : c ≠ d := by
          rintro rfl
          exact printed control
        rw [if_neg (not_or.mpr ⟨quote, backslash⟩), JsonString.escape, if_neg quote,
          if_neg backslash, if_neg (other '\n' (by decide)), if_neg (other '\r' (by decide)),
          if_neg (other '\t' (by decide)), if_neg (by omega), if_neg (by omega),
          if_neg printed, if_neg (fun both => Bool.false_ne_true both.1)]
      unfold backslashed at ih ⊢
      rw [List.flatMap_cons, List.flatMap_cons, escaped,
        ih fun d inside => free d (List.mem_cons_of_mem c inside)]

/-- A reader that meets no mark stops between two characters, not behind a backslash. -/
theorem backslashed_of_skips (onward : Skips marks (backslashed cs) rest) :
    ∃ ds, rest = backslashed ds := by
  obtain ⟨used, same, free⟩ := onward
  induction cs generalizing used with
  | nil =>
      have empty := List.append_eq_nil_iff.mp same.symm
      exact ⟨[], empty.2⟩
  | cons c cs ih =>
      cases used with
      | nil => exact ⟨c :: cs, same.symm⟩
      | cons u used =>
          have first := free u List.mem_cons_self
          by_cases marked : c = '"' ∨ c = '\\'
          · rw [backslashed_cons_of_marked marked, List.cons_append, List.cons.injEq] at same
            rw [← same.1] at first
            exact absurd (by decide) first
          · rw [backslashed_cons_of_plain marked, List.cons_append, List.cons.injEq] at same
            exact ih used same.2 fun d inside => free d (List.mem_cons_of_mem u inside)

/-- The texts that still have the literal in front of them, with no quote before its own. -/
theorem unclosed_backslashed (closes : ∀ {s rest},
    JsonString.readLiteral JsonString.scalars ('"' :: t) = some (s, rest) → Stuck rest) :
    Unclosed f (fun cs => ∃ s, cs = backslashed s ++ '"' :: t) (fun _ => False) where
  live := by
    rintro _ ⟨s, rfl⟩ empty
    have blank := List.dropWhile_eq_nil_iff.mp empty '"'
      (List.mem_append_right _ List.mem_cons_self)
    cases blank
  skips := by
    rintro _ rest ⟨s, rfl⟩ onward
    obtain ⟨left, before, same⟩ := onward.before (by decide)
    obtain ⟨ds, rfl⟩ := backslashed_of_skips before
    exact ⟨ds, same⟩
  literal := by
    rintro _ rest s ⟨before, rfl⟩ read
    cases before with
    | nil => exact .inr (closes read)
    | cons c before =>
        by_cases marked : c = '"' ∨ c = '\\'
        · rw [backslashed_cons_of_marked marked] at read
          cases read
        · rw [backslashed_cons_of_plain marked, List.cons_append, JsonString.readLiteral,
            if_neg fun quote => marked (.inl quote)] at read
          cases read
  brace := by
    rintro cs ⟨before, same⟩
    cases before with
    | nil => cases same
    | cons c before =>
        by_cases marked : c = '"' ∨ c = '\\'
        · rw [backslashed_cons_of_marked marked] at same
          cases same
        · rw [backslashed_cons_of_plain marked, List.cons_append, List.cons.injEq] at same
          exact .inl ⟨before, same.2⟩
  whole := nofun

/-- The escaped text cannot open a literal, and the literal behind it closes too early. -/
theorem loads_backslashed (closes : ∀ {s rest},
    JsonString.readLiteral JsonString.scalars ('"' :: t) = some (s, rest) → Stuck rest)
    (s : List Char) :
    loads (.strict f) (String.ofList (backslashed s ++ '"' :: t)) = none :=
  (unclosed_backslashed closes).loads_none ⟨s, String.toList_ofList⟩ not_false

/-- A control character breaks the literal. -/
theorem readBody_control {n : ℕ} (control : ∃ c ∈ cs, isControl c = true) (rest : List Char) :
    JsonString.readBody n (backslashed cs ++ rest) = none := by
  induction cs generalizing n with
  | nil =>
      obtain ⟨c, inside, -⟩ := control
      cases inside
  | cons c cs ih =>
      have tail {n : ℕ} (free : isControl c = false) :
          JsonString.readBody n (backslashed cs ++ rest) = none := by
        obtain ⟨d, inside, found⟩ := control
        rcases List.mem_cons.mp inside with rfl | inside
        · cases free.symm.trans found
        · exact ih ⟨d, inside, found⟩
      cases n with
      | zero => rfl
      | succ n =>
          by_cases marked : c = '"' ∨ c = '\\'
          · have escape : JsonString.readChar ('\\' :: c :: (backslashed cs ++ rest)) =
                some (c.toNat, backslashed cs ++ rest) := by
              rcases marked with rfl | rfl
              · rfl
              · rfl
            have free : isControl c = false := by
              rcases marked with rfl | rfl
              · rfl
              · rfl
            rw [backslashed_cons_of_marked marked, List.cons_append, List.cons_append,
              JsonString.readBody, if_neg (by decide), escape]
            simp only [Option.bind_eq_bind, Option.bind_some, tail free, Option.bind_none]
          · rw [backslashed_cons_of_plain marked, List.cons_append, JsonString.readBody,
              if_neg fun quote => marked (.inl quote)]
            cases found : isControl c with
            | true =>
                have broken : JsonString.readChar (c :: (backslashed cs ++ rest)) = none := by
                  rw [JsonString.readChar, if_neg fun backslash => marked (.inr backslash),
                    if_pos (.inr (of_decide_eq_true found))]
                rw [broken]
                rfl
            | false =>
                have raw := JsonString.readChar_raw (fun quote => marked (.inl quote))
                  (fun backslash => marked (.inr backslash))
                  (Nat.le_of_not_lt (of_decide_eq_false found)) (backslashed cs ++ rest)
                rw [raw]
                simp only [Option.bind_eq_bind, Option.bind_some, tail found, Option.bind_none]

end backslashed

/-! ### Dictionaries without blanks -/

/-- A text that reads as the value, if it is one, whatever does not continue it. -/
structure ReadsAs (f : NumberText K) (text : List Char) (value : Option (Json K)) : Prop where
  solid : ∃ c tail, text = c :: tail ∧ isBlank c = false
  reads : ∀ {n rest}, text.length ≤ n → JsonNumber.Stops rest →
    readValue (.strict f) n (text ++ rest) = value.map fun j => (j, rest)

/-- A key, the text of its value, and what that reads as. -/
structure Piece (K : Type) where
  key : String
  text : List Char
  value : Option (Json K)

def Piece.field (p : Piece K) : Option (String × Json K) := p.value.map fun j => (p.key, j)

def Piece.written (p : Piece K) : List Char := JsonString.literal true p.key ++ ':' :: p.text

/-- The fields after the first, and the closing brace. -/
def tightFields : List (Piece K) → List Char
  | [] => ['\x7d']
  | p :: ps => ',' :: (p.written ++ tightFields ps)

def tightObject (p : Piece K) (ps : List (Piece K)) : List Char :=
  '\x7b' :: (p.written ++ tightFields ps)

section tight
variable {f : NumberText K} {text rest : List Char} {value : Option (Json K)}

theorem ReadsAs.skipBlank (r : ReadsAs f text value) (rest : List Char) :
    skipBlank (text ++ rest) = text ++ rest := by
  obtain ⟨c, tail, rfl, solid⟩ := r.solid
  exact skipBlank_cons solid _

theorem ReadsAs.loads (r : ReadsAs f text value) :
    loads (.strict f) (String.ofList text) = value := by
  have stops : JsonNumber.Stops [] := trivial
  have read := r.reads le_rfl stops
  have head := r.skipBlank []
  rw [List.append_nil] at read head
  unfold Johnny.loads
  rw [String.toList_ofList, head, read]
  cases value <;> rfl

theorem readsAs_int (f : NumberText K) (n : ℤ) :
    ReadsAs f (JsonNumber.intText n) (some (.int n)) where
  solid := by
    obtain ⟨c, tail, head, opens, -⟩ := intText_head n
    exact ⟨c, tail, head, opens.1⟩
  reads bound stops := readValue_strict f .compact 0 (.int n) trivial bound stops

theorem readsAs_false (f : NumberText K) : ReadsAs f "false".toList (some (.bool false)) where
  solid := ⟨'f', _, rfl, rfl⟩
  reads bound stops := readValue_strict f .compact 0 (.bool false) trivial bound stops

theorem readsAs_true (f : NumberText K) : ReadsAs f "true".toList (some (.bool true)) where
  solid := ⟨'t', _, rfl, rfl⟩
  reads bound stops := readValue_strict f .compact 0 (.bool true) trivial bound stops

/-- The literal of a text: its value where it has no control character, and else nothing. -/
theorem readsAs_backslashed (f : NumberText K) (cs : List Char) :
    ReadsAs f ('"' :: (backslashed cs ++ ['"']))
      (if cs.any isControl then none else some (.str (String.ofList cs))) where
  solid := ⟨'"', _, rfl, rfl⟩
  reads {n rest} bound stops := by
    cases n with
    | zero => cases bound
    | succ n =>
        rw [List.cons_append, readValue, if_pos rfl]
        cases found : cs.any isControl with
        | true =>
            have broken := readBody_control (n := (backslashed cs ++ ['"'] ++ rest).length)
              (List.any_eq_true.mp found) (['"'] ++ rest)
            rw [← List.append_assoc] at broken
            rw [JsonString.readLiteral, if_pos rfl, broken]
            rfl
        | false =>
            have free : ∀ c ∈ cs, isControl c = false := by
              intro c inside
              exact Bool.eq_false_iff.mpr fun control =>
                Bool.false_ne_true (found.symm.trans (List.any_eq_true.mpr ⟨c, inside, control⟩))
            have read := readLiteral_written (.strict f) false (String.ofList cs) rest
            unfold JsonString.literal at read
            rw [String.toList_ofList, ← backslashed_body free, List.cons_append] at read
            rw [read]
            rfl

theorem length_written (p : Piece K) : p.text.length < p.written.length := by
  simp only [Piece.written, List.length_append, List.length_cons]
  omega

/-- A field reads as its value does. -/
theorem readField_written {p : Piece K} (r : ReadsAs f p.text p.value) {n : ℕ}
    (bound : p.text.length ≤ n) (stops : JsonNumber.Stops rest) :
    readField (JsonReader.strict f).text (readValue (.strict f) n) (p.written ++ rest) =
      p.field.map fun e => (e, rest) := by
  unfold readField Piece.written Piece.field
  rw [List.append_assoc, readLiteral_written]
  simp only [Option.bind_eq_bind, Option.bind_some, List.cons_append, skipBlank_cons (c := ':') rfl,
    JsonString.expect, if_true, r.skipBlank, r.reads bound stops]
  cases p.value <;> rfl

theorem stops_tightFields (ps : List (Piece K)) (rest : List Char) :
    JsonNumber.Stops (tightFields ps ++ rest) := by
  cases ps with
  | nil => exact (rfl : JsonNumber.continues '\x7d' = false)
  | cons p ps => exact (rfl : JsonNumber.continues ',' = false)

theorem readFields_tight {ps : List (Piece K)} (each : ∀ p ∈ ps, ReadsAs f p.text p.value) {n : ℕ}
    (bound : (tightFields ps).length ≤ n) (rest : List Char) :
    readFields (.strict f) n (tightFields ps ++ rest) =
      (ps.mapM Piece.field).map fun es => (es, rest) := by
  induction ps generalizing n with
  | nil =>
      cases n with
      | zero => cases bound
      | succ n => rfl
  | cons p ps ih =>
      cases n with
      | zero => cases bound
      | succ n =>
          have shorter := length_written p
          simp only [tightFields, List.length_cons, List.length_append] at bound
          have first := readField_written (each p List.mem_cons_self) (n := n) (by omega)
            (stops_tightFields ps rest)
          have others := ih (fun q inside => each q (List.mem_cons_of_mem p inside)) (n := n)
            (by omega)
          have literal : skipBlank (p.written ++ (tightFields ps ++ rest)) =
              p.written ++ (tightFields ps ++ rest) := skipBlank_cons rfl _
          rw [tightFields, List.cons_append, List.append_assoc, readFields,
            skipBlank_cons (c := ',') rfl]
          dsimp only
          rw [if_neg (by decide), if_pos rfl, literal, first, List.mapM_cons]
          cases p.field with
          | none => rfl
          | some e =>
              simp only [Option.map_some, Option.bind_eq_bind, Option.bind_some, others]
              cases ps.mapM Piece.field <;> rfl

theorem readsAs_tight {p : Piece K} {ps : List (Piece K)}
    (each : ∀ q ∈ p :: ps, ReadsAs f q.text q.value) :
    ReadsAs f (tightObject p ps)
      (((p :: ps).mapM Piece.field).map fun es => .obj (dictOf es)) where
  solid := ⟨'\x7b', _, rfl, rfl⟩
  reads {n rest} bound stops := by
    cases n with
    | zero => cases bound
    | succ n =>
        have shorter := length_written p
        simp only [tightObject, List.length_cons, List.length_append] at bound
        have first := readField_written (each p List.mem_cons_self) (n := n) (by omega)
          (stops_tightFields ps rest)
        have others := readFields_tight (fun q inside => each q (List.mem_cons_of_mem p inside))
          (n := n) (by omega) rest
        have literal : skipBlank (p.written ++ (tightFields ps ++ rest)) =
            p.written ++ (tightFields ps ++ rest) := skipBlank_cons rfl _
        have opened : skipBlank (p.written ++ (tightFields ps ++ rest)) =
            '"' :: (JsonString.body true p.key.toList ++
              (':' :: (p.text ++ (tightFields ps ++ rest)))) := by
          rw [literal, Piece.written, JsonString.literal, List.cons_append, List.cons_append,
            List.append_assoc, List.cons_append]
        rw [tightObject, List.cons_append, List.append_assoc,
          readValue_fields (JsonReader.enter_strict f) opened, literal, first, List.mapM_cons]
        cases p.field with
        | none => rfl
        | some e =>
            simp only [Option.map_some, Option.bind_eq_bind, Option.bind_some, others]
            cases ps.mapM Piece.field <;> rfl

end tight

end Johnny
