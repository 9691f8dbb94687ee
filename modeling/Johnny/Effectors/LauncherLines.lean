import Johnny.Effectors.Sandbox

/-!
# The lines of the launcher

What the launcher prints around a container's stderr is the verdict that it means, or no JSON at
all: nothing that the stderr holds becomes a field of it. What the runner prints is its verdict, or
no JSON with what was left in front of it.
-/
namespace Johnny

/-- What the launcher shows of a stderr, before it is escaped. -/
def errChars (err : List UInt8) : List Char :=
  Utf8.decode (((err.take 1500).map trBlank).filter (· ≠ 0))

/-- The text breaks the line it is put in. -/
def Breaks (cs : List Char) : Prop := ∃ c ∈ cs, isLineBreak c = true ∨ isControl c = true

/-! ### Reading a verdict -/

section verdicts
variable {K : Type}

def asBool : Json K → Option Bool
  | .bool b => some b
  | _ => none

/-- An integer that is not too long. -/
def asInt : Json K → Option ℤ
  | .int n => if SandboxVerdict.writable n then some n else none
  | _ => none

def asText : Json K → Option String
  | .str s => some s
  | _ => none

/-- No error, or a dictionary of texts. -/
def asError : Json K → Option (Option (Dict K))
  | .null => some none
  | .obj d => if d.all fun e => (asText e.2).isSome then some (some d) else none
  | _ => none

/-- A field with its default. -/
def fieldOr {α : Type} (read : Json K → Option α) (default : α) (d : Dict K) (key : String) :
    Option α :=
  match dictGet d key with
  | none => some default
  | some j => read j

def fieldNames : List String :=
  ["ok", "timed_out", "exit_code", "stdout", "stderr", "truncated", "error", "duration_ms"]

/-- The verdict of a dictionary that has no other fields, and in each a value of its type. -/
def plainVerdict (d : Dict K) : Option (SandboxVerdict K) :=
  if d.all fun e => fieldNames.contains e.1 then do
    let ok ← (dictGet d "ok").bind asBool
    let timedOut ← fieldOr asBool false d "timed_out"
    let exitCode ← fieldOr asInt 0 d "exit_code"
    let stdout ← fieldOr asText "" d "stdout"
    let stderr ← fieldOr asText "" d "stderr"
    let truncated ← fieldOr asBool false d "truncated"
    let error ← fieldOr asError none d "error"
    let durationMs ← fieldOr asInt 0 d "duration_ms"
    some { ok, timedOut, exitCode, stdout, stderr, truncated, error, durationMs }
  else none

/-- What the validation of a model does with the text of one: it takes JSON objects only, and one
whose fields have their types as it is. -/
structure Validates (f : NumberText K) (validate : String → Except String (SandboxVerdict K)) :
    Prop where
  object : ∀ {line v}, validate line = .ok v → ∃ d, loads (.strict f) line = some (.obj d)
  plain : ∀ {line d v}, loads (.strict f) line = some (.obj d) → plainVerdict d = some v →
    validate line = .ok v

variable {f : NumberText K} {validate : String → Except String (SandboxVerdict K)}

theorem Validates.unique (valid : Validates f validate) {line : String} {d : Dict K}
    {v v' : SandboxVerdict K} (read : loads (.strict f) line = some (.obj d))
    (plain : plainVerdict d = some v) (accepted : validate line = .ok v') : v' = v := by
  have taken := valid.plain read plain
  rw [accepted] at taken
  exact Except.ok.inj taken

theorem Validates.rejects (valid : Validates f validate) {line : String}
    (read : loads (.strict f) line = none) (v : SandboxVerdict K) : validate line ≠ .ok v := by
  intro accepted
  obtain ⟨d, some⟩ := valid.object accepted
  rw [read] at some
  cases some

/-- The error of a runner's verdict is none, or one of texts. -/
def SandboxVerdict.Plain (v : SandboxVerdict K) : Prop :=
  SandboxVerdict.writable v.exitCode = true ∧ SandboxVerdict.writable v.durationMs = true ∧
    (v.error = none ∨ ∃ type message, v.error = errorOf type message)

theorem plainVerdict_fields {v : SandboxVerdict K} (plain : v.Plain) :
    plainVerdict v.fields = some v := by
  obtain ⟨exitCode, durationMs, error⟩ := plain
  have read : asError ((v.error.map Json.obj).getD .null : Json K) = some v.error := by
    rcases error with none | ⟨type, message, found⟩
    · rw [none]
      rfl
    · rw [found]
      rfl
  have code : asInt (.int v.exitCode : Json K) = some v.exitCode := if_pos exitCode
  have duration : asInt (.int v.durationMs : Json K) = some v.durationMs := if_pos durationMs
  have known : (v.fields.all fun e => fieldNames.contains e.1) = true := rfl
  unfold plainVerdict
  rw [if_pos known]
  change (do
    let exitCode ← asInt (.int v.exitCode : Json K)
    let error ← asError ((v.error.map Json.obj).getD .null : Json K)
    let durationMs ← asInt (.int v.durationMs : Json K)
    some (SandboxVerdict.mk v.ok v.timedOut exitCode v.stdout v.stderr v.truncated error
      durationMs)) = some v
  rw [code, duration, read]
  rfl

theorem fields_proper {v : SandboxVerdict K} (plain : v.Plain) : (Json.obj v.fields).Proper := by
  have error : ((v.error.map Json.obj).getD .null : Json K).Proper := by
    rcases plain.2.2 with none | ⟨type, message, found⟩
    · rw [none]
      trivial
    · rw [found]
      simp [errorOf, Json.Proper, FieldsProper]
  refine ⟨?_, ?_⟩
  · simp [SandboxVerdict.fields]
  · simp [SandboxVerdict.fields, Json.Proper, FieldsProper, error]

end verdicts
/-! ### The launcher's own lines -/

/-- Characters that stand for themselves in a literal and in a line. -/
def isTame (c : Char) : Bool := !(c == '"' || c == '\\' || isControl c || isLineBreak c)

theorem tame_cases {c : Char} (tame : isTame c = true) :
    ¬ (c = '"' ∨ c = '\\') ∧ isControl c = false ∧ isLineBreak c = false := by
  simp only [isTame, Bool.not_eq_true', Bool.or_eq_false_iff, beq_eq_false_iff_ne] at tame
  exact ⟨not_or.mpr ⟨tame.1.1.1, tame.1.1.2⟩, tame.1.2, tame.2⟩

theorem backslashed_of_tame {cs : List Char} (tame : cs.all isTame = true) : backslashed cs = cs := by
  induction cs with
  | nil => rfl
  | cons c cs ih =>
      rw [List.all_cons, Bool.and_eq_true] at tame
      rw [backslashed_cons_of_plain (tame_cases tame.1).1, ih tame.2]

theorem tame_digits (n : ℕ) : (Nat.toDigits 10 n).all isTame = true := by
  rw [List.all_eq_true]
  intro c inside
  have digit := Nat.isDigit_of_mem_toDigits (by decide) (by decide) inside
  simp only [Char.isDigit, Bool.and_eq_true, decide_eq_true_eq] at digit
  have lower : 48 ≤ c.toNat := digit.1
  have upper : c.toNat ≤ 57 := digit.2
  have other (d : Char) (apart : d.toNat < 48 ∨ 57 < d.toNat) : (c == d) = false := by
    refine beq_false_of_ne ?_
    rintro rfl
    omega
  have control : isControl c = false := decide_eq_false (by omega)
  have lineBreak : isLineBreak c = false := by
    simp only [isLineBreak, Bool.or_eq_false_iff, Bool.and_eq_false_iff, decide_eq_false_iff_not,
      beq_eq_false_iff_ne]
    omega
  simp only [isTame, other '"' (.inl (by decide)), other '\\' (.inr (by decide)), control,
    lineBreak, Bool.or_self, Bool.not_false]

theorem toString_nat (n : ℕ) : (toString n).toList = JsonNumber.intText n := String.toList_ofList

theorem tame_int (n : ℤ) : (toString n).toList.all isTame = true := by
  cases n with
  | ofNat n =>
      have text : (toString (Int.ofNat n)).toList = Nat.toDigits 10 n := String.toList_ofList
      rw [text]
      exact tame_digits n
  | negSucc n =>
      have text : (toString (Int.negSucc n)).toList = "-".toList ++ Nat.toDigits 10 (n + 1) := by
        rw [← String.toList_ofList (l := Nat.toDigits 10 (n + 1)), ← String.toList_append]
        rfl
      rw [text, List.all_append, tame_digits]
      rfl

section printf
variable {K : Type} {f : NumberText K} {cs : List Char} {type message : String}

/-- A text in quotes. -/
def quoted (cs : List Char) : List Char := '"' :: (backslashed cs ++ ['"'])

/-- The value of a quoted text, if it is one. -/
def quotedValue (cs : List Char) : Option (Json K) :=
  if cs.any isControl then none else some (.str (String.ofList cs))

def errorPiece (type message : String) : Piece K where
  key := "error"
  text := tightObject (K := K) ⟨"type", quoted type.toList, some (.str type)⟩
    [⟨"message", quoted message.toList, some (.str message)⟩]
  value := some (.obj [("type", .str type), ("message", .str message)])

def durationPiece (durationMs : ℕ) : Piece K :=
  ⟨"duration_ms", JsonNumber.intText durationMs, some (.int durationMs)⟩

/-- The fields behind the first. -/
def printfPieces (timedOut : Bool) (exitCode : ℕ) (cs : List Char) (type message : String)
    (durationMs : ℕ) : List (Piece K) :=
  [⟨"timed_out", (if timedOut then "true" else "false").toList, some (.bool timedOut)⟩,
    ⟨"exit_code", JsonNumber.intText exitCode, some (.int exitCode)⟩,
    ⟨"stdout", quoted [], some (.str "")⟩, ⟨"stderr", quoted cs, quotedValue cs⟩,
    errorPiece type message, durationPiece durationMs]

def okPiece : Piece K := ⟨"ok", "false".toList, some (.bool false)⟩

/-- What the launcher prints in front of the stderr. -/
def printfFront (timedOut : Bool) (exitCode : ℕ) : List Char :=
  ("\x7b\"ok\":false,\"timed_out\":" ++ (if timedOut then "true" else "false") ++
    ",\"exit_code\":" ++ toString exitCode ++ ",\"stdout\":\"\",\"stderr\":\"").toList

theorem printf_object (timedOut : Bool) (exitCode : ℕ) (cs : List Char) (type message : String)
    (durationMs : ℕ) :
    printfFront timedOut exitCode ++ backslashed cs ++ ('"' :: tightFields
        [(errorPiece type message : Piece K), durationPiece durationMs]) =
      tightObject (okPiece : Piece K)
        (printfPieces timedOut exitCode cs type message durationMs) := by
  unfold printfFront
  simp only [String.toList_append, toString_nat, tightObject, okPiece, printfPieces, tightFields,
    Piece.written, quoted, List.append_assoc, List.cons_append, List.nil_append]
  rfl

theorem printf_chars (tame : type.toList.all isTame = true)
    (tame' : message.toList.all isTame = true) (durationMs : ℕ) :
    ("\",\"error\":\x7b\"type\":\"" ++ type ++ "\",\"message\":\"" ++ message ++
      "\"\x7d,\"duration_ms\":" ++ toString durationMs ++ "\x7d\n").toList =
      '"' :: (tightFields [(errorPiece type message : Piece K), durationPiece durationMs] ++
        ['\n']) := by
  simp only [String.toList_append, toString_nat, List.append_assoc]
  simp only [tightObject, errorPiece, durationPiece, tightFields, Piece.written, quoted,
    backslashed_of_tame tame, backslashed_of_tame tame', List.append_assoc, List.cons_append,
    List.nil_append]
  rfl

theorem readsAs_quoted (f : NumberText K) (cs : List Char) :
    ReadsAs f (quoted cs) (quotedValue cs) := readsAs_backslashed f cs

theorem readsAs_tame (f : NumberText K) {text : String} (tame : text.toList.all isTame = true) :
    ReadsAs f (quoted text.toList) (some (.str text)) := by
  have read := readsAs_quoted f text.toList
  have free : text.toList.any isControl = false := by
    rw [List.any_eq_false]
    intro c inside
    rw [(tame_cases (List.all_eq_true.mp tame c inside)).2.1]
    exact Bool.false_ne_true
  unfold quotedValue at read
  rwa [free, if_neg Bool.false_ne_true, String.ofList_toList] at read

theorem readsAs_pieces (f : NumberText K) (timedOut : Bool) (exitCode : ℕ) (cs : List Char)
    (tame : type.toList.all isTame = true) (tame' : message.toList.all isTame = true)
    (durationMs : ℕ) :
    ∀ p ∈ okPiece :: printfPieces timedOut exitCode cs type message durationMs,
      ReadsAs f p.text p.value := by
  have flag : ReadsAs f (if timedOut then "true" else "false").toList (some (.bool timedOut)) := by
    cases timedOut with
    | true => exact readsAs_true f
    | false => exact readsAs_false f
  have error : ReadsAs f (errorPiece type message : Piece K).text
      (errorPiece type message : Piece K).value := by
    refine readsAs_tight (List.forall_mem_cons.mpr ⟨readsAs_tame f tame, ?_⟩)
    exact List.forall_mem_singleton.mpr (readsAs_tame f tame')
  unfold printfPieces
  simp only [List.forall_mem_cons]
  exact ⟨readsAs_false f, flag, readsAs_int f exitCode, readsAs_quoted f [], readsAs_quoted f cs,
    error, readsAs_int f durationMs, List.forall_mem_nil _⟩

/-- The dictionary that the launcher means to print. -/
def printfFields (timedOut : Bool) (exitCode : ℕ) (cs : List Char) (type message : String)
    (durationMs : ℕ) : Dict K :=
  [("ok", .bool false), ("timed_out", .bool timedOut), ("exit_code", .int exitCode),
    ("stdout", .str ""), ("stderr", .str (String.ofList cs)),
    ("error", .obj [("type", .str type), ("message", .str message)]),
    ("duration_ms", .int durationMs)]

theorem loads_object (f : NumberText K) (timedOut : Bool) (exitCode : ℕ) (cs : List Char)
    (tame : type.toList.all isTame = true) (tame' : message.toList.all isTame = true)
    (durationMs : ℕ) :
    loads (.strict f) (String.ofList (tightObject (okPiece : Piece K)
      (printfPieces timedOut exitCode cs type message durationMs))) =
      if cs.any isControl then none
      else some (.obj (printfFields timedOut exitCode cs type message durationMs)) := by
  rw [(readsAs_tight (readsAs_pieces f timedOut exitCode cs tame tame' durationMs)).loads]
  unfold printfPieces quotedValue
  cases cs.any isControl with
  | true => rfl
  | false => rfl

/-- What stands behind the stderr does not begin as a value can. -/
theorem behind_closes {s : String} {rest : List Char}
    (read : JsonString.readLiteral JsonString.scalars
      ('"' :: tightFields [(errorPiece type message : Piece K), durationPiece durationMs]) =
        some (s, rest)) : Stuck rest := by
  let tail := "rror\":".toList ++ ((errorPiece type message : Piece K).text ++
    tightFields [(durationPiece durationMs : Piece K)])
  have literal := JsonString.readLiteral_literal JsonString.scalars true "," ('e' :: tail)
  rw [JsonString.scalars_toNat, Option.map_some] at literal
  have same : JsonString.literal true "," ++ 'e' :: tail = '"' :: tightFields
      [(errorPiece type message : Piece K), durationPiece durationMs] := by
    have key : JsonString.literal true "error" = "\"error\"".toList := rfl
    simp only [tail, tightFields, Piece.written, List.append_assoc, List.cons_append]
    change _ = '"' :: ',' :: (JsonString.literal true "error" ++ _)
    rw [key]
    rfl
  rw [← same, literal] at read
  cases read
  exact ⟨'e', tail, rfl, by decide⟩

theorem behind_shape (type message : String) (durationMs : ℕ) :
    ∃ middle, '"' :: tightFields [(errorPiece type message : Piece K), durationPiece durationMs] =
      '"' :: (middle ++ ['\x7d']) := by
  refine ⟨',' :: ((errorPiece type message : Piece K).written ++
    ',' :: (durationPiece durationMs : Piece K).written), ?_⟩
  simp only [tightFields, List.cons_append, List.append_assoc]

theorem tame_free {cs : List Char} (tame : cs.all isTame = true) :
    ∀ c ∈ cs, isLineBreak c = false := fun c inside =>
  (tame_cases (List.all_eq_true.mp tame c inside)).2.2

theorem behind_free (tame : type.toList.all isTame = true)
    (tame' : message.toList.all isTame = true) (durationMs : ℕ) :
    ∀ c ∈ '"' :: tightFields [(errorPiece type message : Piece K), durationPiece durationMs],
      isLineBreak c = false := by
  have fixed (cs : List Char) (plain : cs.all (fun c => !isLineBreak c) = true) :
      ∀ c ∈ cs, isLineBreak c = false := fun c inside => by
    have other := List.all_eq_true.mp plain c inside
    rwa [Bool.not_eq_true'] at other
  have digits : ∀ c ∈ JsonNumber.intText (durationMs : ℤ), isLineBreak c = false :=
    tame_free (tame_digits durationMs)
  simp only [tightObject, errorPiece, durationPiece, tightFields, Piece.written, quoted,
    backslashed_of_tame tame, backslashed_of_tame tame', List.forall_mem_cons,
    List.forall_mem_append]
  refine ⟨rfl, rfl, ⟨fixed _ rfl, rfl, rfl, ⟨fixed _ rfl, rfl, rfl, tame_free tame, rfl,
    List.forall_mem_nil _⟩, rfl, ⟨fixed _ rfl, rfl, rfl, tame_free tame', rfl,
      List.forall_mem_nil _⟩, rfl, List.forall_mem_nil _⟩, rfl, ⟨fixed _ rfl, rfl, digits⟩, rfl,
    List.forall_mem_nil _⟩

theorem front_shape (timedOut : Bool) (exitCode : ℕ) :
    (∃ tail, printfFront timedOut exitCode = '\x7b' :: tail) ∧
      ∀ c ∈ printfFront timedOut exitCode, isLineBreak c = false := by
  have fixed (cs : List Char) (plain : cs.all (fun c => !isLineBreak c) = true) :
      ∀ c ∈ cs, isLineBreak c = false := fun c inside => by
    have other := List.all_eq_true.mp plain c inside
    rwa [Bool.not_eq_true'] at other
  have flag : ∀ c ∈ (if timedOut then "true" else "false").toList, isLineBreak c = false := by
    cases timedOut with
    | true => exact fixed _ rfl
    | false => exact fixed _ rfl
  unfold printfFront
  simp only [String.toList_append, toString_nat, List.forall_mem_append]
  refine ⟨⟨_, rfl⟩, ⟨⟨⟨fixed _ rfl, flag⟩, fixed _ rfl⟩, tame_free (tame_digits exitCode)⟩,
    fixed _ rfl⟩

/-- The launcher prints one line around the stderr. -/
theorem decode_printf (timedOut : Bool) (exitCode : ℕ) {stderr : List UInt8}
    (escaped : Utf8.decode stderr = backslashed cs) (tame : type.toList.all isTame = true)
    (tame' : message.toList.all isTame = true) (durationMs : ℕ) :
    Utf8.decode (printfVerdict timedOut exitCode stderr type message durationMs) =
      printfFront timedOut exitCode ++ backslashed cs ++ (('"' :: tightFields
        [(errorPiece type message : Piece K), durationPiece durationMs]) ++ ['\n']) := by
  unfold printfVerdict
  have read := Utf8.decode_append_encode (Utf8.encode (printfFront timedOut exitCode) ++ stderr)
    (c := '"') (by decide) (tightFields [(errorPiece type message : Piece K),
      durationPiece durationMs] ++ ['\n']) []
  rw [printf_chars (K := K) tame tame' durationMs]
  change Utf8.decode (Utf8.encode (printfFront timedOut exitCode) ++ stderr ++ _) = _
  rw [List.append_nil] at read
  rw [read, Utf8.decode_encode_append, escaped]
  exact List.append_nil _

/-- The line that the tool finds of it is JSON where nothing in the stderr breaks it, and then it
is the dictionary. -/
theorem printf_line (f : NumberText K) (timedOut : Bool) (exitCode : ℕ) {stderr : List UInt8}
    (escaped : Utf8.decode stderr = backslashed cs) (tame : type.toList.all isTame = true)
    (tame' : message.toList.all isTame = true) (durationMs : ℕ) :
    ∃ line, lastJsonLine (decodeOutput
        (printfVerdict timedOut exitCode stderr type message durationMs)) = some line ∧
      ((Breaks cs ∧ loads (.strict f) line = none) ∨ (¬ Breaks cs ∧ loads (.strict f) line =
        some (.obj (printfFields timedOut exitCode cs type message durationMs)))) := by
  have chars := decode_printf (K := K) timedOut exitCode escaped tame tame' durationMs
  obtain ⟨middle, shape⟩ := behind_shape (K := K) type message durationMs
  obtain ⟨⟨head, front⟩, frontFree⟩ := front_shape timedOut exitCode
  have found := lastJsonLine_append shape (by decide) (by decide)
    (behind_free (K := K) tame tame' durationMs) (printfFront timedOut exitCode ++ backslashed cs)
  unfold decodeOutput
  rw [chars, found]
  refine ⟨_, rfl, ?_⟩
  have left : unfinished [] (printfFront timedOut exitCode ++ backslashed cs) =
      unfinished (printfFront timedOut exitCode).reverse (backslashed cs) := by
    rw [unfinished_append, unfinished_free frontFree]
    rfl
  by_cases broken : ∃ c ∈ cs, isLineBreak c = true
  · left
    obtain ⟨ds, cut⟩ := unfinished_backslashed broken (printfFront timedOut exitCode).reverse
    have onward : Skips marks (backslashed ds) ((backslashed ds).dropWhile isSpace) := by
      refine Skips.dropWhile (fun c space among => ?_) _
      simp only [marks, List.mem_cons, List.not_mem_nil, or_false] at among
      rcases among with rfl | rfl | rfl <;> cases space
    obtain ⟨es, same⟩ := backslashed_of_skips onward
    obtain ⟨c, inside, breaks⟩ := broken
    refine ⟨⟨c, inside, .inl breaks⟩, ?_⟩
    rw [left, cut, same]
    exact loads_backslashed behind_closes es
  · have free : ∀ c ∈ cs, isLineBreak c = false := fun c inside =>
      Bool.eq_false_iff.mpr fun breaks => broken ⟨c, inside, breaks⟩
    have whole : (unfinished (printfFront timedOut exitCode).reverse (backslashed cs)).dropWhile
        isSpace = printfFront timedOut exitCode ++ backslashed cs := by
      rw [unfinished_free (backslashed_free free), List.reverse_reverse, front]
      rfl
    have read := loads_object f timedOut exitCode cs tame tame' durationMs
    rw [← printf_object] at read
    rw [left, whole, read]
    cases control : cs.any isControl with
    | true =>
        obtain ⟨c, inside, controls⟩ := List.any_eq_true.mp control
        exact .inl ⟨⟨c, inside, .inr controls⟩, rfl⟩
    | false =>
        refine .inr ⟨?_, rfl⟩
        rintro ⟨c, inside, breaks | controls⟩
        · exact broken ⟨c, inside, breaks⟩
        · rw [List.any_eq_false] at control
          exact control c inside controls

end printf

/-! ### What the tool takes from a line -/

section accepted
variable {K : Type} {f : NumberText K} {validate : String → Except String (SandboxVerdict K)}

theorem writable_of_lt {n : ℕ} (small : n < 2 ^ 63) : SandboxVerdict.writable n = true := by
  have powers : 10 ^ 63 ≤ 10 ^ SandboxVerdict.maxStrDigits :=
    Nat.pow_le_pow_right (by decide) (by decide)
  unfold SandboxVerdict.writable
  rw [Int.natAbs_natCast]
  exact decide_eq_true (lt_of_lt_of_le (small.trans (by norm_num)) powers)

def printfResult (timedOut : Bool) (exitCode : ℕ) (cs : List Char) (type message : String)
    (durationMs : ℕ) : SandboxVerdict K where
  ok := false
  timedOut
  exitCode
  stderr := String.ofList cs
  error := errorOf type message
  durationMs

theorem plainVerdict_printf (timedOut : Bool) {exitCode : ℕ} (code : exitCode < 2 ^ 63)
    (cs : List Char) (type message : String) {durationMs : ℕ} (duration : durationMs < 2 ^ 63) :
    plainVerdict (printfFields timedOut exitCode cs type message durationMs : Dict K) =
      some (printfResult timedOut exitCode cs type message durationMs) := by
  have codeRead : asInt (.int exitCode : Json K) = some exitCode := if_pos (writable_of_lt code)
  have durationRead : asInt (.int durationMs : Json K) = some durationMs :=
    if_pos (writable_of_lt duration)
  have known : ((printfFields timedOut exitCode cs type message durationMs : Dict K).all
    fun e => fieldNames.contains e.1) = true := rfl
  unfold plainVerdict
  rw [if_pos known]
  change (do
    let exitCode ← asInt (.int exitCode : Json K)
    let durationMs ← asInt (.int durationMs : Json K)
    some (SandboxVerdict.mk false timedOut exitCode "" (String.ofList cs) false
      (errorOf type message) durationMs)) = _
  rw [codeRead, durationRead]
  rfl

/-- A verdict that the launcher printed is taken as it was meant, or not at all. -/
theorem printf_accepted (valid : Validates f validate) (timedOut : Bool) {exitCode : ℕ}
    (code : exitCode < 2 ^ 63) {stderr : List UInt8} {cs : List Char}
    (escaped : Utf8.decode stderr = backslashed cs) {type message : String}
    (tame : type.toList.all isTame = true) (tame' : message.toList.all isTame = true)
    {durationMs : ℕ} (duration : durationMs < 2 ^ 63) (P : SandboxVerdict K → Prop) :
    ∃ line, lastJsonLine (decodeOutput
        (printfVerdict timedOut exitCode stderr type message durationMs)) = some line ∧
      ((∀ v, validate line = .ok v → P v) ↔
        Breaks cs ∨ P (printfResult timedOut exitCode cs type message durationMs)) := by
  obtain ⟨line, found, read⟩ :=
    printf_line f timedOut exitCode escaped tame tame' durationMs
  refine ⟨line, found, ?_⟩
  have plain := plainVerdict_printf (K := K) timedOut code cs type message duration
  rcases read with ⟨breaks, none⟩ | ⟨whole, some⟩
  · exact iff_of_true (fun v accepted => absurd accepted (valid.rejects none v)) (.inl breaks)
  · rw [or_iff_right whole]
    constructor
    · intro all
      exact all _ (valid.plain some plain)
    · intro holds v accepted
      rwa [valid.unique some plain accepted]

theorem isSpace_of_isBlank {c : Char} (blank : isBlank c = true) : isSpace c = true := by
  simp only [isBlank, Bool.or_eq_true, beq_iff_eq] at blank
  rcases blank with ((rfl | rfl) | rfl) | rfl <;> rfl

theorem isLineBreak_of_printable {c : Char} (printed : JsonString.printable c = true) :
    isLineBreak c = false := by
  unfold JsonString.printable at printed
  rw [Bool.and_eq_true, decide_eq_true_eq, decide_eq_true_eq] at printed
  simp only [isLineBreak, Bool.or_eq_false_iff, Bool.and_eq_false_iff, decide_eq_false_iff_not,
    beq_eq_false_iff_ne]
  omega

theorem decode_emit (f : NumberText K) (v : SandboxVerdict K) (before : List UInt8) :
    Utf8.decode (before ++ emit f v) =
      Utf8.decode before ++ (writeValue f .compact 0 (.obj v.fields) ++ ['\n']) := by
  obtain ⟨middle, shape⟩ := writeValue_braces f .compact 0 v.fields
  have read := Utf8.decode_append_encode before (c := '\x7b') (by decide)
    (middle ++ ['\x7d'] ++ ['\n']) []
  unfold emit dumps
  rw [String.toList_ofList, shape, List.cons_append]
  rw [List.append_nil] at read
  rw [read]
  exact List.append_nil _

/-- The verdict of the runner is taken as it is, or not at all if there is something in front of it
on its line. -/
theorem emit_accepted (valid : Validates f validate) {v : SandboxVerdict K} (plain : v.Plain)
    (before : List UInt8) (P : SandboxVerdict K → Prop) :
    ∃ line, lastJsonLine (decodeOutput (before ++ emit f v)) = some line ∧
      ((∀ u, validate line = .ok u → P u) ↔
        (∃ c ∈ unfinished [] (Utf8.decode before), isSpace c = false) ∨ P v) := by
  obtain ⟨middle, shape⟩ := writeValue_braces f .compact 0 v.fields
  have free : ∀ c ∈ writeValue f .compact 0 (.obj v.fields), isLineBreak c = false :=
    fun c inside => isLineBreak_of_printable (writeValue_printed f 0 _ c inside)
  have found := lastJsonLine_append shape (by decide) (by decide) free (Utf8.decode before)
  unfold decodeOutput
  rw [decode_emit, found]
  refine ⟨_, rfl, ?_⟩
  have proper := fields_proper plain
  by_cases front : ∃ c ∈ unfinished [] (Utf8.decode before), isSpace c = false
  · refine iff_of_true (fun u accepted => ?_) (.inl front)
    obtain ⟨c, inside, solid⟩ := front
    have left : (unfinished [] (Utf8.decode before)).dropWhile isSpace ≠ [] := by
      intro empty
      have space := List.dropWhile_eq_nil_iff.mp empty c inside
      rw [solid] at space
      cases space
    obtain ⟨d, tail, head⟩ := List.exists_cons_of_ne_nil left
    have solid : isSpace d = false := by
      have first := List.head?_dropWhile_not isSpace (unfinished [] (Utf8.decode before))
      rw [head] at first
      exact first
    have solidLeft : ∃ d ∈ (unfinished [] (Utf8.decode before)).dropWhile isSpace,
        isBlank d = false :=
      ⟨d, by rw [head]; exact List.mem_cons_self, Bool.eq_false_iff.mpr fun blank =>
        Bool.false_ne_true (solid.symm.trans (isSpace_of_isBlank blank))⟩
    have none := loads_before (f := f) .compact proper rfl rfl rfl (by decide) rfl solidLeft
    exact absurd accepted (valid.rejects none u)
  · have blank : (unfinished [] (Utf8.decode before)).dropWhile isSpace = [] := by
      rw [List.dropWhile_eq_nil_iff]
      intro c inside
      cases space : isSpace c with
      | true => rfl
      | false => exact absurd ⟨c, inside, space⟩ front
    have read := loads_strict f .compact proper
    rw [blank, List.nil_append, or_iff_right front]
    constructor
    · intro all
      exact all v (valid.plain read (plainVerdict_fields plain))
    · intro holds u accepted
      rwa [valid.unique read (plainVerdict_fields plain) accepted]

end accepted

/-- Nothing is shown of nothing only. -/
theorem readCapped_eq_empty (outputMax : ℕ) {file : List UInt8} :
    (readCapped outputMax file).1 = "" ↔ file = [] := by
  constructor
  · intro empty
    unfold readCapped at empty
    dsimp only at empty
    split_ifs at empty with truncated
    · have notice := congrArg String.toList empty
      rw [String.toList_append] at notice
      exact absurd (List.append_eq_nil_iff.mp notice).2 (by decide)
    · have chars := congrArg String.toList empty
      unfold decodeOutput at chars
      rw [String.toList_ofList] at chars
      have short := Nat.le_of_not_lt fun long => truncated (decide_eq_true long)
      rw [List.take_of_length_le short] at chars
      have none := Utf8.decode_eq_nil.mp chars
      rcases List.take_eq_nil_iff.mp none with zero | empty
      · cases zero
      · exact empty
  · rintro rfl
    unfold readCapped
    simp only [List.take_nil, List.length_nil, Nat.not_lt_zero, decide_false]
    rfl

theorem errText_decode (err : List UInt8) :
    Utf8.decode (errText err) = backslashed (errChars err) := by
  have filtered (bytes : List UInt8) : (sedEscape bytes).filter (· ≠ 0) =
      (bytes.filter (· ≠ 0)).flatMap (Utf8.markByte [34, 92] 92) := by
    unfold sedEscape
    induction bytes with
    | nil => rfl
    | cons b bytes ih =>
        rw [List.flatMap_cons, List.filter_append, ih]
        by_cases zero : b = 0
        · subst zero
          rfl
        · have kept (rest : List UInt8) : (b :: rest).filter (· ≠ 0) = b :: rest.filter (· ≠ 0) :=
            List.filter_cons_of_pos (by exact decide_eq_true zero)
          have lead (rest : List UInt8) : ((92 : UInt8) :: rest).filter (· ≠ 0) =
              92 :: rest.filter (· ≠ 0) := rfl
          rw [kept, List.flatMap_cons]
          congr 1
          unfold Utf8.markByte
          split
          · rw [lead, kept]
            rfl
          · rw [kept]
            rfl
  have marked : Utf8.markChar [34, 92] 92 =
      fun c => if c = '"' ∨ c = '\\' then ['\\', c] else [c] := by
    funext c
    have same : c.toNat ∈ [34, 92] ↔ c = '"' ∨ c = '\\' := by
      rw [List.mem_cons, List.mem_singleton]
      constructor
      · rintro (quote | backslash)
        · exact .inl (by rw [← Char.ofNat_toNat c, quote])
        · exact .inr (by rw [← Char.ofNat_toNat c, backslash])
      · rintro (rfl | rfl)
        · exact .inl rfl
        · exact .inr rfl
    unfold Utf8.markChar
    simp only [same]
    rfl
  unfold errText errChars backslashed
  rw [filtered, Utf8.decode_markByte (by decide) (by decide), marked]

end Johnny
