import Johnny.Foundation.JsonText

/-!
# Rows on disk

Every store of a snapshot is a file of JSON lines, one line a row: its columns under their
names, with timestamps in ISO format. Reading one back gives the keyword arguments of its
model class.
-/
namespace Johnny

/-- `isoformat` and `datetime.fromisoformat`. -/
structure TimeText (T : Type) where
  isoformat : T → String
  fromisoformat : PyText → Except Failure T
  reads : ∀ t, fromisoformat (points (isoformat t)) = .ok t

inductive ColumnKind where
  | int
  | float
  | text
  | texts
  | ints
  | floats
  /-- A JSON object. -/
  | object
  /-- A JSON list. -/
  | list
  | time
  | maybeTime
  deriving DecidableEq

/-- What a row holds in a column. -/
inductive Cell (K T : Type) where
  | int (n : ℤ)
  | float (x : K)
  | text (s : String)
  | texts (ss : List String)
  | ints (ns : List ℤ)
  | floats (xs : List K)
  | object (fields : Dict K)
  | list (items : List (Json K))
  | time (t : T)
  | maybeTime (t : Option T)

/-- A dictionary as `json.loads` returns it. -/
abbrev PyDict (K : Type) := List (PyText × Json K PyText)

/-- A keyword argument of a model class. -/
inductive Argument (K T : Type) where
  | json (j : Json K PyText)
  | time (t : T)

abbrev Arguments (K T : Type) := List (PyText × Argument K T)

abbrev Columns := List (String × ColumnKind)

abbrev Row (K T : Type) := List (Cell K T)

variable {K T : Type}

namespace Cell

def kind : Cell K T → ColumnKind
  | .int _ => .int
  | .float _ => .float
  | .text _ => .text
  | .texts _ => .texts
  | .ints _ => .ints
  | .floats _ => .floats
  | .object _ => .object
  | .list _ => .list
  | .time _ => .time
  | .maybeTime _ => .maybeTime

/-- The value in the dictionary of a row. -/
def json (times : TimeText T) : Cell K T → Json K
  | .int n => .int n
  | .float x => .num x
  | .text s => .str s
  | .texts ss => .arr (ss.map .str)
  | .ints ns => .arr (ns.map .int)
  | .floats xs => .arr (xs.map .num)
  | .object fields => .obj fields
  | .list items => .arr items
  | .time t => .str (times.isoformat t)
  | .maybeTime none => .null
  | .maybeTime (some t) => .str (times.isoformat t)

/-- The keyword argument that stands for it. -/
def argument : Cell K T → Argument K T
  | .int n => .json (.int n)
  | .float x => .json (.num x)
  | .text s => .json (.str (points s))
  | .texts ss => .json (.arr (mapItems points (ss.map .str)))
  | .ints ns => .json (.arr (mapItems points (ns.map .int)))
  | .floats xs => .json (.arr (mapItems points (xs.map .num)))
  | .object fields => .json (.obj (mapFields points fields))
  | .list items => .json (.arr (mapItems points items))
  | .time t => .time t
  | .maybeTime none => .json .null
  | .maybeTime (some t) => .time t

/-- The JSON inside has no key twice. -/
def Proper : Cell K T → Prop
  | .object fields => (Json.obj fields).Proper
  | .list items => ItemsProper items
  | _ => True

end Cell

/-! ### The projections -/

def rowDict (columns : Columns) (times : TimeText T) (row : Row K T) : Dict K :=
  columns.zipWith (fun column cell => (column.1, cell.json times)) row

def keyError (key : String) : Failure := .exception (.other "KeyError") ("'" ++ key ++ "'")

def notText : Failure :=
  .exception (.other "TypeError") "fromisoformat: argument must be str"

/-- `datetime.fromisoformat(d[name])`. -/
def timeArgument (times : TimeText T) (d : PyDict K) (name : String) :
    Except Failure (Argument K T) :=
  match dictGet d (points name) with
  | none => .error (keyError name)
  | some (.str s) => (times.fromisoformat s).map .time
  | some _ => .error notText

/-- `datetime.fromisoformat(value) if value is not None else None`, of `d.get(name)`. -/
def maybeTimeArgument (times : TimeText T) (d : PyDict K) (name : String) :
    Except Failure (Argument K T) :=
  match (dictGet d (points name)).getD .null with
  | .null => .ok (.json .null)
  | .str s => (times.fromisoformat s).map .time
  | _ => .error notText

/-- A timestamp of the row takes the place of its text. -/
def readColumn (times : TimeText T) (d : PyDict K) (arguments : Arguments K T)
    (column : String × ColumnKind) : Except Failure (Arguments K T) :=
  match column.2 with
  | .time => (timeArgument times d column.1).map (dictSet arguments (points column.1))
  | .maybeTime => (maybeTimeArgument times d column.1).map (dictSet arguments (points column.1))
  | _ => .ok arguments

def asArgument (field : PyText × Json K PyText) : PyText × Argument K T := (field.1, .json field.2)

/-- `{**d, name: ...}`, with the timestamps among the columns read. -/
def rowArguments (columns : Columns) (times : TimeText T) (d : PyDict K) :
    Except Failure (Arguments K T) :=
  columns.foldlM (readColumn times d) (d.map asArgument)

/-! ### The tables -/

def episodeColumns : Columns :=
  [("id", .int), ("ts", .time), ("kind", .text), ("content", .text), ("actors", .texts),
    ("emotion_tags", .texts), ("salience", .float), ("embedding", .floats)]

def factColumns : Columns :=
  [("id", .int), ("subject", .text), ("predicate", .text), ("object", .text),
    ("confidence", .float), ("source_episode_ids", .ints), ("embedding", .floats),
    ("created_at", .time), ("updated_at", .time)]

def edgeColumns : Columns :=
  [("id", .int), ("from_fact", .int), ("to_fact", .int), ("relation", .text)]

def skillColumns : Columns :=
  [("id", .int), ("name", .text), ("recipe", .object), ("success_rate", .float), ("uses", .int),
    ("successes", .int), ("embedding", .floats), ("created_at", .time), ("updated_at", .time)]

def identityColumns : Columns :=
  [("id", .int), ("name", .text), ("self_model_doc", .text), ("values", .list),
    ("concerns", .list), ("relationships", .object), ("version", .int), ("created_at", .time)]

def driveColumns : Columns :=
  [("drive", .text), ("value", .float), ("setpoint", .float), ("accrual_rate", .float),
    ("decay_rate", .float), ("threshold", .float), ("updated_at", .time)]

def moodColumns : Columns :=
  [("id", .int), ("ts", .time), ("valence", .float), ("arousal", .float), ("emotions", .object)]

def goalColumns : Columns :=
  [("id", .int), ("source", .text), ("description", .text), ("priority", .float),
    ("status", .text), ("plan", .object), ("outcome", .object), ("created_at", .time),
    ("resolved_at", .maybeTime)]

section projections
variable (times : TimeText T)

def episodeDict : Row K T → Dict K := rowDict episodeColumns times

def episodeRow : PyDict K → Except Failure (Arguments K T) := rowArguments episodeColumns times

def factDict : Row K T → Dict K := rowDict factColumns times

def factRow : PyDict K → Except Failure (Arguments K T) := rowArguments factColumns times

def edgeDict : Row K T → Dict K := rowDict edgeColumns times

/-- An edge is given the fields of its line as they are. -/
def edgeRow : PyDict K → Except Failure (Arguments K T) := rowArguments edgeColumns times

def skillDict : Row K T → Dict K := rowDict skillColumns times

def skillRow : PyDict K → Except Failure (Arguments K T) := rowArguments skillColumns times

def identityDict : Row K T → Dict K := rowDict identityColumns times

def identityRow : PyDict K → Except Failure (Arguments K T) := rowArguments identityColumns times

def driveDict : Row K T → Dict K := rowDict driveColumns times

def driveRow : PyDict K → Except Failure (Arguments K T) := rowArguments driveColumns times

def moodDict : Row K T → Dict K := rowDict moodColumns times

def moodRow : PyDict K → Except Failure (Arguments K T) := rowArguments moodColumns times

def goalDict : Row K T → Dict K := rowDict goalColumns times

def goalRow : PyDict K → Except Failure (Arguments K T) := rowArguments goalColumns times

end projections

/-! ### A row reads back -/

/-- The row has a cell of its kind for every column. -/
def Fits (columns : Columns) (row : Row K T) : Prop :=
  row.map Cell.kind = columns.map Prod.snd

/-- The keyword arguments that stand for a row. -/
def rowAttributes (columns : Columns) (row : Row K T) : Arguments K T :=
  columns.zipWith (fun column cell => (points column.1, cell.argument)) row

/-- What the dictionary of a row reads back as. -/
def loadedDict (columns : Columns) (times : TimeText T) (row : Row K T) : PyDict K :=
  columns.zipWith (fun column cell => (points column.1, (cell.json times).mapText points)) row

theorem mapFields_rowDict (columns : Columns) (times : TimeText T) (row : Row K T) :
    mapFields points (rowDict columns times row) = loadedDict columns times row := by
  rw [mapFields_eq, rowDict, List.map_zipWith]
  rfl

section reading
variable {κ α : Type} [DecidableEq κ] {times : TimeText T}

theorem dictGet_middle {before after : List (κ × α)} {key : κ} {value : α}
    (absent : key ∉ before.map Prod.fst) :
    dictGet (before ++ (key, value) :: after) key = some value := by
  have passed : before.find? (fun e => e.1 == key) = none := by
    rw [List.find?_eq_none]
    intro e inside same
    exact absent (List.mem_map.mpr ⟨e, inside, beq_iff_eq.mp same⟩)
  simp only [dictGet, List.find?_append, passed, Option.none_or, List.find?_cons,
    beq_self_eq_true, Option.map_some]

theorem dictSet_middle {before after : List (κ × α)} {key : κ} {old : α}
    (nodup : ((before ++ (key, old) :: after).map Prod.fst).Nodup) (value : α) :
    dictSet (before ++ (key, old) :: after) key value = before ++ (key, value) :: after := by
  rw [List.map_append, List.map_cons, List.nodup_append] at nodup
  obtain ⟨-, tail, apart⟩ := nodup
  have first : ∀ e ∈ before, (e.1 == key) = false := fun e inside =>
    beq_false_of_ne (apart e.1 (List.mem_map_of_mem inside) key List.mem_cons_self)
  have last : ∀ e ∈ after, (e.1 == key) = false := by
    intro e inside
    refine beq_false_of_ne fun same => (List.nodup_cons.mp tail).1 ?_
    change key ∈ after.map Prod.fst
    rw [← same]
    exact List.mem_map_of_mem inside
  have present : (before ++ (key, old) :: after).any (fun e => e.1 == key) = true :=
    List.any_eq_true.mpr ⟨(key, old), by simp, beq_self_eq_true key⟩
  unfold dictSet
  rw [if_pos present, List.map_append, List.map_cons, if_pos (beq_self_eq_true key)]
  have same (d : List (κ × α)) (others : ∀ e ∈ d, (e.1 == key) = false) :
      d.map (fun e => if (e.1 == key) = true then (key, value) else e) = d := by
    conv_rhs => rw [← List.map_id d]
    refine List.map_congr_left fun e inside => ?_
    rw [others e inside]
    rfl
  rw [same before first, same after last]

omit [DecidableEq κ] in
theorem zipWith_names {β : Type} {columns : Columns} {row : List β} (name : String → κ) (f : β → α)
    (length : row.length = columns.length) :
    (columns.zipWith (fun column cell => (name column.1, f cell)) row).map Prod.fst =
      columns.map fun column => name column.1 := by
  induction columns generalizing row with
  | nil => rfl
  | cons column columns ih =>
      cases row with
      | nil => cases length
      | cons cell row =>
          rw [List.zipWith_cons_cons, List.map_cons, List.map_cons, ih (Nat.succ.inj length)]

theorem Fits.length {columns : Columns} {row : Row K T} (fits : Fits columns row) :
    row.length = columns.length := by
  have same := congrArg List.length fits
  rwa [List.length_map, List.length_map] at same

theorem Fits.append {columns more : Columns} {row cells : Row K T} (first : Fits columns row)
    (second : Fits more cells) : Fits (columns ++ more) (row ++ cells) := by
  unfold Fits
  rw [List.map_append, List.map_append, first, second]

theorem readColumn_cell (d : PyDict K) (name : String) (cell : Cell K T)
    {before after : Arguments K T}
    (held : dictGet d (points name) = some ((cell.json times).mapText points))
    (nodup : ((before ++ (points name, .json ((cell.json times).mapText points)) :: after).map
      Prod.fst).Nodup) :
    readColumn times d (before ++ (points name, .json ((cell.json times).mapText points)) :: after)
      (name, cell.kind) = .ok (before ++ (points name, cell.argument) :: after) := by
  have place (value : Argument K T) := dictSet_middle nodup value
  cases cell with
  | time t =>
      have read : timeArgument times d name = .ok (.time t) := by
        unfold timeArgument
        rw [held]
        simp only [Cell.json, Json.mapText, times.reads, Except.map]
      simp only [readColumn, Cell.kind, read, Except.map, place]
      rfl
  | maybeTime t =>
      cases t with
      | none =>
          have read : maybeTimeArgument times d name = .ok (.json .null) := by
            unfold maybeTimeArgument
            rw [held]
            rfl
          simp only [readColumn, Cell.kind, read, Except.map, place]
          rfl
      | some t =>
          have read : maybeTimeArgument times d name = .ok (.time t) := by
            unfold maybeTimeArgument
            rw [held]
            simp only [Cell.json, Json.mapText, Option.getD_some, times.reads, Except.map]
          simp only [readColumn, Cell.kind, read, Except.map, place]
          rfl
  | _ => rfl

/-- The columns read so far, and those to read. -/
theorem readColumns_from {read todo : Columns} {front back : Row K T} (first : Fits read front)
    (second : Fits todo back)
    (nodup : ((read ++ todo).map fun column => points column.1).Nodup) (d : PyDict K)
    (split : d = loadedDict read times front ++ loadedDict todo times back) :
    todo.foldlM (readColumn times d)
        (rowAttributes read front ++ (loadedDict todo times back).map asArgument) =
      .ok (rowAttributes read front ++ rowAttributes todo back) := by
  induction todo generalizing read front back with
  | nil =>
      cases back with
      | nil => rfl
      | cons cell back => cases second
  | cons column todo ih =>
      obtain ⟨name, kind⟩ := column
      cases back with
      | nil => cases second
      | cons cell back =>
          obtain ⟨rfl, rest⟩ := List.cons.inj second
          have names : (loadedDict read times front).map Prod.fst =
              read.map fun column => points column.1 := zipWith_names points _ first.length
          have attributes : (rowAttributes read front).map Prod.fst =
              read.map fun column => points column.1 := zipWith_names points _ first.length
          have later : (loadedDict todo times back).map Prod.fst =
              todo.map fun column => points column.1 := zipWith_names points _ (Fits.length rest)
          have held : dictGet d (points name) = some ((cell.json times).mapText points) := by
            rw [split]
            refine dictGet_middle ?_
            rw [names]
            rw [List.map_append, List.map_cons, List.nodup_append] at nodup
            exact fun inside => nodup.2.2 _ inside _ List.mem_cons_self rfl
          have placed : ((rowAttributes read front ++
              (points name, Argument.json ((cell.json times).mapText points)) ::
                (loadedDict todo times back).map asArgument).map Prod.fst).Nodup := by
            rw [List.map_append, List.map_cons, List.map_map, attributes]
            rw [List.map_append, List.map_cons, ← later] at nodup
            exact nodup
          have step := readColumn_cell d name cell held placed
          have grown : rowAttributes (read ++ [(name, cell.kind)]) (front ++ [cell]) =
              rowAttributes read front ++ [(points name, cell.argument)] :=
            List.zipWith_append first.length.symm
          have one : Fits [(name, cell.kind)] [cell] := rfl
          have onward := ih (first.append one) rest
            (by rwa [← List.append_cons]) (split.trans ?_)
          · rw [grown, ← List.append_cons, ← List.append_cons] at onward
            rw [List.foldlM_cons]
            change readColumn times d (rowAttributes read front ++
              (points name, Argument.json ((cell.json times).mapText points)) ::
                (loadedDict todo times back).map asArgument) (name, cell.kind) >>= _ = _
            rw [step]
            exact onward
          · have dict : loadedDict (read ++ [(name, cell.kind)]) times (front ++ [cell]) =
                loadedDict read times front ++
                  [(points name, (cell.json times).mapText points)] :=
              List.zipWith_append first.length.symm
            rw [dict, ← List.append_cons]
            rfl

/-- The dictionary of a row reads back as the keyword arguments that stand for it. -/
theorem rowArguments_rowDict {columns : Columns} (nodup : (columns.map Prod.fst).Nodup)
    {row : Row K T} (fits : Fits columns row) :
    rowArguments columns times (mapFields points (rowDict columns times row)) =
      .ok (rowAttributes columns row) := by
  have start : Fits ([] : Columns) ([] : Row K T) := rfl
  have keys : (columns.map fun column => points column.1).Nodup := by
    have mapped := nodup.map points_injective
    rwa [List.map_map] at mapped
  rw [mapFields_rowDict]
  exact readColumns_from start fits keys _ rfl

theorem itemsProper_map {α : Type} {g : α → Json K} (proper : ∀ a, (g a).Proper) (as : List α) :
    ItemsProper (as.map g) := by
  induction as with
  | nil => trivial
  | cons a as ih => exact ⟨proper a, ih⟩

theorem Cell.Proper.json {cell : Cell K T} (proper : cell.Proper) : (cell.json times).Proper := by
  cases cell with
  | texts ss => exact itemsProper_map (g := .str) (fun _ => trivial) ss
  | ints ns => exact itemsProper_map (g := .int) (fun _ => trivial) ns
  | floats xs => exact itemsProper_map (g := .num) (fun _ => trivial) xs
  | object fields => exact proper
  | list items => exact proper
  | maybeTime t =>
      cases t with
      | none => trivial
      | some t => trivial
  | _ => trivial

/-- The dictionary of a row has no key twice, here and inside. -/
theorem rowDict_proper {columns : Columns} (nodup : (columns.map Prod.fst).Nodup)
    {row : Row K T} (fits : Fits columns row) (proper : ∀ cell ∈ row, cell.Proper) :
    (Json.obj (rowDict columns times row)).Proper := by
  refine ⟨?_, ?_⟩
  · unfold rowDict
    rwa [zipWith_names (fun name => name) _ fits.length]
  · have length := fits.length
    clear nodup fits
    induction columns generalizing row with
    | nil => trivial
    | cons column columns ih =>
        cases row with
        | nil => trivial
        | cons cell row =>
            exact ⟨(proper cell List.mem_cons_self).json,
              ih (fun c inside => proper c (List.mem_cons_of_mem cell inside))
                (Nat.succ.inj length)⟩

end reading

/-! ### The module `json` -/

/-- The interpreter's `json`, with the limits of the interpreter. -/
structure JsonModule (K : Type) where
  numbers : NumberText K
  limits : JsonLimits
  /-- What `loads` raises for a text that it does not take: a `JSONDecodeError`, or beyond the
  limits a `ValueError` or a `RecursionError`. -/
  loadError : String → Failure
  dumpError : Json K → Failure

namespace JsonModule
variable (m : JsonModule K)

/-- `json.loads(text)`. -/
def loads (text : String) : Except Failure (Json K PyText) :=
  match Johnny.loads (.python m.numbers m.limits) text with
  | some j => .ok j
  | none => .error (m.loadError text)

/-- `json.dumps(value)`, compact or with `indent`: it raises beyond the same limits. -/
def dumps (l : Layout) (j : Json K) : Except Failure String :=
  if j.within m.limits then .ok (String.ofList (writeValue m.numbers l 0 j))
  else .error (m.dumpError j)

variable {m} {l : Layout} {j : Json K} {text : String}

theorem dumps_ok_iff : m.dumps l j = .ok text ↔
    j.within m.limits = true ∧ text = String.ofList (writeValue m.numbers l 0 j) := by
  unfold dumps
  split
  · next within =>
      exact ⟨fun same => ⟨within, (Except.ok.inj same).symm⟩, fun both => by rw [both.2]⟩
  · next beyond => exact iff_of_false nofun fun both => beyond both.1

/-- What was written is read back. -/
theorem loads_dumps (proper : j.Proper) (written : m.dumps l j = .ok text) :
    m.loads text = .ok (j.mapText points) := by
  obtain ⟨within, rfl⟩ := dumps_ok_iff.mp written
  have read : Johnny.loads (.python m.numbers m.limits)
      (String.ofList (writeValue m.numbers l 0 j)) = some (j.mapText points) :=
    loads_write (.python m.numbers m.limits) l proper within
  unfold loads
  rw [read]

end JsonModule

/-! ### Files of JSON lines -/

/-- The text of a file with these rows. -/
def jsonl (f : NumberText K) (rows : List (Dict K)) : String :=
  String.ofList (rows.flatMap fun row => (dumps f (.obj row)).toList ++ ['\n'])

/-- `_write_jsonl`. -/
def writeJsonl (m : JsonModule K) (rows : List (Dict K)) : Except Failure String := do
  let lines ← rows.mapM fun row => m.dumps .compact (.obj row)
  pure (String.ofList (lines.flatMap fun line => line.toList ++ ['\n']))

/-- Files are read with universal newlines. -/
def isLineEnd (c : Char) : Bool := c == '\n' || c == '\r'

def fileLines (text : String) : List String :=
  (text.toList.splitOnP isLineEnd).map String.ofList

/-- `_read_jsonl`, of the text of a file. -/
def readJsonl (m : JsonModule K) (text : String) : Except Failure (List (Json K PyText)) :=
  (((fileLines text).map strip).filter fun line => line ≠ "").mapM m.loads

/-- The first lines of a text. -/
def takeLines : ℕ → List Char → List Char
  | 0, _ => []
  | _ + 1, [] => []
  | n + 1, c :: cs => c :: takeLines (if c = '\n' then n else n + 1) cs

section files
variable {f : NumberText K}

theorem strip_of_solid {first last : Char} {middle : List Char} (starts : isSpace first = false)
    (ends : isSpace last = false) :
    strip (String.ofList (first :: (middle ++ [last]))) =
      String.ofList (first :: (middle ++ [last])) := by
  unfold strip stripBy
  rw [String.toList_ofList, List.dropWhile_cons_of_neg (by rw [starts]; exact Bool.false_ne_true)]
  have reversed : (first :: (middle ++ [last])).reverse = last :: (first :: middle).reverse := by
    simp
  rw [reversed, List.dropWhile_cons_of_neg (by rw [ends]; exact Bool.false_ne_true), ← reversed,
    List.reverse_reverse]

theorem strip_dumps (f : NumberText K) (row : Dict K) :
    strip (dumps f (.obj row)) = dumps f (.obj row) := by
  obtain ⟨middle, written⟩ := writeValue_braces f .compact 0 row
  unfold dumps
  rw [written]
  exact strip_of_solid rfl rfl

theorem dumps_ne_empty (f : NumberText K) (row : Dict K) : dumps f (.obj row) ≠ "" := by
  obtain ⟨middle, written⟩ := writeValue_braces f .compact 0 row
  intro empty
  have chars := congrArg String.toList empty
  unfold dumps at chars
  rw [written, String.toList_ofList] at chars
  cases chars

theorem not_lineEnd_of_printable {c : Char} (printed : JsonString.printable c = true) :
    isLineEnd c = false := by
  unfold isLineEnd
  rw [Bool.or_eq_false_iff]
  refine ⟨beq_false_of_ne ?_, beq_false_of_ne ?_⟩
  · rintro rfl
    cases printed
  · rintro rfl
    cases printed

theorem dumps_toList_printed (f : NumberText K) (j : Json K) : Printed (dumps f j).toList := by
  unfold dumps
  rw [String.toList_ofList]
  exact writeValue_printed f 0 j

theorem fileLines_jsonl (f : NumberText K) (rows : List (Dict K)) :
    fileLines (jsonl f rows) = rows.map (fun row => dumps f (.obj row)) ++ [""] := by
  unfold fileLines jsonl
  rw [String.toList_ofList]
  induction rows with
  | nil => rfl
  | cons row rows ih =>
      have line : ∀ c ∈ (dumps f (.obj row)).toList, isLineEnd c = false := fun c inside =>
        not_lineEnd_of_printable (dumps_toList_printed f _ c inside)
      rw [List.flatMap_cons, List.append_assoc, List.singleton_append,
        List.splitOnP_append_cons_of_forall_mem line '\n' rfl, List.map_cons, ih,
        String.ofList_toList]
      rfl

theorem mapM_ok {α β : Type} {g : α → Except Failure β} {h : α → β} {as : List α}
    (each : ∀ a ∈ as, g a = .ok (h a)) : as.mapM g = .ok (as.map h) := by
  induction as with
  | nil => rfl
  | cons a as ih =>
      rw [List.mapM_cons, each a List.mem_cons_self,
        ih fun b inside => each b (List.mem_cons_of_mem a inside)]
      rfl

theorem ok_of_bind {α β : Type} {x : Except Failure α} {f : α → Except Failure β} {b : β}
    (returned : x >>= f = .ok b) : ∃ a, x = .ok a ∧ f a = .ok b := by
  cases x with
  | error e => cases returned
  | ok a => exact ⟨a, rfl, returned⟩

theorem all_of_mapM {α β : Type} {g : α → Except Failure β} {as : List α} {bs : List β}
    (mapped : as.mapM g = .ok bs) : ∀ a ∈ as, ∃ b, g a = .ok b := by
  induction as generalizing bs with
  | nil => exact nofun
  | cons a as ih =>
      rw [List.mapM_cons] at mapped
      obtain ⟨b, head, mapped⟩ := ok_of_bind mapped
      obtain ⟨bs, tail, -⟩ := ok_of_bind mapped
      exact List.forall_mem_cons.mpr ⟨⟨b, head⟩, ih tail⟩

/-- A file is written exactly if each of its rows is within the limits. -/
theorem writeJsonl_ok_iff {m : JsonModule K} {rows : List (Dict K)} {text : String} :
    writeJsonl m rows = .ok text ↔
      (∀ row ∈ rows, (Json.obj row).within m.limits = true) ∧ text = jsonl m.numbers rows := by
  have all (within : ∀ row ∈ rows, (Json.obj row).within m.limits = true) :
      writeJsonl m rows = .ok (jsonl m.numbers rows) := by
    unfold writeJsonl jsonl
    rw [mapM_ok (h := fun row => Johnny.dumps m.numbers (.obj row)) fun row inside =>
      JsonModule.dumps_ok_iff.mpr ⟨within row inside, rfl⟩]
    change Except.ok (String.ofList ((rows.map _).flatMap _)) = _
    rw [List.flatMap_map]
  constructor
  · intro written
    obtain ⟨lines, dumped, -⟩ := ok_of_bind written
    have within : ∀ row ∈ rows, (Json.obj row).within m.limits = true := fun row inside => by
      obtain ⟨line, one⟩ := all_of_mapM dumped row inside
      exact (JsonModule.dumps_ok_iff.mp one).1
    exact ⟨within, Except.ok.inj (written.symm.trans (all within))⟩
  · rintro ⟨within, rfl⟩
    exact all within

/-- The lines of a file read back as its rows. -/
theorem readJsonl_jsonl {m : JsonModule K} {rows : List (Dict K)}
    (proper : ∀ row ∈ rows, (Json.obj row).Proper)
    (within : ∀ row ∈ rows, (Json.obj row).within m.limits = true) :
    readJsonl m (jsonl m.numbers rows) = .ok (rows.map fun row => .obj (mapFields points row)) := by
  have lines : ((fileLines (jsonl m.numbers rows)).map strip).filter (fun line => line ≠ "") =
      rows.map fun row => dumps m.numbers (.obj row) := by
    rw [fileLines_jsonl, List.map_append, List.map_map, List.filter_append]
    have blank : ([""].map strip).filter (fun line => line ≠ "") = [] := by decide
    rw [blank, List.append_nil]
    have same : rows.map (strip ∘ fun row => dumps m.numbers (.obj row)) =
        rows.map fun row => dumps m.numbers (.obj row) :=
      List.map_congr_left fun row _ => strip_dumps m.numbers row
    rw [same]
    refine List.filter_eq_self.mpr fun line inside => ?_
    obtain ⟨row, -, rfl⟩ := List.mem_map.mp inside
    exact decide_eq_true (dumps_ne_empty m.numbers row)
  unfold readJsonl
  rw [lines]
  have read : (rows.map fun row => dumps m.numbers (.obj row)).mapM m.loads =
      rows.mapM fun row => m.loads (dumps m.numbers (.obj row)) := List.mapM_map
  rw [read]
  exact mapM_ok fun row inside => JsonModule.loads_dumps (proper row inside)
    (JsonModule.dumps_ok_iff.mpr ⟨within row inside, rfl⟩)

theorem takeLines_line {line rest : List Char} (one : ∀ c ∈ line, c ≠ '\n') (n : ℕ) :
    takeLines (n + 1) (line ++ '\n' :: rest) = line ++ '\n' :: takeLines n rest := by
  induction line with
  | nil => rfl
  | cons c line ih =>
      rw [List.cons_append, takeLines, if_neg (one c List.mem_cons_self),
        ih fun d inside => one d (List.mem_cons_of_mem c inside), List.cons_append]

/-- The first lines of a file are those of its first rows. -/
theorem takeLines_jsonl (f : NumberText K) (n : ℕ) (rows : List (Dict K)) :
    takeLines n (jsonl f rows).toList = (jsonl f (rows.take n)).toList := by
  unfold jsonl
  rw [String.toList_ofList, String.toList_ofList]
  induction rows generalizing n with
  | nil => cases n <;> rfl
  | cons row rows ih =>
      cases n with
      | zero =>
          rw [takeLines, List.take_zero]
          rfl
      | succ n =>
          have one : ∀ c ∈ (dumps f (.obj row)).toList, c ≠ '\n' := by
            intro c inside
            have other := not_lineEnd_of_printable (dumps_toList_printed f _ c inside)
            rintro rfl
            cases other
          rw [List.take_succ_cons, List.flatMap_cons, List.flatMap_cons, List.append_assoc,
            List.singleton_append, takeLines_line one, ih, List.append_assoc]
          rfl

end files

end Johnny
