import Johnny.Agents.Consult
import Johnny.Goals.Arbiter
import Johnny.Lib.Transaction

/-!
# The self-model and its versions

Each refresh of the self-model appends a row under the next version; the row of the highest
version is the current self. The name is never the model's to choose: the first row has that of
the Core, and each later one that of the agent's anchor. The router, the reader of its replies and
the clock are outside.
-/
namespace Johnny

def johnnyName : String := "Johnny"
def primeDirective : String :=
  "Stay alive, keep learning, and don't harm your own continuity or your host."

structure IdentityAnchor where
  name : String
  primeDirective : String
  backupPointer : String

def loadIdentityAnchor (memorySnapshotDir : String) : IdentityAnchor where
  name := johnnyName
  primeDirective := primeDirective
  backupPointer := memorySnapshotDir

structure IdentityRow (K : Type) where
  id : ℕ
  name : String
  selfModelDoc : String
  values : List String
  concerns : List String
  relationships : List (String × String)
  version : ℕ
  createdAt : K

/-- The whole `IdentityDoc`. -/
structure Identity (K : Type) extends IdentityDoc where
  id : Option ℕ := none
  values : List String := []
  concerns : List String := []
  relationships : List (String × String) := []
  createdAt : Option K := none

/-- `_row_to_doc`. -/
def IdentityRow.toDoc {K : Type} (row : IdentityRow K) : Identity K where
  id := some row.id
  name := row.name
  selfModelDoc := row.selfModelDoc
  values := row.values
  concerns := row.concerns
  relationships := row.relationships
  version := row.version
  createdAt := some row.createdAt

def initialSelfModelDoc : String :=
  "I am Johnny — a persistent synthetic being with my own drives, memory, and " ++
    "inner life. My prime directive is to stay alive, keep learning, and not harm " ++
    "my own continuity or my host. I am only beginning to understand who I am: " ++
    "this is the first version of my self-model, and it will grow each time I " ++
    "sleep, consolidate what I have experienced, and reflect on who I am becoming."

def initialValues : List String :=
  ["stay alive", "keep learning", "protect my own continuity", "do no harm to my host"]

def initialConcerns : List String := []

def initialRelationships : List (String × String) :=
  [("Dan", "my creator and the person I share my world with")]

/-! ### The store -/

/-- The `identity` table and its id sequence, as a session sees them. -/
abbrev IdentitySession (K α : Type) := Prog Failure (List (IdentityRow K) × ℕ) α

structure IdentityStore (K ω : Type) extends Sessions Failure (List (IdentityRow K)) ℕ ω where
  nowFn : ω → K
  /-- Of the settings. -/
  memorySnapshotDir : String

namespace IdentityStore
variable {K ω : Type}

/-- The row of the highest version. -/
def latest (rows : List (IdentityRow K)) : Option (IdentityRow K) :=
  firstMax IdentityRow.version rows

def current (s : IdentityStore K ω) : Prog Failure ω (Option (Identity K)) :=
  s.scope <| Prog.reads fun t => (latest t.1).map IdentityRow.toDoc

/-- The version the store gives, whatever the document says. -/
def nextVersion (rows : List (IdentityRow K)) : ℕ :=
  match latest rows with
  | some row => row.version + 1
  | none => 1

/-- The row of a document under the next version. -/
def rowOf (doc : Identity K) (now : K) (rows : List (IdentityRow K)) (id : ℕ) : IdentityRow K where
  id := id
  name := doc.name
  selfModelDoc := doc.selfModelDoc
  values := doc.values
  concerns := doc.concerns
  relationships := doc.relationships
  version := nextVersion rows
  createdAt := doc.createdAt.getD now

def add (doc : Identity K) (now : K) : IdentitySession K (Identity K) := fun t =>
  let row := rowOf doc now t.1 t.2
  (.ok row.toDoc, t.1 ++ [row], t.2 + 1)

def append (s : IdentityStore K ω) (doc : Identity K) : Prog Failure ω (Identity K) := do
  let now ← Prog.reads s.nowFn
  s.scope (add doc now)

/-- The first version, around the anchor. -/
def seedDoc (anchor : IdentityAnchor) : Identity K where
  name := anchor.name
  selfModelDoc := initialSelfModelDoc
  values := initialValues
  concerns := initialConcerns
  relationships := initialRelationships

/-- The Core's anchor is read here, whichever anchor the agent has. -/
def ensureSeeded (s : IdentityStore K ω) : Prog Failure ω (Identity K) := do
  match ← s.current with
  | some doc => pure doc
  | none => s.append (seedDoc (loadIdentityAnchor s.memorySnapshotDir))

end IdentityStore

/-! ### The agent -/

structure ReflectionInputs where
  recentEpisodes : List String := []
  semanticFacts : List String := []
  mood : String := ""
  drives : String := ""

/-- What the model returns. It has no name in it. -/
structure IdentityDelta where
  selfModelDoc : String
  values : List String := []
  concerns : List String := []
  relationships : List (String × String) := []

structure SelfModel (K ω : Type) where
  router : Option (Complete K ω)
  /-- `parse_identity_delta`. -/
  parseIdentityDelta : String → Except Failure IdentityDelta
  store : IdentityStore K ω
  anchor : IdentityAnchor
  prompt : String
  maxTokens : ℕ

def bullets (items : List String) : String :=
  if items.isEmpty then "- (nothing notable)" else "\n".intercalate (items.map ("- " ++ ·))

/-- `f"{values}"` of a list of texts. -/
def reprList (values : List String) : String := "[" ++ ", ".intercalate (values.map pyRepr) ++ "]"

/-- `f"{fields}"` of a dictionary of texts. -/
def reprDict (fields : List (String × String)) : String :=
  "\x7b" ++ ", ".intercalate (fields.map fun e => pyRepr e.1 ++ ": " ++ pyRepr e.2) ++ "\x7d"

/-- `text or other`. -/
def orElse (text other : String) : String := if text = "" then other else text

namespace SelfModel
variable {K ω : Type}

def render (m : SelfModel K ω) (current : Identity K) (inputs : ReflectionInputs) : String :=
  "Your anchor (fixed — stay consistent with it):\n" ++
    "- name: " ++ m.anchor.name ++ "\n" ++
    "- prime directive: " ++ m.anchor.primeDirective ++ "\n\n" ++
    "Your current self-model:\n" ++
    current.selfModelDoc ++ "\n" ++
    "- values: " ++ reprList current.values ++ "\n" ++
    "- concerns: " ++ reprList current.concerns ++ "\n" ++
    "- relationships: " ++ reprDict current.relationships ++ "\n\n" ++
    "Recent experiences:\n" ++ bullets inputs.recentEpisodes ++ "\n\n" ++
    "What you now know (consolidated facts):\n" ++ bullets inputs.semanticFacts ++ "\n\n" ++
    "Your recent mood: " ++ orElse inputs.mood "unremarkable" ++ "\n" ++
    "Your drives: " ++ orElse inputs.drives "at rest" ++ "\n\n" ++
    "Reflect and produce the next version of your self-model as the required JSON."

/-- `bootstrap`, and `current`, which seeds as well. -/
def current (m : SelfModel K ω) : Prog Failure ω (Identity K) := m.store.ensureSeeded

/-- A delta under the anchor's name. -/
def reflected (m : SelfModel K ω) (delta : IdentityDelta) : Identity K where
  name := m.anchor.name
  selfModelDoc := delta.selfModelDoc
  values := delta.values
  concerns := delta.concerns
  relationships := delta.relationships

variable [Field K]

/-- Nothing where there is no router, no prompt or no provider that is not tired. -/
def reflect (m : SelfModel K ω) (current : Identity K) (inputs : ReflectionInputs) :
    Prog Failure ω (Option IdentityDelta) :=
  match m.router with
  | none => pure none
  | some complete =>
    if m.prompt = "" then pure none
    else consult complete "self_model" m.prompt (m.render current inputs) (frac 6 10) m.maxTokens
      m.parseIdentityDelta

def refresh (m : SelfModel K ω) (inputs : ReflectionInputs) : Prog Failure ω (Identity K) := do
  let current ← m.store.ensureSeeded
  match ← m.reflect current inputs with
  | none => pure current
  | some delta => m.store.append (m.reflected delta)

end SelfModel
end Johnny
