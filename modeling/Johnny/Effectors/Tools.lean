import Johnny.Lib.Prog
import Johnny.Brain.State
import Mathlib.Data.List.Nodup

/-!
# The tool belt and what the dispatch hands on

A tool declares its name, hazard class and argument schema; the registry stores
tools under their names and runs none of them. `ω` is the world outside the Mind:
databases, Redis, the network, the model providers.
-/
namespace Johnny

inductive DangerClass where
  | safe
  | network
  | exec
  | publicFacing
  deriving DecidableEq, Repr

/-- `str(tool.danger)`. -/
def DangerClass.label : DangerClass → String
  | .safe => "safe"
  | .network => "network"
  | .exec => "exec"
  | .publicFacing => "public"

structure ToolResult (K : Type) where
  success : Bool
  output : Dict K := []
  summary : String := ""

def ToolResult.modelDump {K : Type} (r : ToolResult K) : Dict K :=
  [("success", .bool r.success), ("output", .obj r.output), ("summary", .str r.summary)]

/-- `validateArgs` is the tool's schema: the validated arguments, or the typed error. -/
structure Tool (K ω : Type) where
  name : String
  danger : DangerClass
  validateArgs : Dict K → Except Failure (Dict K)
  run : Dict K → Prog Failure ω (ToolResult K)

/-- The live belt: tools in registration order, at most one under each name. -/
structure ToolRegistry (K ω : Type) where
  tools : List (Tool K ω)
  nodup : (tools.map Tool.name).Nodup

namespace ToolRegistry
variable {K ω : Type}

def empty : ToolRegistry K ω := ⟨[], List.nodup_nil⟩

def get (r : ToolRegistry K ω) (name : String) : Option (Tool K ω) :=
  r.tools.find? fun t => t.name == name

/-- Raises where the name is taken. -/
def register (r : ToolRegistry K ω) (t : Tool K ω) : Except Failure (ToolRegistry K ω) :=
  if h : t.name ∈ r.tools.map Tool.name then
    .error (.exception (.other "ValueError")
      ("a tool named " ++ pyRepr t.name ++ " is already registered"))
  else .ok ⟨r.tools ++ [t], by
    rw [List.map_append]
    refine List.nodup_append.mpr ⟨r.nodup, List.nodup_singleton _, ?_⟩
    rintro a ha b hb rfl
    rw [List.map_singleton, List.mem_singleton] at hb
    exact h (hb ▸ ha)⟩

/-- A no-op where the name is absent. -/
def retire (r : ToolRegistry K ω) (name : String) : ToolRegistry K ω :=
  ⟨r.tools.filter fun t => t.name != name,
    r.nodup.sublist (List.filter_sublist.map Tool.name)⟩

theorem get_name {r : ToolRegistry K ω} {name : String} {t : Tool K ω}
    (h : r.get name = some t) : t.name = name := by
  simpa using List.find?_some h

theorem get_mem {r : ToolRegistry K ω} {name : String} {t : Tool K ω}
    (h : r.get name = some t) : t ∈ r.tools := List.mem_of_find?_eq_some h

end ToolRegistry

/-! ### The Conscience's call -/

structure ProposedAction (K : Type) where
  tool : String
  args : Dict K := []
  danger : String := "safe"
  goalId : Option ℕ := none
  goalDescription : String := ""

inductive VerdictKind where
  | allow
  | veto
  deriving DecidableEq, Repr

def VerdictKind.label : VerdictKind → String
  | .allow => "allow"
  | .veto => "veto"

structure Verdict where
  verdict : VerdictKind
  reason : String := ""
  deriving DecidableEq, Repr

def Verdict.allowed (v : Verdict) : Bool := v.verdict == .allow

/-- A model completion; only its text is read here. -/
structure Completion where
  content : String
  deriving DecidableEq, Repr

/-- A proposal that was resolved, validated and vetted: all that `commit` takes. -/
structure VettedAction (K ω : Type) where
  action : ProposedAction K
  tool : Tool K ω
  validated : Dict K
  verdict : Verdict

/-- What the audit sink is given for one action. -/
structure ActionRecord (K : Type) where
  tool : String
  args : Dict K
  result : Option (Dict K)
  conscienceVerdict : String
  vetoReason : Option String
  goalId : Option ℕ
  success : Bool

structure DispatchOutcome (K : Type) where
  ran : Bool
  verdict : Verdict
  result : Option (ToolResult K) := none
  summary : String := ""

end Johnny
