import Johnny.Brain.Isolation
import Johnny.Lib.Runs
import Mathlib.Data.List.Count

/-!
# The registry of agents

Agents come and go while the bus runs. Each is wired onto the workspace the registry is
attached to, once for every type it subscribes to, and a retired one is unwired again. The
agents are objects with a name and their types; other handlers may be on the bus as well.
-/
namespace Johnny

structure InnerAgent where
  name : String
  subscribesTo : List String

/-- A handler, told apart as its equality does: an agent's own method, or anything else. -/
inductive Subscriber (Obj Other : Type) where
  | handle (agent : Obj)
  | other (handler : Other)
  deriving DecidableEq

def Subscriber.agent? {Obj Other : Type} : Subscriber Obj Other → Option Obj
  | .handle agent => some agent
  | .other _ => none

def Subscriber.other? {Obj Other : Type} : Subscriber Obj Other → Option Other
  | .handle _ => none
  | .other handler => some handler

/-! ### The subscribers of a workspace -/

abbrev Subscribers (H : Type) := List (String × List H)

namespace Subscribers
variable {H : Type} (s : Subscribers H) (type other : String) (h : H)

/-- `self._subscribers.get(event_type, [])`. -/
def registered : List H := (dictGet s type).getD []

def subscribe : Subscribers H := dictSet s type (registered s type ++ [h])

def unsubscribe [DecidableEq H] : Subscribers H :=
  match dictGet s type with
  | some handlers => if h ∈ handlers then dictSet s type (handlers.erase h) else s
  | none => s

def handlersFor : List H := registered s type ++ registered s "*"

theorem registered_dictSet (handlers : List H) :
    registered (dictSet s type handlers) other =
      if other = type then handlers else registered s other := by
  split
  next same => rw [same, registered, dictGet_dictSet, Option.getD_some]
  next apart => rw [registered, registered, dictGet_dictSet_of_ne _ apart]

@[simp] theorem registered_subscribe :
    registered (subscribe s type h) other =
      registered s other ++ if other = type then [h] else [] := by
  rw [subscribe, registered_dictSet]
  split
  next same => rw [same]
  next => rw [List.append_nil]

@[simp] theorem registered_unsubscribe [DecidableEq H] :
    registered (unsubscribe s type h) other =
      if other = type then (registered s other).erase h else registered s other := by
  have known : ∀ handlers, dictGet s type = some handlers → registered s type = handlers := by
    intro handlers found
    rw [registered, found, Option.getD_some]
  unfold unsubscribe
  split
  next handlers found =>
    split
    · rw [registered_dictSet]
      split
      next same => rw [same, known handlers found]
      next => rfl
    next absent =>
      split
      next same => rw [same, known handlers found, List.erase_of_not_mem absent]
      next => rfl
  next missing =>
    split
    next same =>
      rw [same, registered, missing]
      rfl
    next => rfl

end Subscribers

/-! ### The registry -/

/-- The registry, and the workspaces it is and was attached to. -/
structure Society (W Obj Other : Type) where
  agents : List (String × Obj) := []
  workspace : Option W := none
  subscribers : W → Subscribers (Subscriber Obj Other) := fun _ => []

/-- The agents as their objects have them. -/
abbrev Agents (Obj : Type) := Obj → InnerAgent

namespace Society
variable {W Obj Other : Type} [DecidableEq W] (agent : Agents Obj)

/-- On the subscribers of a workspace. -/
def onto (w : W) (f : Subscribers (Subscriber Obj Other) → Subscribers (Subscriber Obj Other))
    (s : Society W Obj Other) : Society W Obj Other :=
  { s with subscribers := Function.update s.subscribers w (f (s.subscribers w)) }

@[simp] theorem onto_subscribers (w v : W)
    (f : Subscribers (Subscriber Obj Other) → Subscribers (Subscriber Obj Other))
    (s : Society W Obj Other) :
    (onto w f s).subscribers v = if v = w then f (s.subscribers w) else s.subscribers v :=
  Function.update_apply _ _ _ _

/-- `if self._workspace is not None`. -/
def here (f : Subscribers (Subscriber Obj Other) → Subscribers (Subscriber Obj Other))
    (s : Society W Obj Other) : Society W Obj Other :=
  match s.workspace with
  | some w => onto w f s
  | none => s

/-- `_wire`, on the subscribers of the workspace. -/
def wire (a : Obj) (subs : Subscribers (Subscriber Obj Other)) :
    Subscribers (Subscriber Obj Other) :=
  (agent a).subscribesTo.foldl (fun subs type => subs.subscribe type (.handle a)) subs

/-- `_unwire`, on the subscribers of the workspace. -/
def unwire [DecidableEq Obj] [DecidableEq Other] (a : Obj)
    (subs : Subscribers (Subscriber Obj Other)) : Subscribers (Subscriber Obj Other) :=
  (agent a).subscribesTo.foldl (fun subs type => subs.unsubscribe type (.handle a)) subs

/-- `self._agents`, whose keys are the names. -/
def registered (s : Society W Obj Other) : List Obj := s.agents.map Prod.snd

def register (a : Obj) : Prog Failure (Society W Obj Other) Obj := do
  let agents ← Prog.reads Society.agents
  if (dictGet agents (agent a).name).isSome then
    Prog.raise (.exception (.other "ValueError")
      ("an agent named " ++ pyRepr (agent a).name ++ " is already registered"))
  else
    Prog.modify fun s => { s with agents := dictSet s.agents (agent a).name a }
    Prog.modify (here (wire agent a))
    pure a

def unregister [DecidableEq Obj] [DecidableEq Other] (name : String) :
    Prog Failure (Society W Obj Other) Unit := do
  let agents ← Prog.reads Society.agents
  Prog.onSome (dictGet agents name) fun a => do
    Prog.modify fun s => { s with agents := s.agents.filter fun e => !(e.1 == name) }
    Prog.modify (here (unwire agent a))

def attach (w : W) : Prog Failure (Society W Obj Other) Unit := do
  Prog.modify fun s => { s with workspace := some w }
  let agents ← Prog.reads registered
  Prog.forEach agents fun a => Prog.modify (onto w (wire agent a))

end Society

/-! ### The roster -/

/-- What the registry is for: the agents in the order of their registration, and on each
workspace its agents in the order in which they were wired, beside the other handlers. -/
structure Roster (W Obj Other : Type) where
  agents : List Obj := []
  workspace : Option W := none
  wirings : W → List Obj := fun _ => []
  others : W → Subscribers Other := fun _ => []

namespace Roster
variable {W Obj Other : Type} [DecidableEq W]
variable (agent : Agents Obj)

def onto (w : W) (f : List Obj → List Obj) (r : Roster W Obj Other) : Roster W Obj Other :=
  { r with wirings := Function.update r.wirings w (f (r.wirings w)) }

@[simp] theorem onto_wirings (w v : W) (f : List Obj → List Obj) (r : Roster W Obj Other) :
    (onto w f r).wirings v = if v = w then f (r.wirings w) else r.wirings v :=
  Function.update_apply _ _ _ _

@[simp] theorem onto_others (w : W) (f : List Obj → List Obj) (r : Roster W Obj Other) :
    (onto w f r).others = r.others := rfl

/-- On the workspace it is attached to. -/
def here (f : List Obj → List Obj) (r : Roster W Obj Other) : Roster W Obj Other :=
  match r.workspace with
  | some w => onto w f r
  | none => r

def Named (r : Roster W Obj Other) (name : String) : Prop :=
  name ∈ r.agents.map fun a => (agent a).name

instance (r : Roster W Obj Other) (name : String) : Decidable (r.Named agent name) :=
  inferInstanceAs (Decidable (_ ∈ _))

def register (a : Obj) (r : Roster W Obj Other) : Roster W Obj Other :=
  if r.Named agent (agent a).name then r
  else here (· ++ [a]) { r with agents := r.agents ++ [a] }

def unregister [DecidableEq Obj] (name : String) (r : Roster W Obj Other) : Roster W Obj Other :=
  match r.agents.find? fun a => (agent a).name == name with
  | some a => here (·.erase a) { r with agents := r.agents.erase a }
  | none => r

def attach (w : W) (r : Roster W Obj Other) : Roster W Obj Other :=
  onto w (· ++ r.agents) { r with workspace := some w }

/-- The agents that an event of a type concerns on a workspace, as often as it does. -/
def wired (r : Roster W Obj Other) (w : W) (type : String) : List Obj :=
  (r.wirings w).flatMap fun a => List.replicate ((agent a).subscribesTo.count type) a

end Roster

/-! ### Runs -/

namespace Society
variable {W Obj Other : Type} [DecidableEq W] [DecidableEq Obj] [DecidableEq Other]
variable (agent : Agents Obj)

inductive Turn (W Obj Other : Type) where
  | register (a : Obj)
  | unregister (name : String)
  | attach (w : W)
  /-- Someone else on the bus. -/
  | subscribe (w : W) (type : String) (h : Other)
  | unsubscribe (w : W) (type : String) (h : Other)

def turn : Turn W Obj Other → Society W Obj Other → Society W Obj Other
  | .register a, s => (register agent a s).2
  | .unregister name, s => (unregister agent name s).2
  | .attach w, s => (attach agent w s).2
  | .subscribe w type h, s => onto w (·.subscribe type (.other h)) s
  | .unsubscribe w type h, s => onto w (·.unsubscribe type (.other h)) s

end Society

namespace Roster
variable {W Obj Other : Type} [DecidableEq W] [DecidableEq Obj] [DecidableEq Other]
variable (agent : Agents Obj)

def turn : Society.Turn W Obj Other → Roster W Obj Other → Roster W Obj Other
  | .register a, r => r.register agent a
  | .unregister name, r => r.unregister agent name
  | .attach w, r => r.attach w
  | .subscribe w type h, r =>
      { r with others := Function.update r.others w ((r.others w).subscribe type h) }
  | .unsubscribe w type h, r =>
      { r with others := Function.update r.others w ((r.others w).unsubscribe type h) }

end Roster

/-! ### A wiring, and what it leaves -/

section lists
variable {α β : Type} [DecidableEq α]

theorem erase_iterate_append {l : List α} {a : α} (apart : a ∉ l) (rest : List α) (n : ℕ) :
    (fun m : List α => m.erase a)^[n] (l ++ rest) =
      l ++ (fun m : List α => m.erase a)^[n] rest := by
  induction n generalizing rest with
  | zero => rfl
  | succ n ih =>
      rw [Function.iterate_succ_apply, List.erase_append_right rest apart, ih]
      rfl

theorem erase_iterate_replicate (a : α) (rest : List α) (n : ℕ) :
    (fun m : List α => m.erase a)^[n] (List.replicate n a ++ rest) = rest := by
  induction n with
  | zero => rfl
  | succ n ih =>
      rw [Function.iterate_succ_apply, List.replicate_succ, List.cons_append, List.erase_cons_head]
      exact ih

theorem erase_iterate_nil (a : α) (n : ℕ) : (fun m : List α => m.erase a)^[n] [] = [] := by
  induction n with
  | zero => rfl
  | succ n ih => exact ih

/-- Where each element stands as often as its count, dropping one of them as often drops its
first place. -/
theorem erase_iterate_flatMap (count : α → ℕ) (a : α) (l : List α) :
    (fun m : List α => m.erase a)^[count a] (l.flatMap fun b => List.replicate (count b) b) =
      (l.erase a).flatMap fun b => List.replicate (count b) b := by
  induction l with
  | nil => exact erase_iterate_nil a _
  | cons b l ih =>
      rw [List.flatMap_cons]
      by_cases same : b = a
      · rw [same, erase_iterate_replicate, List.erase_cons_head]
      · have apart : a ∉ List.replicate (count b) b := fun inside =>
          same (List.eq_of_mem_replicate inside).symm
        rw [erase_iterate_append apart, ih, List.erase_cons_tail (by simpa using same),
          List.flatMap_cons]

theorem filterMap_erase [DecidableEq β] {f : α → Option β} {a : α} {b : β} (here : f a = some b)
    (only : ∀ x, f x = some b → x = a) (l : List α) :
    (l.erase a).filterMap f = (l.filterMap f).erase b := by
  induction l with
  | nil => rfl
  | cons x l ih =>
      by_cases same : x = a
      · rw [same, List.erase_cons_head, List.filterMap_cons_some here, List.erase_cons_head]
      · rw [List.erase_cons_tail (by simpa using same)]
        cases value : f x with
        | none => rw [List.filterMap_cons_none value, List.filterMap_cons_none value, ih]
        | some c =>
            have other : c ≠ b := fun known => same (only x (known ▸ value))
            rw [List.filterMap_cons_some value, List.filterMap_cons_some value,
              List.erase_cons_tail (by simpa using other), ih]

theorem filterMap_erase_none {f : α → Option β} {a : α} (none : f a = none) (l : List α) :
    (l.erase a).filterMap f = l.filterMap f := by
  induction l with
  | nil => rfl
  | cons x l ih =>
      by_cases same : x = a
      · rw [same, List.erase_cons_head, List.filterMap_cons_none none]
      · rw [List.erase_cons_tail (by simpa using same), List.filterMap_cons, List.filterMap_cons,
          ih]

end lists

namespace Society
variable {Obj Other : Type} (agent : Agents Obj)
open Subscribers

theorem registered_wire (a : Obj) (subs : Subscribers (Subscriber Obj Other)) (type : String) :
    (wire agent a subs).registered type =
      subs.registered type ++ List.replicate ((agent a).subscribesTo.count type) (.handle a) := by
  unfold wire
  induction (agent a).subscribesTo generalizing subs with
  | nil => simp
  | cons first types ih =>
      rw [List.foldl_cons, ih, registered_subscribe, List.append_assoc, List.count_cons]
      congr 1
      by_cases same : type = first
      · rw [if_pos same, if_pos (beq_iff_eq.mpr same.symm), List.replicate_succ]
        rfl
      · rw [if_neg same, if_neg fun known => same (beq_iff_eq.mp known).symm]
        rfl

/-- The subscribers of a workspace: its agents in the order of their wiring, beside the others. -/
structure Wires (subs : Subscribers (Subscriber Obj Other)) (wirings : List Obj)
    (others : Subscribers Other) : Prop where
  agents (type : String) : (subs.registered type).filterMap Subscriber.agent? =
    wirings.flatMap fun a => List.replicate ((agent a).subscribesTo.count type) a
  others (type : String) :
    (subs.registered type).filterMap Subscriber.other? = others.registered type

variable {agent} {subs : Subscribers (Subscriber Obj Other)} {wirings : List Obj}
  {others : Subscribers Other}

theorem filterMap_replicate {α β : Type} (f : α → Option β) (a : α) (n : ℕ) :
    (List.replicate n a).filterMap f = match f a with
      | some b => List.replicate n b
      | none => [] := by
  induction n with
  | zero => cases f a <;> rfl
  | succ n ih =>
      rw [List.replicate_succ, List.filterMap_cons, ih]
      cases f a <;> rfl

theorem Wires.wire (w : Wires agent subs wirings others) (a : Obj) :
    Wires agent (wire agent a subs) (wirings ++ [a]) others where
  agents type := by
    rw [registered_wire, List.filterMap_append, w.agents, filterMap_replicate]
    simp [Subscriber.agent?]
  others type := by
    rw [registered_wire, List.filterMap_append, w.others, filterMap_replicate]
    simp [Subscriber.other?]

theorem Wires.subscribe (w : Wires agent subs wirings others) (type : String) (h : Other) :
    Wires agent (subs.subscribe type (.other h)) wirings (others.subscribe type h) where
  agents other := by
    rw [registered_subscribe, List.filterMap_append, w.agents]
    split <;> simp [Subscriber.agent?]
  others other := by
    rw [registered_subscribe, List.filterMap_append, w.others, registered_subscribe]
    split <;> simp [Subscriber.other?]

variable [DecidableEq Obj] [DecidableEq Other]

theorem registered_unwire (a : Obj) (subs : Subscribers (Subscriber Obj Other)) (type : String) :
    (unwire agent a subs).registered type =
      (fun l : List (Subscriber Obj Other) => l.erase (.handle a))^[
        (agent a).subscribesTo.count type] (subs.registered type) := by
  unfold unwire
  induction (agent a).subscribesTo generalizing subs with
  | nil => rfl
  | cons first types ih =>
      rw [List.foldl_cons, ih, registered_unsubscribe, List.count_cons]
      by_cases same : type = first
      · rw [if_pos same, if_pos (beq_iff_eq.mpr same.symm), Function.iterate_succ_apply]
      · rw [if_neg same, if_neg fun known => same (beq_iff_eq.mp known).symm]
        rfl

theorem agent_erase_iterate (a : Obj) (n : ℕ) (l : List (Subscriber Obj Other)) :
    ((fun l : List (Subscriber Obj Other) => l.erase (.handle a))^[n] l).filterMap
        Subscriber.agent? =
      (fun l : List Obj => l.erase a)^[n] (l.filterMap Subscriber.agent?) := by
  induction n generalizing l with
  | zero => rfl
  | succ n ih =>
      rw [Function.iterate_succ_apply, ih, Function.iterate_succ_apply,
        filterMap_erase (a := Subscriber.handle a) (b := a) rfl]
      intro x known
      cases x with
      | handle b => rw [Option.some.inj known]
      | other h => cases known

theorem other_erase_iterate (a : Obj) (n : ℕ) (l : List (Subscriber Obj Other)) :
    ((fun l : List (Subscriber Obj Other) => l.erase (.handle a))^[n] l).filterMap
        Subscriber.other? =
      l.filterMap Subscriber.other? := by
  induction n generalizing l with
  | zero => rfl
  | succ n ih => rw [Function.iterate_succ_apply, ih, filterMap_erase_none rfl]

theorem Wires.unwire (w : Wires agent subs wirings others) (a : Obj) :
    Wires agent (unwire agent a subs) (wirings.erase a) others where
  agents type := by
    rw [registered_unwire, agent_erase_iterate, w.agents]
    exact erase_iterate_flatMap (fun b => (agent b).subscribesTo.count type) a wirings
  others type := by rw [registered_unwire, other_erase_iterate, w.others]

theorem Wires.unsubscribe (w : Wires agent subs wirings others) (type : String) (h : Other) :
    Wires agent (subs.unsubscribe type (.other h)) wirings (others.unsubscribe type h) where
  agents other := by
    rw [registered_unsubscribe]
    split
    · rw [filterMap_erase_none rfl, w.agents]
    · exact w.agents other
  others other := by
    rw [registered_unsubscribe, registered_unsubscribe]
    split
    · rw [filterMap_erase (a := Subscriber.other h) (b := h) rfl, w.others]
      intro x known
      cases x with
      | handle b => cases known
      | other g => rw [Option.some.inj known]
    · exact w.others other

end Society

/-! ### The code's registry over the roster -/

namespace Society
variable {W Obj Other : Type}
variable {agent : Agents Obj}

/-- The registry and its workspaces hold what the roster says. -/
structure Refines (agent : Agents Obj) (s : Society W Obj Other) (r : Roster W Obj Other) :
    Prop where
  agents : s.agents = r.agents.map fun a => ((agent a).name, a)
  workspace : s.workspace = r.workspace
  wires (w : W) : Wires agent (s.subscribers w) (r.wirings w) (r.others w)

variable {s : Society W Obj Other} {r : Roster W Obj Other}

theorem Refines.start (agent : Agents Obj) : Refines agent ({} : Society W Obj Other) {} :=
  ⟨rfl, rfl, fun _ => ⟨fun _ => rfl, fun _ => rfl⟩⟩

theorem Refines.registered (refines : Refines agent s r) : s.registered = r.agents := by
  simp [Society.registered, refines.agents, Function.comp_def]

theorem Refines.looked (refines : Refines agent s r) (name : String) :
    dictGet s.agents name = r.agents.find? fun a => (agent a).name == name := by
  rw [refines.agents]
  unfold dictGet
  rw [List.find?_map, Option.map_map]
  exact congrFun Option.map_id _

theorem Refines.named (refines : Refines agent s r) (name : String) :
    (dictGet s.agents name).isSome ↔ r.Named agent name := by
  rw [refines.looked, List.find?_isSome, Roster.Named, List.mem_map]
  simp

variable [DecidableEq W]

theorem Refines.onto (refines : Refines agent s r) (w : W)
    {f : Subscribers (Subscriber Obj Other) → Subscribers (Subscriber Obj Other)}
    {g : List Obj → List Obj}
    (moves : ∀ subs wirings others, Wires agent subs wirings others →
      Wires agent (f subs) (g wirings) others) :
    Refines agent (onto w f s) (Roster.onto w g r) where
  agents := refines.agents
  workspace := refines.workspace
  wires v := by
    by_cases same : v = w
    · subst same
      simpa using moves _ _ _ (refines.wires v)
    · simpa [same] using refines.wires v

theorem Refines.here (refines : Refines agent s r)
    {f : Subscribers (Subscriber Obj Other) → Subscribers (Subscriber Obj Other)}
    {g : List Obj → List Obj}
    (moves : ∀ subs wirings others, Wires agent subs wirings others →
      Wires agent (f subs) (g wirings) others) :
    Refines agent (here f s) (r.here g) := by
  unfold Society.here Roster.here
  rw [refines.workspace]
  split
  · exact refines.onto _ moves
  · exact refines

theorem register_apply (a : Obj) (s : Society W Obj Other) : register agent a s =
    if (dictGet s.agents (agent a).name).isSome then
      (.error (.exception (.other "ValueError")
        ("an agent named " ++ pyRepr (agent a).name ++ " is already registered")), s)
    else (.ok a, here (wire agent a) { s with agents := dictSet s.agents (agent a).name a }) := by
  unfold register
  rw [Prog.bind_apply, Prog.reads_apply]
  dsimp only
  split <;> rfl

theorem unregister_apply [DecidableEq Obj] [DecidableEq Other] (name : String)
    (s : Society W Obj Other) : unregister agent name s =
    (.ok (), match dictGet s.agents name with
      | none => s
      | some a => here (unwire agent a)
          { s with agents := s.agents.filter fun e => !(e.1 == name) }) := by
  unfold unregister
  rw [Prog.bind_apply, Prog.reads_apply]
  dsimp only
  cases dictGet s.agents name <;> rfl

theorem onto_onto (w : W)
    (f g : Subscribers (Subscriber Obj Other) → Subscribers (Subscriber Obj Other)) :
    onto w g (onto w f s) = onto w (fun subs => g (f subs)) s := by
  simp [onto, Function.update_idem]

theorem forEach_onto (w : W) (agents : List Obj) (s : Society W Obj Other) :
    Prog.forEach agents (fun a => Prog.modify (ε := Failure) (onto w (wire agent a))) s =
      (.ok (), onto w (fun subs => agents.foldl (fun subs a => wire agent a subs) subs) s) := by
  induction agents generalizing s with
  | nil => simp [Prog.forEach, onto]
  | cons a agents ih =>
      rw [Prog.forEach, Prog.bind_apply, Prog.modify_apply]
      dsimp only
      rw [ih, onto_onto]
      rfl

theorem attach_apply (w : W) (s : Society W Obj Other) : attach agent w s =
    (.ok (), onto w (fun subs => s.registered.foldl (fun subs a => wire agent a subs) subs)
      { s with workspace := some w }) := by
  unfold attach
  rw [Prog.bind_apply, Prog.modify_apply]
  exact forEach_onto w _ _

theorem Wires.all {subs : Subscribers (Subscriber Obj Other)} {wirings : List Obj}
    {others : Subscribers Other} (w : Wires agent subs wirings others) (agents : List Obj) :
    Wires agent (agents.foldl (fun subs a => Society.wire agent a subs) subs) (wirings ++ agents)
      others := by
  induction agents generalizing subs wirings with
  | nil => simpa using w
  | cons a agents ih => simpa using ih (w.wire a)

end Society

/-! ### What stays of the roster -/

namespace Roster
variable {W Obj Other : Type}
variable {agent : Agents Obj} {r : Roster W Obj Other}

/-- No two agents have one name, and each is on the workspace the registry is attached to. -/
structure Sound (agent : Agents Obj) (r : Roster W Obj Other) : Prop where
  names : (r.agents.map fun a => (agent a).name).Nodup
  heard (w : W) : r.workspace = some w → ∀ a ∈ r.agents, a ∈ r.wirings w

theorem start_sound : ({} : Roster W Obj Other).Sound agent := ⟨List.nodup_nil, nofun⟩

theorem found_name {name : String} {a : Obj}
    (found : (r.agents.find? fun a => (agent a).name == name) = some a) :
    (agent a).name = name ∧ a ∈ r.agents :=
  ⟨by simpa using List.find?_some found, List.mem_of_find?_eq_some found⟩

theorem Sound.agents_nodup (sound : r.Sound agent) : r.agents.Nodup := sound.names.of_map

variable [DecidableEq W]

/-- Each agent is on the workspace once, and nobody else is on any. -/
def Plain (r : Roster W Obj Other) : Prop :=
  ∀ w, r.wirings w = if r.workspace = some w then r.agents else []

@[simp] theorem here_agents (f : List Obj → List Obj) : (r.here f).agents = r.agents := by
  unfold here
  split <;> rfl

@[simp] theorem here_workspace (f : List Obj → List Obj) :
    (r.here f).workspace = r.workspace := by
  unfold here
  split <;> rfl

theorem here_wirings (f : List Obj → List Obj) (w : W) :
    (r.here f).wirings w = if r.workspace = some w then f (r.wirings w) else r.wirings w := by
  unfold here
  split
  next v known =>
    rw [known]
    rw [onto_wirings]
    by_cases same : w = v
    · rw [same, if_pos rfl, if_pos rfl]
    · rw [if_neg same, if_neg fun known => same (Option.some.inj known).symm]
  next missing => rw [missing, if_neg nofun]

variable [DecidableEq Obj] [DecidableEq Other]

theorem Sound.turn (sound : r.Sound agent) (t : Society.Turn W Obj Other) :
    (r.turn agent t).Sound agent := by
  cases t with
  | register a =>
      change (r.register agent a).Sound agent
      unfold register
      split
      next => exact sound
      next fresh =>
        refine ⟨?_, ?_⟩
        · rw [here_agents, List.map_append, List.nodup_append]
          refine ⟨sound.names, List.nodup_singleton _, ?_⟩
          rintro name inside other mine rfl
          rw [List.map_singleton, List.mem_singleton] at mine
          exact fresh (mine ▸ inside)
        · intro w known b inside
          rw [here_workspace] at known
          rw [here_agents] at inside
          rw [here_wirings, if_pos known]
          rcases List.mem_append.mp inside with before | mine
          · exact List.mem_append_left _ (sound.heard w known b before)
          · exact List.mem_append_right _ mine
  | unregister name =>
      change (r.unregister agent name).Sound agent
      unfold unregister
      split
      next a found =>
        refine ⟨?_, ?_⟩
        · rw [here_agents]
          exact sound.names.sublist (List.erase_sublist.map _)
        · intro w known b inside
          rw [here_workspace] at known
          rw [here_agents] at inside
          rw [here_wirings, if_pos known]
          obtain ⟨other, member⟩ := sound.agents_nodup.mem_erase_iff.mp inside
          exact (List.mem_erase_of_ne other).mpr (sound.heard w known b member)
      next => exact sound
  | attach w =>
      refine ⟨sound.names, ?_⟩
      rintro v known b inside
      cases known
      change b ∈ (r.attach w).wirings w
      rw [attach, onto_wirings, if_pos rfl]
      exact List.mem_append_right _ inside
  | subscribe w type h => exact ⟨sound.names, sound.heard⟩
  | unsubscribe w type h => exact ⟨sound.names, sound.heard⟩

theorem Plain.turn (plain : r.Plain) (t : Society.Turn W Obj Other)
    (once : ∀ w, t = .attach w → r.workspace = none) : (r.turn agent t).Plain := by
  intro w
  cases t with
  | register a =>
      change (r.register agent a).wirings w = _
      rw [show r.turn agent (.register a) = r.register agent a from rfl]
      unfold register
      split
      · exact plain w
      · rw [here_wirings, here_workspace, here_agents]
        split
        next known => rw [plain w, if_pos known]
        next known => exact (plain w).trans (if_neg known)
  | unregister name =>
      rw [show r.turn agent (.unregister name) = r.unregister agent name from rfl]
      unfold unregister
      split
      · rw [here_wirings, here_workspace, here_agents]
        split
        next known => rw [plain w, if_pos known]
        next known => exact (plain w).trans (if_neg known)
      · exact plain w
  | attach v =>
      have fresh : r.wirings w = [] := by
        rw [plain w, once v rfl, if_neg nofun]
      rw [show r.turn agent (.attach v) = r.attach v from rfl, attach]
      by_cases same : w = v
      · subst same
        simp [onto, fresh]
      · simp [onto, fresh, same, Ne.symm same]
  | subscribe v type h => exact plain w
  | unsubscribe v type h => exact plain w

end Roster

namespace Society
variable {W Obj Other : Type}
variable {agent : Agents Obj} {s : Society W Obj Other} {r : Roster W Obj Other}

theorem Refines.registering (refines : Refines agent s r) {a : Obj}
    (fresh : ¬ r.Named agent (agent a).name) :
    Refines agent { s with agents := dictSet s.agents (agent a).name a }
      { r with agents := r.agents ++ [a] } where
  agents := by
    have absent : (s.agents.any fun e => e.1 == (agent a).name) = false := by
      rw [List.any_eq_false]
      intro e inside same
      rw [refines.agents] at inside
      obtain ⟨b, member, rfl⟩ := List.mem_map.mp inside
      exact fresh (List.mem_map.mpr ⟨b, member, by simpa using same⟩)
    rw [dictSet, absent, if_neg Bool.false_ne_true, refines.agents, List.map_append]
    rfl
  workspace := refines.workspace
  wires := refines.wires

theorem Refines.retiring [DecidableEq Obj] (refines : Refines agent s r)
    (sound : r.Sound agent) {name : String} {a : Obj}
    (found : (r.agents.find? fun a => (agent a).name == name) = some a) :
    Refines agent { s with agents := s.agents.filter fun e => !(e.1 == name) }
      { r with agents := r.agents.erase a } where
  agents := by
    obtain ⟨own, member⟩ := Roster.found_name found
    change s.agents.filter (fun e => !(e.1 == name)) = (r.agents.erase a).map _
    rw [refines.agents, List.filter_map, sound.agents_nodup.erase_eq_filter]
    refine congrArg (List.map _) (List.filter_congr fun b inside => ?_)
    have only : (agent b).name = name ↔ b = a := by
      constructor
      · intro same
        exact List.inj_on_of_nodup_map sound.names inside member (same.trans own.symm)
      · rintro rfl
        exact own
    rw [Bool.eq_iff_iff]
    simp [only]
  workspace := refines.workspace
  wires := refines.wires

variable [DecidableEq W] [DecidableEq Obj] [DecidableEq Other]

theorem Refines.turn (refines : Refines agent s r) (sound : r.Sound agent)
    (t : Turn W Obj Other) : Refines agent (turn agent t s) (r.turn agent t) := by
  cases t with
  | register a =>
      change Refines agent (register agent a s).2 (r.register agent a)
      rw [register_apply]
      unfold Roster.register
      by_cases taken : r.Named agent (agent a).name
      · rw [if_pos ((refines.named _).mpr taken), if_pos taken]
        exact refines
      · rw [if_neg (mt (refines.named _).mp taken), if_neg taken]
        exact (refines.registering taken).here fun _ _ _ w => w.wire a
  | unregister name =>
      change Refines agent (unregister agent name s).2 (r.unregister agent name)
      rw [unregister_apply, refines.looked]
      unfold Roster.unregister
      cases found : r.agents.find? fun a => (agent a).name == name with
      | none => exact refines
      | some a => exact (refines.retiring sound found).here fun _ _ _ w => w.unwire a
  | attach w =>
      change Refines agent (attach agent w s).2 (r.attach w)
      rw [attach_apply, refines.registered]
      have bound : Refines agent { s with workspace := some w } { r with workspace := some w } :=
        ⟨refines.agents, rfl, refines.wires⟩
      exact bound.onto w fun _ _ _ wires => wires.all r.agents
  | subscribe w type h =>
      refine ⟨refines.agents, refines.workspace, fun v => ?_⟩
      by_cases same : v = w
      · subst same
        simpa [Society.turn, Roster.turn] using (refines.wires v).subscribe type h
      · simpa [Society.turn, Roster.turn, same] using refines.wires v
  | unsubscribe w type h =>
      refine ⟨refines.agents, refines.workspace, fun v => ?_⟩
      by_cases same : v = w
      · subst same
        simpa [Society.turn, Roster.turn] using (refines.wires v).unsubscribe type h
      · simpa [Society.turn, Roster.turn, same] using refines.wires v

end Society

/-! ### A dispatch over the registry -/

namespace Bus
variable {K ω δ : Type} {b : Bus K ω δ} {event : WorkspaceEvent K}

theorem reacted_calls {handlers : List (EventHandler K ω)} {news : List (BusEntry K ω)}
    (each : Prog.Each (b.Reacted event) handlers news) : callsIn news = handlers := by
  induction each with
  | nil => rfl
  | @cons handler _ news _ reacted _ ih =>
      have own : callsIn news = [handler] := by
        cases reacted with
        | raised => rfl
        | limited => rfl
        | @resent emitted done news ran below first resent =>
            change handler :: callsIn news = [handler]
            rw [(resent_journal resent).1]
      rw [callsIn_append, own, ih]
      rfl

/-- The workspace calls its subscribers as `call` has them. -/
def Serves {H : Type} (b : Bus K ω δ) (call : H → EventHandler K ω) (subs : Subscribers H) : Prop :=
  b.subscribers = subs.map fun e => (e.1, e.2.map call)

variable {H : Type} {call : H → EventHandler K ω} {subs : Subscribers H}

theorem Serves.registered (serves : b.Serves call subs) (type : String) :
    b.registered type = (subs.registered type).map call := by
  have looked : ∀ d : Subscribers H, (d.map fun e => (e.1, e.2.map call)).lookup type =
      (dictGet d type).map fun handlers => handlers.map call := by
    intro d
    induction d with
    | nil => rfl
    | cons e d ih =>
        rw [List.map_cons, List.lookup_cons, dictGet, List.find?_cons]
        by_cases here : e.1 = type
        · rw [here, beq_self_eq_true]
          rfl
        · rw [beq_false_of_ne here, beq_false_of_ne (Ne.symm here)]
          exact ih
  rw [Bus.registered, serves, looked, Subscribers.registered]
  cases dictGet subs type <;> rfl

theorem Serves.handlersFor (serves : b.Serves call subs) (type : String) :
    b.handlersFor type = (subs.handlersFor type).map call := by
  rw [Bus.handlersFor, serves.registered, serves.registered, Subscribers.handlersFor,
    List.map_append]

/-- A dispatch calls the handlers of the event's type in their order: all of them where it
returns, and the first few where it raises. -/
theorem Serves.calls (serves : b.Serves call subs) (event : WorkspaceEvent K) (s : BusState K ω) :
    ∃ news, (b.dispatch event s).2.journal = s.journal ++ news ∧
      callsIn news <+: (subs.handlersFor event.type).map call ∧
      ((b.dispatch event s).1 = .ok () →
        callsIn news = (subs.handlersFor event.type).map call) := by
  obtain ⟨news, grown, ⟨done, first, some⟩, all⟩ := dispatch_writes event s
  rw [serves.handlersFor] at first all
  refine ⟨news, grown, ?_, fun returned => (carried_journal (all returned)).1⟩
  rwa [reacted_calls some]

end Bus

namespace Society
variable {W Obj Other : Type} [DecidableEq W] [DecidableEq Obj] [DecidableEq Other]

/-- What holds of the registry and the workspaces beside the roster. -/
structure Kept (agent : Agents Obj) (s : Society W Obj Other) (r : Roster W Obj Other) : Prop where
  agents : s.agents = r.agents.map fun a => ((agent a).name, a)
  names : (s.agents.map Prod.fst).Nodup
  workspace : s.workspace = r.workspace
  refused (a : Obj) : (∃ failure, (register agent a s).1 = .error failure) ↔
    (agent a).name ∈ s.agents.map Prod.fst
  /-- The agents an event concerns, in the order of their wiring. -/
  called (w : W) (type : String) :
    ((s.subscribers w).handlersFor type).filterMap Subscriber.agent? =
      r.wired agent w type ++ r.wired agent w "*"
  apart (w : W) (type : String) :
    ((s.subscribers w).handlersFor type).filterMap Subscriber.other? = (r.others w).handlersFor type
  heard (w : W) : s.workspace = some w → ∀ a ∈ s.registered, a ∈ r.wirings w

/-- An attachment is the first. -/
def Fresh : Turn W Obj Other → Society W Obj Other → Prop
  | .attach _, s => s.workspace = none
  | _, _ => True

variable {agent : Agents Obj} {s : Society W Obj Other} {r : Roster W Obj Other}

omit [DecidableEq Obj] [DecidableEq Other] in
theorem Refines.kept (refines : Refines agent s r) (sound : r.Sound agent) : Kept agent s r where
  agents := refines.agents
  names := by
    rw [refines.agents, List.map_map]
    exact sound.names
  workspace := refines.workspace
  refused a := by
    have known : (dictGet s.agents (agent a).name).isSome ↔
        (agent a).name ∈ s.agents.map Prod.fst := by
      rw [refines.named, refines.agents, List.map_map]
      rfl
    rw [register_apply, ← known]
    split
    next taken => exact ⟨fun _ => taken, fun _ => ⟨_, rfl⟩⟩
    next fresh =>
      refine ⟨fun raises => ?_, fun taken => absurd taken fresh⟩
      obtain ⟨_, raised⟩ := raises
      cases raised
  called w type := by
    rw [Subscribers.handlersFor, List.filterMap_append, (refines.wires w).agents,
      (refines.wires w).agents]
    rfl
  apart w type := by
    rw [Subscribers.handlersFor, List.filterMap_append, (refines.wires w).others,
      (refines.wires w).others]
    rfl
  heard w known a inside :=
    sound.heard w (refines.workspace ▸ known) a (refines.registered ▸ inside)

theorem run_refines (turns : List (Turn W Obj Other)) (refines : Refines agent s r)
    (sound : r.Sound agent) : Refines agent (runSteps (turn agent) turns s)
        (runSteps (Roster.turn agent) turns r) ∧
      (runSteps (Roster.turn agent) turns r).Sound agent := by
  induction turns generalizing s r with
  | nil => exact ⟨refines, sound⟩
  | cons t turns ih => exact ih (refines.turn sound t) (sound.turn t)

/-- In every run of registrations, retirements and attachments, the handlers of the agents stand
on each workspace as the roster says, and a dispatch calls exactly these. Where no attachment
finds the registry attached, the roster has each agent of the registry once. -/
theorem run_society (agent : Agents Obj) (turns : List (Turn W Obj Other)) :
    let s := runSteps (turn agent) turns {}
    let r := runSteps (Roster.turn agent) turns {}
    Kept agent s r ∧
      ((∀ before t after, turns = before ++ t :: after →
        Fresh t (runSteps (turn agent) before {})) → r.Plain) ∧
      ∀ (K ω δ : Type) (b : Bus K ω δ) (call : Subscriber Obj Other → EventHandler K ω) (w : W),
        b.Serves call (s.subscribers w) → ∀ event state,
          ∃ news, (b.dispatch event state).2.journal = state.journal ++ news ∧
            callsIn news <+: ((s.subscribers w).handlersFor event.type).map call ∧
            ((b.dispatch event state).1 = .ok () →
              callsIn news = ((s.subscribers w).handlersFor event.type).map call) := by
  intro s r
  obtain ⟨refines, sound⟩ := run_refines turns (Refines.start agent) Roster.start_sound
  refine ⟨refines.kept sound, ?_, fun K ω δ b call w serves => serves.calls⟩
  intro once
  refine runSteps_invariant_of (I := fun r : Roster W Obj Other => r.Plain)
    (C := fun t r => ∀ w, t = .attach w → r.workspace = none)
    (fun t r alone plain => plain.turn t alone) turns ?_ (fun _ => rfl)
  rintro before t after split w rfl
  rw [← (run_refines before (Refines.start agent) Roster.start_sound).1.workspace]
  exact once before (.attach w) after split

end Society

/-! ### A second attachment -/

namespace Reattached

def agent : Agents Bool
  | false => ⟨"narrator", ["percept", "*"]⟩
  | true => ⟨"affect", ["percept"]⟩

def evening : List (Society.Turn Unit Bool Empty) :=
  [.register false, .attach (), .register true, .unregister "narrator"]

/-- The narrator retired, a percept reaches the affect alone, and once. -/
theorem evening_society :
    (runSteps (Roster.turn agent) evening {}).wirings () = [true] ∧
      ((runSteps (Society.turn agent) evening {}).subscribers ()).handlersFor "percept" =
        [.handle true] := by
  refine ⟨(Society.run_society agent evening).2.1 ?_ (), by decide⟩
  exact each_cons.mpr ⟨trivial, each_cons.mpr ⟨rfl, each_cons.mpr ⟨trivial, each_cons.mpr
    ⟨trivial, each_nil⟩⟩⟩⟩

/-- Attached twice, the registry leaves a retired agent on the bus. -/
example : ((runSteps (Society.turn agent) [.register false, .attach (), .attach (),
    .unregister "narrator"] {} : Society Unit Bool Empty).subscribers ()).handlersFor "percept" =
      [.handle false, .handle false] := by
  decide

end Reattached

end Johnny
