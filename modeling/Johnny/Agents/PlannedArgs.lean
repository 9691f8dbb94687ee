import Johnny.Agents.Deliberation
import Johnny.Lib.Hoare

/-!
# The arguments of a planned tool

The tools that Deliberation plans take one text and, besides, one bounded integer. The
schema of a tool bounds the length of its text; the query that Deliberation derives from
the workspace is as long as what it is joined from.
-/
namespace Johnny

/-! ### The schemas -/

/-- A text within bounds, an optional integer within bounds, and nothing else. -/
structure ArgsSchema where
  text : String
  minLength : ℕ := 1
  maxLength : Option ℕ := none
  option : String
  nullable : Bool := true
  least : ℤ := 1
  greatest : ℤ

namespace ArgsSchema

def fits (schema : ArgsSchema) (length : ℕ) : Bool :=
  decide (schema.minLength ≤ length) && schema.maxLength.all fun most => decide (length ≤ most)

/-- Whether the arguments validate; `asInt` is the integer that a value is taken for. -/
def accepts {K : Type} (schema : ArgsSchema) (asInt : Json K → Option ℤ) (args : Dict K) : Bool :=
  (args.all fun entry => entry.1 == schema.text || entry.1 == schema.option) &&
    (match dictGet args schema.text with
      | some (.str s) => schema.fits s.length
      | _ => false) &&
    match dictGet args schema.option with
    | none => true
    | some .null => schema.nullable
    | some value => (asInt value).any fun n =>
      decide (schema.least ≤ n) && decide (n ≤ schema.greatest)

end ArgsSchema

def webSearchArgs : ArgsSchema :=
  { text := "query", maxLength := some 512, option := "limit", greatest := 25 }

def newsArgs : ArgsSchema :=
  { text := "topic", maxLength := some 512, option := "limit", greatest := 25 }

def memorySearchArgs : ArgsSchema :=
  { text := "query", option := "k", nullable := false, greatest := 20 }

def codeExecArgs : ArgsSchema :=
  { text := "code", option := "timeout_seconds", greatest := 60 }

/-- The `args_schema` of the tools that a goal is mapped to. -/
def argsSchemas : List (String × ArgsSchema) :=
  [("news", newsArgs), ("web_search", webSearchArgs), ("memory_search", memorySearchArgs),
    (codeExecToolName, codeExecArgs)]

section accepting
variable {K : Type}

/-- The text alone validates by its length. -/
theorem accepts_text (schema : ArgsSchema) (apart : schema.text ≠ schema.option)
    (asInt : Json K → Option ℤ) (s : String) :
    schema.accepts asInt [(schema.text, .str s)] = schema.fits s.length := by
  have found : dictGet [(schema.text, (Json.str s : Json K))] schema.text = some (.str s) := by
    simp [dictGet]
  have other : dictGet [(schema.text, (Json.str s : Json K))] schema.option = none := by
    simp [dictGet, apart]
  simp [ArgsSchema.accepts, found, other]

end accepting

namespace Deliberation
variable {K ω : Type}

/-! ### How long a query is -/

theorem length_intercalate (sep : String) (parts : List String) :
    (sep.intercalate parts).length =
      (parts.map String.length).sum + (parts.length - 1) * sep.length := by
  induction parts with
  | nil => simp
  | cons part parts ih =>
      cases parts with
      | nil => simp
      | cons next parts =>
          rw [String.intercalate_cons_cons, String.length_append, String.length_append, ih]
          simp only [List.map_cons, List.sum_cons, List.length_cons, Nat.add_sub_cancel,
            Nat.succ_mul]
          omega

/-- The characters of the first three texts that are on the mind with a blank between them, or
those of the goal's description. -/
def queryLength (goal : Goal K) (contents : List (WorkspaceItem K)) : ℕ :=
  let texts := (notable contents).take 3
  if texts = [] then goal.description.length
  else (texts.map String.length).sum + (texts.length - 1)

theorem queryFrom_length (goal : Goal K) (contents : List (WorkspaceItem K)) :
    (queryFrom goal contents).length = queryLength goal contents := by
  unfold queryFrom queryLength
  cases notable contents with
  | nil => rfl
  | cons text texts =>
      have blank : " ".length = 1 := rfl
      rw [if_neg (by simp), length_intercalate, blank, Nat.mul_one]
      simp

/-- A query derived for a tool has a length that the tool's schema takes; a snippet is none. -/
def QueryFits (goal : Goal K) (contents : List (WorkspaceItem K)) : Prop :=
  ∀ tool args schema, dictGet (defaultToolActions (K := K)) goal.source = some (tool, args) →
    dictGet argsSchemas tool = some schema → tool ≠ codeExecToolName →
      schema.fits (queryLength goal contents) = true

/-! ### What is planned -/

/-- A tool action has arguments that its tool's schema takes. -/
def WellFormed (asInt : Json K → Option ℤ) (action : Action K) : Prop :=
  ∀ tool, action.tool = some tool → ∃ schema, dictGet argsSchemas tool = some schema ∧
    schema.accepts asInt action.toolArgs = true

/-- A mapped goal acts through the sandbox, or through a tool with a derived text. -/
theorem mapped_cases {source tool : String} {args : Dict K}
    (mapped : dictGet defaultToolActions source = some (tool, args)) :
    args = [] ∧ (tool = codeExecToolName ∨
      tool ≠ codeExecToolName ∧ ∃ schema, dictGet argsSchemas tool = some schema ∧
        schema.text ≠ schema.option ∧ dictGet toolQueryArg tool = some schema.text) := by
  obtain ⟨entry, found, same⟩ := Option.map_eq_some_iff.mp mapped
  have listed := List.mem_of_find?_eq_some found
  simp only [defaultToolActions, List.mem_cons, List.not_mem_nil, or_false] at listed
  rcases listed with rfl | rfl | rfl | rfl <;> obtain ⟨rfl, rfl⟩ := Prod.mk.inj same
  · exact ⟨rfl, .inr ⟨by decide, newsArgs, rfl, by decide, rfl⟩⟩
  · exact ⟨rfl, .inr ⟨by decide, webSearchArgs, rfl, by decide, rfl⟩⟩
  · exact ⟨rfl, .inr ⟨by decide, memorySearchArgs, rfl, by decide, rfl⟩⟩
  · exact ⟨rfl, .inl rfl⟩

variable {asInt : Json K → Option ℤ} {d : Deliberation K ω} {goal : Goal K}
  {contents : List (WorkspaceItem K)}

theorem internalAction_wellFormed : WellFormed asInt (internalAction goal contents) := nofun

/-- A snippet that is not empty is all that the sandbox's schema asks for. -/
theorem code_wellFormed {code : String} (written : code ≠ "") {action : Action K}
    (sandbox : action.tool = some codeExecToolName) (bare : action.toolArgs = []) :
    WellFormed asInt { action with toolArgs := dictSet action.toolArgs "code" (.str code) } := by
  intro tool named
  obtain rfl := Option.some.inj (sandbox.symm.trans named)
  refine ⟨codeExecArgs, rfl, ?_⟩
  dsimp only
  rw [bare]
  refine (accepts_text codeExecArgs (by decide) asInt code).trans ?_
  have length : code.length ≠ 0 := by simpa using written
  unfold ArgsSchema.fits codeExecArgs
  simp
  omega

section numbers
variable [Field K]

theorem formulateCode_written :
    Prog.Maintains (fun _ => True) (d.formulateCode goal contents)
      fun code => ∀ text, code = some text → text ≠ "" := by
  unfold formulateCode
  split
  · exact .pure nofun
  · refine .rescue (.bind (Q := fun _ => True) ?_ fun completion _ => .pure ?_)
      fun _ => .pure nofun
    · exact fun _ _ => ⟨trivial, fun _ _ => trivial⟩
    · intro text
      split
      · exact nofun
      · next written =>
          rintro ⟨⟩
          exact written

theorem finaliseAction_wellFormed_iff [DecidableEq K] (asInt : Json K → Option ℤ)
    (wired : d.toolActions = defaultToolActions)
    (mapped : (dictGet (defaultToolActions (K := K)) goal.source).isSome) :
    Prog.Maintains (fun _ => True) (d.finaliseAction (d.plan goal contents) goal contents)
      fun action => WellFormed asInt action ↔ QueryFits goal contents := by
  obtain ⟨⟨tool, args⟩, found⟩ := Option.isSome_iff_exists.mp mapped
  obtain ⟨rfl, sandbox | ⟨other, schema, declared, apart, derived⟩⟩ := mapped_cases found
  · have free : QueryFits goal contents := by
      intro tool' args' schema found' _ other
      rw [found] at found'
      obtain ⟨rfl, _⟩ := Prod.mk.inj (Option.some.inj found')
      exact absurd sandbox other
    have planned : (d.plan goal contents).tool = some codeExecToolName ∧
        (d.plan goal contents).toolArgs = [] := by
      unfold plan
      rw [wired, found, sandbox]
      exact ⟨rfl, rfl⟩
    unfold finaliseAction
    rw [if_neg (by rw [planned.1, planned.2]; simp [dictGet])]
    refine .bind formulateCode_written fun code written => .pure (iff_of_true ?_ free)
    cases code with
    | none => exact internalAction_wellFormed
    | some code => exact code_wellFormed (written code rfl) planned.1 planned.2
  · have planned : (d.plan goal contents).tool = some tool ∧ (d.plan goal contents).toolArgs =
        [(schema.text, .str (queryFrom goal contents))] := by
      unfold plan
      rw [wired, found]
      refine ⟨rfl, ?_⟩
      change toolArgsFor tool [] goal contents = _
      unfold toolArgsFor
      rw [derived]
      rfl
    unfold finaliseAction
    rw [if_pos (.inl (by rw [planned.1]; simpa using other))]
    refine .pure ?_
    have takes := accepts_text schema apart asInt (queryFrom goal contents)
    rw [queryFrom_length] at takes
    constructor
    · intro valid tool' args' schema' found' declared' _
      rw [found] at found'
      obtain ⟨rfl, _⟩ := Prod.mk.inj (Option.some.inj found')
      obtain ⟨schema'', declared'', accepted⟩ := valid tool planned.1
      obtain rfl := Option.some.inj (declared.symm.trans declared')
      obtain rfl := Option.some.inj (declared.symm.trans declared'')
      rw [planned.2, takes] at accepted
      exact accepted
    · intro fits tool' named
      obtain rfl := Option.some.inj (planned.1.symm.trans named)
      refine ⟨schema, declared, ?_⟩
      rw [planned.2, takes]
      exact fits tool [] schema found declared other

end numbers

/-- Whatever the arbiter, the model and the workspace do, the action planned for a mapped goal
has arguments that its tool takes exactly if the derived query has a length for it. -/
theorem planned_args_valid_iff [Field K] [LinearOrder K] (asInt : Json K → Option ℤ)
    (wired : d.toolActions = defaultToolActions) (urges : List (Urge K)) (mood : Option (Mood K))
    (now : Option K) {s t : Deliberating K ω} {result : DeliberationResult K}
    (ran : d.deliberate urges mood contents now s = (.ok result, t)) {action : Action K}
    (pursued : result.goal = some goal) (chosen : result.action = some action)
    (mapped : (dictGet (defaultToolActions (K := K)) goal.source).isSome) :
    WellFormed asInt action ↔ QueryFits goal contents := by
  have told : Prog.Maintains (fun _ => True) (d.deliberate urges mood contents now)
      fun result => ∀ goal action, result.goal = some goal → result.action = some action →
        (dictGet (defaultToolActions (K := K)) goal.source).isSome →
          (WellFormed asInt action ↔ QueryFits goal contents) := by
    refine .bind (Q := fun _ => True) (.reads fun _ _ => trivial) fun reference _ =>
      .bind (Q := fun _ => True) (fun _ _ => ⟨trivial, fun _ _ => trivial⟩) fun goal _ => ?_
    cases goal with
    | none => exact .pure fun _ _ none => by cases none
    | some goal =>
        refine .bind (Q := fun _ => True) (.reads fun _ _ => trivial) fun lastActed _ => ?_
        split
        · exact .pure fun _ _ _ none => by cases none
        · by_cases known : (dictGet (defaultToolActions (K := K)) goal.source).isSome
          · refine .bind (finaliseAction_wellFormed_iff asInt wired known) fun action planned => .pure ?_
            rintro _ _ ⟨⟩ ⟨⟩ _
            exact planned
          · refine .bind (Q := fun _ => True) (fun _ _ => ⟨trivial, fun _ _ => trivial⟩)
              fun action _ => .pure ?_
            rintro _ _ ⟨⟩ ⟨⟩ mapped
            exact absurd mapped known
  have post := (told s trivial).2 result (by rw [ran])
  exact post goal action pursued chosen mapped

/-! ### A long thought -/

/-- A curious mind whose arbiter always pursues the same goal. -/
def curiousGoal : Goal ℚ :=
  { id := some 1, source := "curiosity", description := "learn something new", priority := 1 }

def curious : Deliberation ℚ Unit where
  arbitrate _ _ _ := pure (some curiousGoal)
  router := none
  resolve _ _ := pure ()
  recallEpisodes _ _ := pure []
  writeEpisode _ := pure ()
  clock _ := 0
  toolActions := defaultToolActions
  maxTokens := 512
  recallK := 5
  minInterval := 60
  codeMaxTokens := 1024
  codeMaxChars := 50000

/-- One item of so many characters on the mind. -/
def onMind (length : ℕ) : List (WorkspaceItem ℚ) :=
  [{ kind := .input, content := String.ofList (List.replicate length 'a'), salience := 1 }]

def newsAction (length : ℕ) : Action ℚ := curious.plan curiousGoal (onMind length)

theorem deliberates (length : ℕ) :
    curious.deliberate [] none (onMind length) none ⟨none, ()⟩ =
      (.ok ⟨some curiousGoal, some (newsAction length)⟩, ⟨none, ()⟩) := rfl

theorem onMind_length (length : ℕ) : queryLength curiousGoal (onMind length) = length := by
  simp [queryLength, notable, onMind]

/-- A thought of 600 characters is no topic. -/
theorem long_thought_refused :
    ¬ ∀ contents : List (WorkspaceItem ℚ), ∀ result t,
      curious.deliberate [] none contents none ⟨none, ()⟩ = (.ok result, t) →
        ∀ action, result.action = some action → WellFormed (fun _ => none) action := by
  intro valid
  obtain ⟨schema, declared, accepted⟩ := valid (onMind 600) _ _ (deliberates 600) _ rfl "news" rfl
  obtain rfl : newsArgs = schema := Option.some.inj declared
  have takes := accepts_text (K := ℚ) newsArgs (by decide) (fun _ => none)
    (queryFrom curiousGoal (onMind 600))
  rw [queryFrom_length, onMind_length] at takes
  have refused : newsArgs.fits 600 = false := by decide
  exact Bool.noConfusion (refused.symm.trans (takes.symm.trans accepted))

/-- A thought of 300 characters is one. -/
theorem short_thought_accepted : WellFormed (fun _ => none) (newsAction 300) := by
  refine (planned_args_valid_iff (fun _ => none) rfl [] none none (deliberates 300) rfl rfl
    (by decide)).mpr ?_
  intro tool args schema found declared _
  obtain ⟨rfl, rfl⟩ := Prod.mk.inj (Option.some.inj (show some ("news", ([] : Dict ℚ)) = _ from found))
  obtain rfl : newsArgs = schema := Option.some.inj declared
  rw [onMind_length]
  decide

end Deliberation
end Johnny
