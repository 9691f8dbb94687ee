import Johnny.LLM.Providers

/-!
# The bodies a projection can take

A projection meets a body of the wrong shape with whatever the language raises. The
shapes here are the bodies that it makes a completion of, or answers with the provider's
own error; any other body ends in a foreign exception.
-/
namespace Johnny.LLM
variable {α β : Type}

/-- What an answer raises, if it raises, is of the kind. -/
def Raises (kind : Error → Bool) (answer : Except Error α) : Prop :=
  ∀ e, answer = .error e → kind e = true

def Error.isForeign : Error → Bool
  | .foreign _ _ => true
  | _ => false

/-- Of a provider, or foreign to the layer. -/
def Error.isAnswer (e : Error) : Bool := e.isProvider || e.isForeign

theorem Error.isProvider_of_isForeign {e : Error} (foreign : e.isForeign = true) :
    e.isProvider = false := by
  cases e <;> first | rfl | cases foreign

theorem Error.isSchemaValidation_of_isForeign {e : Error} (foreign : e.isForeign = true) :
    e.isSchemaValidation = false := by
  cases e <;> first | rfl | cases foreign

namespace Raises
variable {kind : Error → Bool}

theorem ok (a : α) : Raises kind (.ok a : Except Error α) := nofun

theorem error {e : Error} (told : kind e = true) : Raises kind (.error e : Except Error α) := by
  rintro _ ⟨⟩
  exact told

theorem bind {answer : Except Error α} {f : α → Except Error β} (first : Raises kind answer)
    (next : ∀ a, Raises kind (f a)) : Raises kind (answer >>= f) := by
  cases answer with
  | error e => exact error (first e rfl)
  | ok a => exact next a

theorem isAnswer {answer : Except Error α} (foreign : Raises Error.isForeign answer) :
    Raises Error.isAnswer answer := by
  intro e raised
  unfold Error.isAnswer
  rw [foreign e raised, Bool.or_true]

end Raises

/-! ### What the operations of the language raise -/

namespace Body

/-- What `fields.get(key)` gives. -/
def field (fields : Dict Number) (key : String) : Body := (dictGet fields key).getD .null

theorem get_raises (value : Body) (key : String) : Raises Error.isForeign (value.get key) := by
  cases value with
  | obj fields => exact .ok _
  | _ => exact .error rfl

theorem get_ok {value a : Body} {key : String} :
    value.get key = .ok a ↔ ∃ fields, value = .obj fields ∧ a = field fields key := by
  cases value with
  | obj fields =>
      constructor
      · rintro ⟨⟩
        exact ⟨fields, rfl, rfl⟩
      · rintro ⟨_, ⟨⟩, rfl⟩
        rfl
  | _ =>
      constructor
      · rintro ⟨⟩
      · rintro ⟨_, ⟨⟩, _⟩

theorem first_raises (value : Body) : Raises Error.isForeign value.first := by
  cases value with
  | arr items =>
      cases items with
      | nil => exact .error rfl
      | cons item rest => exact .ok _
  | str s =>
      unfold first
      dsimp only
      split
      · exact .ok _
      · exact .error rfl
  | _ => exact .error rfl

theorem stripped_raises (value : Body) : Raises Error.isForeign value.stripped := by
  cases value with
  | str s => exact .ok _
  | _ => exact .error rfl

theorem toInt_raises (ofText : String → Option ℤ) (value : Body) :
    Raises Error.isForeign (value.toInt ofText) := by
  cases value with
  | int n => exact .ok _
  | bool b => exact .ok _
  | num x =>
      cases x with
      | finite x => exact .ok _
      | _ => exact .error rfl
  | str s =>
      unfold toInt
      dsimp only
      cases ofText s with
      | some n => exact .ok _
      | none => exact .error rfl
  | _ => exact .error rfl

/-- `None`, or a text. -/
def OptionalText (value : Body) : Prop := value = .null ∨ ∃ text, value = .str text

/-- What is taken for the answer is a text: a reasoning, if there is one, can stand in. -/
theorem OptionalText.effective {content reasoning : Body} {text : String}
    (optional : OptionalText reasoning) (given : content = .str text) :
    ∃ effective, (if strip text ≠ "" then content else reasoning.orElse (.str "")) =
      .str effective := by
  split
  · exact ⟨text, given⟩
  · unfold Body.orElse
    rcases optional with rfl | ⟨reason, rfl⟩
    · exact ⟨"", rfl⟩
    · split
      · exact ⟨reason, rfl⟩
      · exact ⟨"", rfl⟩

end Body

open Body

theorem textField_raises (value : Body) : Raises Error.isForeign (textField value) := by
  cases value <;> first | exact .ok _ | exact .error rfl

theorem optionalTextField_raises (value : Body) :
    Raises Error.isForeign (optionalTextField value) := by
  cases value <;> first | exact .ok _ | exact .error rfl

theorem dictField_raises (value : Body) : Raises Error.isForeign (dictField value) := by
  cases value <;> first | exact .ok _ | exact .error rfl

theorem makeCompletion_raises (content reasoning : Body) (provider : String) (model : Body)
    (promptTokens completionTokens : ℤ) (finishReason raw : Body) :
    Raises Error.isForeign (makeCompletion content reasoning provider model promptTokens
      completionTokens finishReason raw) := by
  unfold makeCompletion
  apply Raises.bind (textField_raises _)
  intro content
  apply Raises.bind (optionalTextField_raises _)
  intro reasoning
  apply Raises.bind (textField_raises _)
  intro model
  apply Raises.bind (optionalTextField_raises _)
  intro finishReason
  apply Raises.bind (dictField_raises _)
  intro raw
  exact .ok _

theorem effectiveContent_raises (content reasoning : Body) :
    Raises Error.isForeign (effectiveContent content reasoning) := by
  apply Raises.bind (stripped_raises _)
  intro stripped
  exact .ok _

theorem effectiveContent_ok {content reasoning value : Body} :
    effectiveContent content reasoning = .ok value ↔ ∃ text, content = .str text ∧
      (if strip text ≠ "" then content else reasoning.orElse (.str "")) = value := by
  cases content with
  | str text => simp [effectiveContent, stripped, bind, Except.bind, pure, Except.pure]
  | _ => simp [effectiveContent, stripped, bind, Except.bind]

theorem reasoningOf_raises (message : Body) : Raises Error.isForeign (reasoningOf message) := by
  apply Raises.bind (get_raises _ _)
  intro reasoning
  split
  · exact .ok _
  · exact get_raises _ _

/-- Where `message.get` works, so does the second. -/
theorem reasoningOf_obj (message : Dict Number) :
    reasoningOf (.obj message) =
      .ok ((field message "reasoning").orElse (field message "reasoning_content")) := by
  change (if (field message "reasoning").truthy = true then _ else _) = Except.ok (ite _ _ _)
  split
  · rfl
  · rfl

/-! ### What is known of an answer -/

/-- A completion that can be accounted for, or a provider's error. -/
def Known (counted : ℤ → ℤ → Prop) : Except Error Completion → Prop
  | .ok completion => counted completion.promptTokens completion.completionTokens
  | .error e => e.isProvider = true

section known
variable {counted : ℤ → ℤ → Prop}

/-- An answer is known only past everything foreign. -/
theorem known_bind {answer : Except Error α} (foreign : Raises Error.isForeign answer)
    {f : α → Except Error Completion} :
    Known counted (answer >>= f) ↔ ∃ a, answer = .ok a ∧ Known counted (f a) := by
  cases answer with
  | error e =>
      have unknown := Error.isProvider_of_isForeign (foreign e rfl)
      constructor
      · intro known
        rw [show e.isProvider = true from known] at unknown
        cases unknown
      · rintro ⟨_, ⟨⟩, _⟩
  | ok a =>
      constructor
      · intro known
        exact ⟨a, rfl, known⟩
      · rintro ⟨_, ⟨⟩, known⟩
        exact known

theorem known_get {value : Body} {key : String} {f : Body → Except Error Completion} :
    Known counted (value.get key >>= f) ↔
      ∃ fields, value = .obj fields ∧ Known counted (f (field fields key)) := by
  rw [known_bind (get_raises value key)]
  constructor
  · rintro ⟨a, got, known⟩
    obtain ⟨fields, rfl, rfl⟩ := get_ok.mp got
    exact ⟨fields, rfl, known⟩
  · rintro ⟨fields, rfl, known⟩
    exact ⟨_, rfl, known⟩

theorem known_toInt {ofText : String → Option ℤ} {value : Body}
    {f : ℤ → Except Error Completion} :
    Known counted (value.toInt ofText >>= f) ↔
      ∃ n, value.toInt ofText = .ok n ∧ Known counted (f n) :=
  known_bind (toInt_raises ofText value)

/-- The content must have a `strip`. -/
theorem known_effective {content reasoning : Body} {f : Body → Except Error Completion} :
    Known counted (effectiveContent content reasoning >>= f) ↔
      ∃ text, content = .str text ∧
        Known counted (f (if strip text ≠ "" then content else reasoning.orElse (.str ""))) := by
  rw [known_bind (effectiveContent_raises content reasoning)]
  constructor
  · rintro ⟨value, effective, known⟩
    obtain ⟨text, rfl, rfl⟩ := effectiveContent_ok.mp effective
    exact ⟨text, rfl, known⟩
  · rintro ⟨text, rfl, known⟩
    exact ⟨_, effectiveContent_ok.mpr ⟨text, rfl, rfl⟩, known⟩

/-- The first choice must have a `get`. -/
theorem known_first {value : Body} {key : String}
    {f : Body → Body → Except Error Completion} :
    Known counted (value.first >>= fun item => item.get key >>= f item) ↔
      ∃ item rest, value = .arr (.obj item :: rest) ∧
        Known counted (f (.obj item) (field item key)) := by
  rw [known_bind (first_raises value)]
  constructor
  · rintro ⟨item, got, known⟩
    obtain ⟨fields, rfl, known⟩ := known_get.mp known
    cases value with
    | arr items =>
        cases items with
        | nil => cases got
        | cons head rest =>
            obtain rfl := Except.ok.inj got
            exact ⟨fields, rest, rfl, known⟩
    | str s =>
        unfold Body.first at got
        dsimp only at got
        split at got <;> cases got
    | _ => cases got
  · rintro ⟨item, rest, rfl, known⟩
    exact ⟨.obj item, rfl, known⟩

theorem known_reasoning {message : Body} {f : Body → Except Error Completion} :
    Known counted (reasoningOf message >>= f) ↔
      ∃ fields, message = .obj fields ∧
        Known counted (f ((field fields "reasoning").orElse (field fields "reasoning_content"))) := by
  rw [known_bind (reasoningOf_raises message)]
  cases message with
  | obj fields =>
      rw [reasoningOf_obj]
      constructor
      · rintro ⟨_, ⟨⟩, known⟩
        exact ⟨fields, rfl, known⟩
      · rintro ⟨_, ⟨⟩, known⟩
        exact ⟨_, rfl, known⟩
  | _ =>
      constructor
      · rintro ⟨_, ⟨⟩, _⟩
      · rintro ⟨_, ⟨⟩, _⟩

theorem known_text {value : Body} {f : String → Except Error Completion} :
    Known counted (textField value >>= f) ↔ ∃ text, value = .str text ∧ Known counted (f text) := by
  rw [known_bind (textField_raises value)]
  cases value <;> simp [textField]

theorem optionalText_iff {value : Body} :
    OptionalText value ↔ ∃ read, optionalTextField value = .ok read := by
  unfold OptionalText
  cases value <;> simp [optionalTextField]

theorem known_makeCompletion {content reasoning : Body} {provider : String} {model : Body}
    {promptTokens completionTokens : ℤ} {finishReason : Body} {raw : Dict Number} :
    Known counted (makeCompletion content reasoning provider model promptTokens completionTokens
      finishReason (.obj raw)) ↔
      (∃ text, content = .str text) ∧ OptionalText reasoning ∧ (∃ text, model = .str text) ∧
        OptionalText finishReason ∧ counted promptTokens completionTokens := by
  unfold makeCompletion
  simp only [known_text, known_bind (optionalTextField_raises _), optionalText_iff]
  constructor
  · rintro ⟨_, text, _, reasons, _, named, _, finished, known⟩
    exact ⟨⟨_, text⟩, ⟨_, reasons⟩, ⟨_, named⟩, ⟨_, finished⟩, known⟩
  · rintro ⟨⟨_, text⟩, ⟨_, reasons⟩, ⟨_, named⟩, ⟨_, finished⟩, known⟩
    exact ⟨_, text, _, reasons, _, named, _, finished, known⟩

end known

/-! ### The two shapes -/

/-- A body of the OpenAI shape: its first choice, the message of it and the usage are
dictionaries where they are given, the texts are texts, and the counts are numbers. -/
structure ChatShaped (ofText : String → Option ℤ) (counted : ℤ → ℤ → Prop)
    (data choice message usage : Dict Number) (promptTokens completionTokens : ℤ) : Prop where
  choices : ∃ rest, field data "choices" = .arr (.obj choice :: rest)
  told : (field choice "message").orElse (.obj []) = .obj message
  content : ∃ text, (field message "content").orElse (.str "") = .str text
  reasoning : OptionalText ((field message "reasoning").orElse (field message "reasoning_content"))
  used : (field data "usage").orElse (.obj []) = .obj usage
  model : (field data "model").truthy = true → ∃ text, field data "model" = .str text
  prompt : ((field usage "prompt_tokens").orElse (.int 0)).toInt ofText = .ok promptTokens
  completion :
    ((field usage "completion_tokens").orElse (.int 0)).toInt ofText = .ok completionTokens
  finishReason : OptionalText (field choice "finish_reason")
  counted : counted promptTokens completionTokens

/-- A body of the native shape. -/
structure NativeShaped (ofText : String → Option ℤ) (counted : ℤ → ℤ → Prop)
    (data message : Dict Number) (promptTokens completionTokens : ℤ) : Prop where
  told : (field data "message").orElse (.obj []) = .obj message
  content : ∃ text, (field message "content").orElse (.str "") = .str text
  thinking : OptionalText ((field message "thinking").orElse .null)
  model : (field data "model").truthy = true → ∃ text, field data "model" = .str text
  prompt : ((field data "prompt_eval_count").orElse (.int 0)).toInt ofText = .ok promptTokens
  completion : ((field data "eval_count").orElse (.int 0)).toInt ofText = .ok completionTokens
  doneReason : OptionalText (field data "done_reason")
  counted : counted promptTokens completionTokens

theorem text_orElse {value : Body} {default : String} :
    (∃ text, value.orElse (.str default) = .str text) ↔
      (value.truthy = true → ∃ text, value = .str text) := by
  unfold Body.orElse
  cases value.truthy <;> simp

section projections
variable {ofText : String → Option ℤ} {counted : ℤ → ℤ → Prop}

/-- What is projected from an OpenAI-shaped envelope: no choices are the provider's error,
and past them it takes the shape. -/
theorem parseChatCompletion_known (data : Body) (provider requestedModel : String) :
    Known counted (parseChatCompletion ofText data provider requestedModel) ↔
      ∃ fields, data = .obj fields ∧ ((field fields "choices").truthy = true →
        ∃ choice message usage promptTokens completionTokens, ChatShaped ofText counted fields
          choice message usage promptTokens completionTokens) := by
  unfold parseChatCompletion
  rw [known_get]
  refine exists_congr fun fields => and_congr_right ?_
  rintro rfl
  cases given : (field fields "choices").truthy with
  | false => exact iff_of_true rfl fun offered => by cases offered
  | true =>
      rw [if_neg (by decide)]
      simp only [known_first, known_get, known_reasoning, known_effective, known_toInt,
        known_makeCompletion, forall_const]
      constructor
      · rintro ⟨choice, rest, choices, message, told, _, again, text, content, _, ⟨⟩, _, ⟨⟩, usage,
          used, promptTokens, prompt, _, still, completionTokens, completion, _, ⟨⟩, -, reasons,
          named, finished, known⟩
        obtain rfl := Json.obj.inj (told.symm.trans again)
        obtain rfl := Json.obj.inj (used.symm.trans still)
        exact ⟨choice, message, usage, promptTokens, completionTokens, ⟨rest, choices⟩, told,
          ⟨text, content⟩, reasons, used, text_orElse.mp named, prompt, completion, finished, known⟩
      · rintro ⟨choice, message, usage, promptTokens, completionTokens, shaped⟩
        obtain ⟨rest, choices⟩ := shaped.choices
        obtain ⟨text, content⟩ := shaped.content
        exact ⟨choice, rest, choices, message, shaped.told, message, shaped.told, text, content, fields,
          rfl, fields, rfl, usage, shaped.used, promptTokens, shaped.prompt, usage, shaped.used,
          completionTokens, shaped.completion, choice, rfl, shaped.reasoning.effective content,
          shaped.reasoning, text_orElse.mpr shaped.model, shaped.finishReason, shaped.counted⟩

theorem parseNativeChat_known (data : Body) (requestedModel : String) :
    Known counted (parseNativeChat ofText data requestedModel) ↔
      ∃ fields, data = .obj fields ∧ ∃ message promptTokens completionTokens,
        NativeShaped ofText counted fields message promptTokens completionTokens := by
  unfold parseNativeChat
  rw [known_get]
  refine exists_congr fun fields => and_congr_right ?_
  rintro rfl
  simp only [known_get, known_effective, known_toInt, known_makeCompletion]
  constructor
  · rintro ⟨message, told, _, again, text, content, _, ⟨⟩, _, ⟨⟩, promptTokens, prompt, _, ⟨⟩,
      completionTokens, completion, _, ⟨⟩, -, reasons, named, finished, known⟩
    obtain rfl := Json.obj.inj (told.symm.trans again)
    exact ⟨message, promptTokens, completionTokens, told, ⟨text, content⟩, reasons,
      text_orElse.mp named, prompt, completion, finished, known⟩
  · rintro ⟨message, promptTokens, completionTokens, shaped⟩
    obtain ⟨text, content⟩ := shaped.content
    exact ⟨message, shaped.told, message, shaped.told, text, content, fields, rfl, fields, rfl,
      promptTokens, shaped.prompt, fields, rfl, completionTokens, shaped.completion, fields, rfl,
      shaped.thinking.effective content, shaped.thinking, text_orElse.mpr shaped.model,
      shaped.doneReason, shaped.counted⟩

/-! ### What a projection raises -/

theorem parseChatCompletion_raises (data : Body) (provider requestedModel : String) :
    Raises Error.isAnswer (parseChatCompletion ofText data provider requestedModel) := by
  have foreign {α : Type} {answer : Except Error α} {f : α → Except Error Completion}
      (first : Raises Error.isForeign answer) (next : ∀ a, Raises Error.isAnswer (f a)) :
      Raises Error.isAnswer (answer >>= f) := first.isAnswer.bind next
  unfold parseChatCompletion
  refine foreign (get_raises _ _) fun choices => ?_
  split
  · exact .error rfl
  · refine foreign (first_raises _) fun choice => foreign (get_raises _ _) fun message => ?_
    refine foreign (get_raises _ _) fun content => foreign (reasoningOf_raises _) fun reasoning => ?_
    refine foreign (effectiveContent_raises _ _) fun effective => ?_
    refine foreign (get_raises _ _) fun usage => foreign (get_raises _ _) fun model => ?_
    refine foreign (get_raises _ _) fun asked => foreign (toInt_raises _ _) fun promptTokens => ?_
    refine foreign (get_raises _ _) fun told => foreign (toInt_raises _ _) fun completionTokens => ?_
    refine foreign (get_raises _ _) fun finishReason => ?_
    exact (makeCompletion_raises _ _ _ _ _ _ _ _).isAnswer

theorem parseNativeChat_raises (data : Body) (requestedModel : String) :
    Raises Error.isAnswer (parseNativeChat ofText data requestedModel) := by
  apply Raises.isAnswer
  unfold parseNativeChat
  refine (get_raises _ _).bind fun message => (get_raises _ _).bind fun content => ?_
  refine (get_raises _ _).bind fun thinking => (effectiveContent_raises _ _).bind fun effective => ?_
  refine (get_raises _ _).bind fun model => (get_raises _ _).bind fun asked => ?_
  refine (toInt_raises _ _).bind fun promptTokens => (get_raises _ _).bind fun told => ?_
  refine (toInt_raises _ _).bind fun completionTokens => (get_raises _ _).bind fun doneReason => ?_
  exact makeCompletion_raises _ _ _ _ _ _ _ _

end projections
end Johnny.LLM
