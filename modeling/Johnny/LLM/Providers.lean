import Johnny.LLM.Base
import Johnny.Agents.Deliberation
import Mathlib.Data.Rat.Floor

/-!
# The provider adapters

An adapter puts the messages on the wire, and projects what comes back into a
completion. The projections take an answer's body as it is decoded: a `get` on what is
no dictionary, an index, a conversion or a field of the wrong type raises what the
language or the validation library raises.
-/
namespace Johnny.LLM

/-! ### The operations of the language on a body -/

namespace Body

/-- `type(value).__name__`. -/
def typeName : Body → String
  | .null => "NoneType"
  | .bool _ => "bool"
  | .int _ => "int"
  | .num _ => "float"
  | .str _ => "str"
  | .arr _ => "list"
  | .obj _ => "dict"

def noAttribute (value : Body) (name : String) : Error :=
  .foreign "AttributeError"
    ("'" ++ typeName value ++ "' object has no attribute '" ++ name ++ "'")

/-- `value.get(key)`. -/
def get (value : Body) (key : String) : Except Error Body :=
  match value with
  | .obj fields => .ok ((dictGet fields key).getD .null)
  | value => .error (noAttribute value "get")

/-- `value or default`. -/
def orElse (value default : Body) : Body := if value.truthy then value else default

/-- `value[0]`. -/
def first : Body → Except Error Body
  | .arr (item :: _) => .ok item
  | .arr [] => .error (.foreign "IndexError" "list index out of range")
  | .str s =>
    match s.toList with
    | c :: _ => .ok (.str c.toString)
    | [] => .error (.foreign "IndexError" "string index out of range")
  | .obj _ => .error (.foreign "KeyError" "0")
  | value => .error (.foreign "TypeError"
      ("'" ++ typeName value ++ "' object is not subscriptable"))

/-- `value.strip()`. -/
def stripped : Body → Except Error String
  | .str s => .ok (strip s)
  | value => .error (noAttribute value "strip")

/-- `int(value)`, with `ofText` for what it makes of a text. -/
def toInt (ofText : String → Option ℤ) : Body → Except Error ℤ
  | .int n => .ok n
  | .bool b => .ok (if b then 1 else 0)
  | .num (.finite x) => .ok (if 0 ≤ x then ⌊x⌋ else ⌈x⌉)
  | .num (.infinity _) =>
    .error (.foreign "OverflowError" "cannot convert float infinity to integer")
  | .num .nan => .error (.foreign "ValueError" "cannot convert float NaN to integer")
  | .str s =>
    match ofText s with
    | some n => .ok n
    | none => .error (.foreign "ValueError"
        ("invalid literal for int() with base 10: " ++ pyRepr s))
  | value => .error (.foreign "TypeError"
      ("int() argument must be a string, a bytes-like object or a real number, not '" ++
        typeName value ++ "'"))

end Body

/-! ### The validation of a completion -/

/-- The validation library lists every invalid field; only its class is told here. -/
def invalidCompletion : Error := .foreign "ValidationError" "invalid Completion"

def textField : Body → Except Error String
  | .str s => .ok s
  | _ => .error invalidCompletion

def optionalTextField : Body → Except Error (Option String)
  | .null => .ok none
  | .str s => .ok (some s)
  | _ => .error invalidCompletion

def dictField : Body → Except Error (Dict Number)
  | .obj fields => .ok fields
  | _ => .error invalidCompletion

/-- `Completion(...)` over the values an adapter read. -/
def makeCompletion (content reasoning : Body) (provider : String) (model : Body)
    (promptTokens completionTokens : ℤ) (finishReason raw : Body) : Except Error Completion := do
  let content ← textField content
  let reasoning ← optionalTextField reasoning
  let model ← textField model
  let finishReason ← optionalTextField finishReason
  let raw ← dictField raw
  pure ⟨content, reasoning, provider, model, promptTokens, completionTokens, finishReason, raw⟩

/-! ### The projections -/

section projections
variable (ofText : String → Option ℤ)

/-- The content, or the reasoning where the content is blank. -/
def effectiveContent (content reasoning : Body) : Except Error Body := do
  let stripped ← content.stripped
  pure (if stripped ≠ "" then content else reasoning.orElse (.str ""))

/-- `message.get("reasoning") or message.get("reasoning_content")`. -/
def reasoningOf (message : Body) : Except Error Body := do
  let reasoning ← message.get "reasoning"
  if reasoning.truthy then pure reasoning else message.get "reasoning_content"

/-- An OpenAI-shaped envelope. -/
def parseChatCompletion (data : Body) (provider requestedModel : String) :
    Except Error Completion := do
  let choices ← data.get "choices"
  if choices.truthy = false then
    throw (.provider (provider ++ " returned no choices") provider none)
  else do
    let choice ← choices.first
    let message ← choice.get "message"
    let message := message.orElse (.obj [])
    let content ← message.get "content"
    let content := content.orElse (.str "")
    let reasoning ← reasoningOf message
    let effective ← effectiveContent content reasoning
    let usage ← data.get "usage"
    let usage := usage.orElse (.obj [])
    let model ← data.get "model"
    let promptTokens ← usage.get "prompt_tokens"
    let promptTokens ← (promptTokens.orElse (.int 0)).toInt ofText
    let completionTokens ← usage.get "completion_tokens"
    let completionTokens ← (completionTokens.orElse (.int 0)).toInt ofText
    let finishReason ← choice.get "finish_reason"
    makeCompletion effective reasoning provider (model.orElse (.str requestedModel))
      promptTokens completionTokens finishReason data

def ollamaProviderName : String := "ollama"

/-- An Ollama native envelope. -/
def parseNativeChat (data : Body) (requestedModel : String) : Except Error Completion := do
  let message ← data.get "message"
  let message := message.orElse (.obj [])
  let content ← message.get "content"
  let content := content.orElse (.str "")
  let thinking ← message.get "thinking"
  let reasoning := thinking.orElse .null
  let effective ← effectiveContent content reasoning
  let model ← data.get "model"
  let promptTokens ← data.get "prompt_eval_count"
  let promptTokens ← (promptTokens.orElse (.int 0)).toInt ofText
  let completionTokens ← data.get "eval_count"
  let completionTokens ← (completionTokens.orElse (.int 0)).toInt ofText
  let finishReason ← data.get "done_reason"
  makeCompletion effective reasoning ollamaProviderName (model.orElse (.str requestedModel))
    promptTokens completionTokens finishReason data

end projections

/-! ### The transport -/

/-- How a request can go: it times out, the transport fails, or a response arrives, whose
body decodes or does not. -/
inductive HttpAnswer where
  | timeout
  | transport (text : String)
  | response (status : ℕ) (text : String) (json : Option Body)

/-- What is posted: where, what, and the timeout where it is not the client's default. -/
structure Post (K : Type) where
  url : String
  json : Dict K
  timeout : Option K := none

/-- `s[:n]`. -/
def firstChars (n : ℕ) (s : String) : String := String.ofList (s.toList.take n)

/-- What an adapter makes of an answer: the same on either path of the wire. -/
def readAnswer (name path : String) (parse : Body → Except Error Completion) :
    HttpAnswer → Except Error Completion
  | .timeout => .error (.timeout (name ++ " timed out calling " ++ path) name)
  | .transport text => .error (.provider (name ++ " transport error: " ++ text) name none)
  | .response status text json =>
    if 400 ≤ status then
      .error (.provider (name ++ " returned HTTP " ++ toString status ++ ": " ++
        firstChars 300 text) name (some status))
    else
      match json with
      | none => .error (.foreign "JSONDecodeError" "Expecting value")
      | some data => parse data

structure OpenAICompatibleProvider (K ω : Type) where
  name : String
  /-- The client: a request is answered, and the world goes on meanwhile. -/
  post : Post K → ω → HttpAnswer × ω
  /-- What `int` makes of a text. -/
  intOfText : String → Option ℤ

section adapters
variable {K ω : Type}

def dumpMessages (messages : List Message) : Json K :=
  .arr (messages.map fun m => .obj [("role", .str m.role), ("content", .str m.content)])

namespace OpenAICompatibleProvider

def payload (messages : List Message) (model : String) (temperature : K)
    (maxTokens : Option ℤ) (responseFormat : Option (Dict K)) (stop : List String) : Dict K :=
  [("model", .str model), ("messages", dumpMessages messages), ("temperature", .num temperature)] ++
    (maxTokens.map fun n => ("max_tokens", Json.int n)).toList ++
    (responseFormat.map fun format => ("response_format", Json.obj format)).toList ++
    if stop = [] then [] else [("stop", .arr (stop.map .str))]

/-- `complete`, over the timeout hook of the provider that runs it. -/
def completeWithin (p : OpenAICompatibleProvider K ω) (timeout : Option K)
    (messages : List Message) (model : String) (temperature : K) (maxTokens : Option ℤ)
    (responseFormat : Option (Dict K)) (stop : List String) : Prog Error ω Completion := fun w =>
  let (answer, w') := p.post
    { url := "chat/completions"
      json := payload messages model temperature maxTokens responseFormat stop
      timeout := timeout } w
  (readAnswer p.name "chat/completions"
    (fun data => parseChatCompletion p.intOfText data p.name model) answer, w')

end OpenAICompatibleProvider

/-- The local provider: a wider timeout for the thinking model, and the native endpoint
for it where JSON is asked for. -/
structure OllamaProvider (K ω : Type) extends OpenAICompatibleProvider K ω where
  reasoningModel : String
  reasoningTimeout : K
  nativeChatUrl : String

namespace OllamaProvider

def requestTimeout (p : OllamaProvider K ω) (model : String) : Option K :=
  if model = p.reasoningModel then some p.reasoningTimeout else none

def nativePayload (messages : List Message) (model : String) (temperature : K)
    (maxTokens : Option ℤ) : Dict K :=
  [("model", .str model), ("messages", dumpMessages messages), ("stream", .bool false),
    ("think", .bool false), ("format", .str "json"),
    ("options", .obj ([("temperature", .num temperature)] ++
      (maxTokens.map fun n => ("num_predict", Json.int n)).toList))]

def completeNoThink (p : OllamaProvider K ω) (messages : List Message) (model : String)
    (temperature : K) (maxTokens : Option ℤ) : Prog Error ω Completion := fun w =>
  let (answer, w') := p.post
    { url := p.nativeChatUrl, json := nativePayload messages model temperature maxTokens
      timeout := p.requestTimeout model } w
  (readAnswer p.name "/api/chat" (fun data => parseNativeChat p.intOfText data model) answer, w')

def complete (p : OllamaProvider K ω) (messages : List Message) (model : String)
    (temperature : K) (maxTokens : Option ℤ) (responseFormat : Option (Dict K))
    (stop : List String) : Prog Error ω Completion :=
  if model = p.reasoningModel ∧ responseFormat.isSome then
    p.completeNoThink messages model temperature maxTokens
  else p.completeWithin (p.requestTimeout model) messages model temperature maxTokens
    responseFormat stop

end OllamaProvider

/-- The adapters there are: Groq and any other provider of the OpenAI shape, and Ollama. -/
inductive Adapter (K ω : Type) where
  | openai (p : OpenAICompatibleProvider K ω)
  | ollama (p : OllamaProvider K ω)

namespace Adapter

def name : Adapter K ω → String
  | .openai p => p.name
  | .ollama p => p.name

def complete (a : Adapter K ω) (messages : List Message) (model : String) (temperature : K)
    (maxTokens : Option ℤ) (responseFormat : Option (Dict K)) (stop : List String) :
    Prog Error ω Completion :=
  match a with
  | .openai p => p.completeWithin none messages model temperature maxTokens responseFormat stop
  | .ollama p => p.complete messages model temperature maxTokens responseFormat stop

end Adapter
end adapters
end Johnny.LLM
