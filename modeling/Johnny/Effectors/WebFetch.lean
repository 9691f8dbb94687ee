import Johnny.Effectors.ReadableText
import Johnny.Effectors.SafeHttp
import Johnny.Effectors.Tools

/-!
# Reading a page

The tool turns what the fetcher raises into a failed result, as far as its clauses name the
class; the bytes are decoded and parsed after that, outside every clause.
-/
namespace Johnny

/-! ### The classes of the clauses -/

/-- `except SsrfError`. -/
def Failure.isSsrf : Failure → Bool
  | .exception (.other name) _ => name == "SsrfError"
  | _ => false

/-- `httpx.TimeoutException` and its subclasses. -/
def timeoutExceptions : List String :=
  ["TimeoutException", "ConnectTimeout", "ReadTimeout", "WriteTimeout", "PoolTimeout"]

/-- The other subclasses of `httpx.HTTPError`, and itself. -/
def httpErrors : List String :=
  ["HTTPError", "RequestError", "TransportError", "NetworkError", "ConnectError", "ReadError",
    "WriteError", "CloseError", "ProtocolError", "LocalProtocolError", "RemoteProtocolError",
    "ProxyError", "UnsupportedProtocol", "DecodingError", "TooManyRedirects", "HTTPStatusError"]

def Failure.isTimeout : Failure → Bool
  | .exception (.other name) _ => timeoutExceptions.contains name
  | _ => false

def Failure.isHttpError : Failure → Bool
  | .exception (.other name) _ => httpErrors.contains name
  | _ => false

/-- Some clause of the tool takes the failure. -/
def Failure.isConverted (e : Failure) : Bool := e.isSsrf || e.isTimeout || e.isHttpError

/-! ### The tool -/

structure WebFetchArgs where
  url : String

structure WebFetchTool (ω : Type) where
  fetcher : SafeFetcher ω
  /-- `str.lower`. -/
  lower : String → String
  /-- `bytes.decode(charset, errors="replace")`. -/
  decode : String → List UInt8 → Except Failure String
  /-- What the HTML parser reports of a document, or raises over it. -/
  htmlEvents : String → Except Failure (List HtmlEvent)
  maxTextChars : ℕ

namespace WebFetchTool
variable {K ω : Type}

def invalid (field reason : String) : Failure := .exception .validationError (field ++ ": " ++ reason)

def looksLikeHttpUrl (t : WebFetchTool ω) (value : String) : Except Failure String :=
  let candidate := strip value
  match t.fetcher.urlsplit candidate with
  | .error e => .error (invalid "url" e.text)
  | .ok parsed =>
    if parsed.scheme.toLower ∉ allowedSchemes then
      .error (invalid "url" "url must be an http(s) URL")
    else if (SafeFetcher.nonempty parsed.hostname).isNone then
      .error (invalid "url" "url must include a host")
    else .ok candidate

/-- `WebFetchArgs`: one text of 1 to 2048 characters, and nothing beside it. -/
def validateArgs (t : WebFetchTool ω) (raw : Dict K) : Except Failure WebFetchArgs :=
  match raw with
  | [("url", .str value)] =>
    if value.length < 1 ∨ 2048 < value.length then
      .error (invalid "url" "String should have 1 to 2048 characters")
    else (t.looksLikeHttpUrl value).map WebFetchArgs.mk
  | _ => .error (invalid "url" "Input should be a valid string, without extra inputs")

/-- `s.split(c, 1)[0]`, and the first part of `s.partition(c)`. -/
def upTo (c : Char) (s : String) : String := String.ofList (s.toList.takeWhile (· != c))

/-- The last part of `s.partition(c)`. -/
def beyond (c : Char) (s : String) : String := String.ofList ((s.toList.dropWhile (· != c)).drop 1)

/-- The charset among the parameters of a content type. -/
def charsetAmong (t : WebFetchTool ω) : List String → String
  | [] => "utf-8"
  | part :: parts =>
    let value := beyond '=' (strip part)
    if t.lower (strip (upTo '=' (strip part))) = "charset" ∧ value ≠ "" then
      let named := stripBy (· == '\'') (stripBy (· == '"') (strip value))
      if named = "" then "utf-8" else named
    else t.charsetAmong parts

def charset (t : WebFetchTool ω) (contentType : String) : String :=
  t.charsetAmong (((contentType.toList.splitOn ';').map String.ofList).drop 1)

def textContentTypes : List String := ["text/html", "application/xhtml+xml", "text/plain"]

def mime (t : WebFetchTool ω) (outcome : FetchOutcome) : String :=
  t.lower (strip (upTo ';' outcome.contentType))

def cap (t : WebFetchTool ω) (text : String) : String × Bool :=
  if text.length ≤ t.maxTextChars then (text, false)
  else (String.ofList (text.toList.take t.maxTextChars), true)

/-- The result of a failure that some clause takes. -/
def refusal (args : WebFetchArgs) (e : Failure) : ToolResult K :=
  if e.isSsrf then
    { success := false
      output := [("error", .str "blocked"), ("reason", .str e.text), ("url", .str args.url)]
      summary := "refused to fetch " ++ args.url ++ " — " ++ e.text }
  else if e.isTimeout then
    { success := false
      output := [("error", .str "timeout"), ("url", .str args.url)]
      summary := "timed out fetching " ++ args.url }
  else
    { success := false
      output := [("error", .str "http_error"), ("reason", .str e.text), ("url", .str args.url)]
      summary := "could not fetch " ++ args.url ++ " — " ++ e.text }

/-- The title and the text of a page. -/
def pageText (t : WebFetchTool ω) (outcome : FetchOutcome) : Except Failure (String × String) := do
  let decoded ← t.decode (t.charset outcome.contentType) outcome.body
  if t.mime outcome = "text/plain" then pure ("", collapseBlocks decoded)
  else
    let events ← t.htmlEvents decoded
    pure (extractReadableText events)

/-- The result of a page that was read. -/
def pageResult (t : WebFetchTool ω) (outcome : FetchOutcome) (title text : String) :
    ToolResult K :=
  let (text, textTruncated) := t.cap text
  { success := true
    output := [("url", .str outcome.finalUrl), ("title", .str title), ("text", .str text),
      ("status", .int outcome.statusCode), ("content_type", .str outcome.contentType),
      ("truncated", .bool (outcome.truncated || textTruncated))]
    summary := "read " ++ outcome.finalUrl ++ " (" ++ toString text.length ++ " chars)" ++
      if outcome.truncated || textTruncated then " [truncated]" else "" }

/-- The page is there, and text as far as its type says. -/
def IsText (t : WebFetchTool ω) (outcome : FetchOutcome) : Prop :=
  outcome.statusCode < 400 ∧ (t.mime outcome = "" ∨ t.mime outcome ∈ textContentTypes)

instance (t : WebFetchTool ω) (outcome : FetchOutcome) : Decidable (t.IsText outcome) :=
  inferInstanceAs (Decidable (_ ∧ _))

/-- What becomes of a response. -/
def readPage (t : WebFetchTool ω) (args : WebFetchArgs) (outcome : FetchOutcome) :
    Except Failure (ToolResult K) :=
  if 400 ≤ outcome.statusCode then
    .ok
      { success := false
        output := [("error", .str "http_status"), ("status", .int outcome.statusCode),
          ("url", .str outcome.finalUrl)]
        summary := args.url ++ " returned HTTP " ++ toString outcome.statusCode }
  else if t.mime outcome ≠ "" ∧ t.mime outcome ∉ textContentTypes then
    .ok
      { success := false
        output := [("error", .str "non_text"), ("content_type", .str outcome.contentType),
          ("url", .str outcome.finalUrl)]
        summary := args.url ++ " is non-text content (" ++ t.mime outcome ++ ") — not read" }
  else do
    let (title, text) ← t.pageText outcome
    pure (t.pageResult outcome title text)

def run (t : WebFetchTool ω) (args : WebFetchArgs) : Prog Failure ω (ToolResult K) := do
  let fetched ← Prog.rescue Failure.isConverted
    (do
      let outcome ← t.fetcher.fetch args.url
      pure (Except.ok outcome))
    (fun e => pure (Except.error (refusal args e)))
  match fetched with
  | .error result => pure result
  | .ok outcome => Prog.reraise (t.readPage args outcome)

end WebFetchTool

/-! ### The hops of a fetch -/

namespace SafeFetcher
variable {ω : Type} {f : SafeFetcher ω} {n : ℕ} {url : String} {w w' : ω}

/-- Of a fetch with so many hops left, one is made from there. -/
inductive Leads (f : SafeFetcher ω) : ℕ → String → ω → String → ω → Prop
  | here (n : ℕ) (url : String) (w : ω) : Leads f (n + 1) url w url w
  | next {n : ℕ} {url next last : String} {w w' v : ω} (ran : f.hop url w = (.ok (.inl next), w'))
      (later : Leads f n next w' last v) : Leads f (n + 1) url w last v

/-- The first hop that leads no further gives the outcome. -/
theorem fetchFrom_ok_iff {outcome : FetchOutcome} :
    f.fetchFrom n url w = (.ok outcome, w') ↔
      ∃ last v, f.Leads n url w last v ∧ f.hop last v = (.ok (.inr outcome), w') := by
  induction n generalizing url w with
  | zero =>
      constructor
      · intro ran
        cases ran
      · rintro ⟨last, v, leads, -⟩
        cases leads
  | succ n ih =>
      unfold fetchFrom
      constructor
      · intro ran
        obtain ⟨next | found, w₁, hopped, rest⟩ := Prog.ok_of_bind ran
        · obtain ⟨last, v, leads, ended⟩ := ih.mp rest
          exact ⟨last, v, .next hopped leads, ended⟩
        · cases rest
          exact ⟨url, w, .here n url w, hopped⟩
      · rintro ⟨last, v, leads, ended⟩
        cases leads with
        | here => exact Prog.bind_of_ok ended
        | next ran later => exact (Prog.bind_of_ok ran).trans (ih.mpr ⟨last, v, later, ended⟩)

/-! ### What a fetch raises -/

/-- Where the body breaks off before the limit, it is by a failure of `C`; and the next hop, where
there is one, can be joined and split but for failures of `C`. -/
structure Responds (f : SafeFetcher ω) (C : Failure → Prop) (url : String)
    (response : HttpResponse) : Prop where
  redirect : ∀ location, response.statusCode ∈ redirectCodes →
    nonempty (response.header "location") = some location →
      (∀ e, f.urljoin url location = .error e → C e) ∧
        ∀ next e, f.urljoin url location = .ok next → f.urlsplit next = .error e → C e
  body : (response.statusCode ∈ redirectCodes → nonempty (response.header "location") = none) →
    (response.chunks = [] ∨ response.chunks.flatten.length < f.maxBytes) →
      ∀ e, response.broken = some e → C e

/-- Whatever is called in a hop raises nothing outside `C`. -/
structure Tame (f : SafeFetcher ω) (C : Failure → Prop) (url : String) (w : ω) : Prop where
  split : ∀ e, f.urlsplit url = .error e → C e
  resolve : ∀ parsed scheme host port, f.urlsplit url = .ok parsed →
    authority parsed = .ok (scheme, host, port) → f.ipAddress host = none →
      Prog.RaisesOnly C (f.resolver host) w
  read : ∀ target w₁, f.validateTarget url w = (.ok target, w₁) →
    ∀ e, f.httpUrl url = .error e → C e
  build : ∀ target w₁ read, f.validateTarget url w = (.ok target, w₁) →
    f.httpUrl url = .ok read → ∀ e, f.build (f.request target read) = .error e → C e
  send : ∀ target w₁ request, f.validateTarget url w = (.ok target, w₁) →
    f.buildRequest target = .ok request → Prog.RaisesOnly C (f.send request) w₁
  aclose : ∀ target w₁ request response w₂, f.validateTarget url w = (.ok target, w₁) →
    f.buildRequest target = .ok request → f.send request w₁ = (.ok response, w₂) →
      Prog.RaisesOnly C (f.aclose response) w₂
  respond : ∀ target w₁ request response w₂ w₃, f.validateTarget url w = (.ok target, w₁) →
    f.buildRequest target = .ok request → f.send request w₁ = (.ok response, w₂) →
      f.aclose response w₂ = (.ok (), w₃) → f.Responds C url response

section raises
variable {C : Failure → Prop}

theorem authority_guarded (guard : ∀ text, C (ssrfError text)) (parsed : SplitUrl) (e : Failure)
    (refused : authority parsed = .error e) : C e := by
  unfold authority at refused
  dsimp only at refused
  split at refused
  · cases refused
    exact guard _
  · split at refused
    · cases refused
      exact guard _
    · split at refused <;> cases refused <;> exact guard _

theorem pinned_guarded (guard : ∀ text, C (ssrfError text)) {scheme host : String} {port : ℕ}
    {candidates : List String} (e : Failure)
    (refused : f.pinned url scheme host port candidates = .error e) : C e := by
  unfold pinned at refused
  split at refused
  · cases refused
    exact guard _
  · split at refused
    · cases refused
      exact guard _
    · cases refused

theorem validateTarget_raises_iff (guard : ∀ text, C (ssrfError text)) :
    Prog.RaisesOnly C (f.validateTarget url) w ↔ (∀ e, f.urlsplit url = .error e → C e) ∧
      ∀ parsed scheme host port, f.urlsplit url = .ok parsed →
        authority parsed = .ok (scheme, host, port) → f.ipAddress host = none →
          Prog.RaisesOnly C (f.resolver host) w := by
  unfold validateTarget
  rw [Prog.RaisesOnly.bind_iff, Prog.RaisesOnly.reraise_iff]
  refine and_congr_right fun _ => ?_
  constructor
  · intro only parsed scheme host port split allowed named
    have rest := only parsed w (Prog.reraise_ok_iff.mpr ⟨split, rfl⟩)
    rw [Prog.RaisesOnly.bind_iff] at rest
    have rest := rest.2 (scheme, host, port) w (Prog.reraise_ok_iff.mpr ⟨allowed, rfl⟩)
    dsimp only at rest
    rw [Prog.RaisesOnly.bind_iff] at rest
    have called := rest.1
    unfold candidates at called
    rwa [named] at called
  · intro only parsed t read
    obtain ⟨split, rfl⟩ := Prog.reraise_ok_iff.mp read
    rw [Prog.RaisesOnly.bind_iff, Prog.RaisesOnly.reraise_iff]
    refine ⟨authority_guarded guard parsed, ?_⟩
    rintro ⟨scheme, host, port⟩ t passed
    obtain ⟨allowed, rfl⟩ := Prog.reraise_ok_iff.mp passed
    dsimp only
    rw [Prog.RaisesOnly.bind_iff]
    refine ⟨?_, fun _ _ _ => Prog.RaisesOnly.reraise_iff.mpr (pinned_guarded guard)⟩
    unfold candidates
    cases named : f.ipAddress host with
    | none => exact only parsed scheme host port split allowed named
    | some _ => exact .pure _

theorem buildRequest_error_iff {target : ValidatedTarget} {e : Failure} :
    f.buildRequest target = .error e ↔ f.httpUrl target.url = .error e ∨
      ∃ url, f.httpUrl target.url = .ok url ∧ f.build (f.request target url) = .error e := by
  unfold buildRequest
  cases f.httpUrl target.url with
  | error raised =>
      constructor
      · rintro ⟨⟩
        exact .inl rfl
      · rintro (⟨⟨⟩⟩ | ⟨_, ⟨⟩, _⟩)
        rfl
  | ok url =>
      change (f.build (f.request target url) >>= fun _ => pure (f.request target url)) = _ ↔ _
      cases built : f.build (f.request target url) with
      | error raised =>
          constructor
          · rintro ⟨⟩
            exact .inr ⟨url, rfl, built⟩
          · rintro (⟨⟨⟩⟩ | ⟨_, ⟨⟩, same⟩)
            cases built.symm.trans same
            rfl
      | ok _ =>
          refine ⟨nofun, ?_⟩
          rintro (⟨⟨⟩⟩ | ⟨_, ⟨⟩, same⟩)
          cases built.symm.trans same

/-- The stream is read to its break exactly where the limit is not reached before. -/
theorem readFrom_error {broken : Option Failure} {e : Failure} {body : List UInt8}
    (chunks : List (List UInt8)) :
    f.readFrom broken body chunks = .error e ↔ broken = some e ∧
      (chunks = [] ∨ (body ++ chunks.flatten).length < f.maxBytes) := by
  induction chunks generalizing body with
  | nil =>
      unfold readFrom
      cases broken with
      | none =>
          constructor
          · intro same
            cases same
          · rintro ⟨same, -⟩
            cases same
      | some failure =>
          rw [Except.error.injEq, Option.some.injEq]
          exact (and_iff_left (.inl rfl)).symm
  | cons chunk chunks ih =>
      unfold readFrom
      rw [List.flatten_cons, ← List.append_assoc]
      split
      case isTrue full =>
        constructor
        · intro same
          cases same
        rintro ⟨-, none | short⟩
        · cases none
        · exact absurd (full.trans (List.prefix_append _ _).length_le) short.not_ge
      case isFalse short =>
        rw [ih]
        refine and_congr_right fun _ => ?_
        constructor
        · rintro (rfl | shorter)
          · refine .inr ?_
            rw [List.flatten_nil, List.append_nil]
            exact Nat.lt_of_not_le short
          · exact .inr shorter
        · rintro (none | shorter)
          · cases none
          · exact .inr shorter

theorem follow_raises_iff {response : HttpResponse} :
    (∀ e, f.follow url response = .error e → C e) ↔ f.Responds C url response := by
  by_cases leads : response.statusCode ∈ redirectCodes ∧
    ∃ location, nonempty (response.header "location") = some location
  · obtain ⟨code, location, named⟩ := leads
    have joins : f.follow url response = (do
        let next ← f.urljoin url location
        let _ ← f.urlsplit next
        pure (.inl next)) := by
      unfold follow
      rw [List.contains_iff_mem.mpr code, named]
    rw [joins]
    constructor
    · intro only
      refine ⟨fun other _ same => ?_, fun none => ?_⟩
      · cases named.symm.trans same
        refine ⟨fun e failed => only e (by rw [failed]; rfl), fun next e joined failed => ?_⟩
        refine only e ?_
        rw [joined]
        change (f.urlsplit next >>= fun _ => pure (Sum.inl next)) = _
        rw [failed]
        rfl
      · cases (none code).symm.trans named
    · intro tame e failed
      obtain ⟨join, split⟩ := tame.redirect location code named
      cases joined : f.urljoin url location with
      | error raised =>
          rw [joined] at failed
          cases failed
          exact join e joined
      | ok next =>
          rw [joined] at failed
          change (f.urlsplit next >>= fun _ => pure (Sum.inl next)) = _ at failed
          cases read : f.urlsplit next with
          | error raised =>
              rw [read] at failed
              cases failed
              exact split next e joined read
          | ok parsed =>
              rw [read] at failed
              cases failed
  · have stays : response.statusCode ∈ redirectCodes →
        nonempty (response.header "location") = none := by
      intro code
      by_contra named
      exact leads ⟨code, Option.ne_none_iff_exists'.mp named⟩
    have reads : ∀ e, f.follow url response = .error e ↔ f.readCapped response = .error e := by
      intro e
      unfold follow
      split
      next location code named =>
        cases (stays (List.contains_iff_mem.mp code)).symm.trans named
      next =>
        cases f.readCapped response with
        | error raised =>
            constructor
            · rintro ⟨⟩
              rfl
            · rintro ⟨⟩
              rfl
        | ok read => exact ⟨nofun, nofun⟩
    have broken (e : Failure) : f.readCapped response = .error e ↔ response.broken = some e ∧
        (response.chunks = [] ∨ response.chunks.flatten.length < f.maxBytes) := by
      unfold readCapped
      rw [readFrom_error response.chunks, List.nil_append]
    simp only [reads, broken]
    constructor
    · intro only
      refine ⟨fun location code named => ?_, fun _ short e raised => only e ⟨raised, short⟩⟩
      cases (stays code).symm.trans named
    · intro tame e both
      exact tame.body stays both.2 e both.1

/-- A hop raises what its calls raise, and the refusals of the guard. -/
theorem hop_raises_iff (guard : ∀ text, C (ssrfError text)) :
    Prog.RaisesOnly C (f.hop url) w ↔ f.Tame C url w := by
  unfold hop
  rw [Prog.RaisesOnly.bind_iff, validateTarget_raises_iff guard]
  constructor
  · rintro ⟨⟨split, resolve⟩, rest⟩
    have built {target : ValidatedTarget} {w₁ : ω}
        (validated : f.validateTarget url w = (.ok target, w₁)) :=
      Prog.RaisesOnly.bind_iff.mp (rest target w₁ validated)
    have sent {target : ValidatedTarget} {w₁ : ω} {request : HttpRequest}
        (validated : f.validateTarget url w = (.ok target, w₁))
        (build : f.buildRequest target = .ok request) :=
      Prog.RaisesOnly.bind_iff.mp
        ((built validated).2 request w₁ (Prog.reraise_ok_iff.mpr ⟨build, rfl⟩))
    have ended {target : ValidatedTarget} {w₁ w₂ : ω} {request : HttpRequest}
        {response : HttpResponse} (validated : f.validateTarget url w = (.ok target, w₁))
        (build : f.buildRequest target = .ok request)
        (answer : f.send request w₁ = (.ok response, w₂)) :=
      Prog.RaisesOnly.ensure_iff.mp ((sent validated build).2 response w₂ answer)
    refine ⟨split, resolve, ?_, ?_, ?_, ?_, ?_⟩
    · intro target w₁ validated e failed
      rw [← (validateTarget_ok validated).1] at failed
      exact Prog.RaisesOnly.reraise_iff.mp (built validated).1 e
        (buildRequest_error_iff.mpr (.inl failed))
    · intro target w₁ read validated reads e failed
      rw [← (validateTarget_ok validated).1] at reads
      exact Prog.RaisesOnly.reraise_iff.mp (built validated).1 e
        (buildRequest_error_iff.mpr (.inr ⟨read, reads, failed⟩))
    · intro target w₁ request validated build
      exact (sent validated build).1
    · intro target w₁ request response w₂ validated build answer
      have closing := (ended validated build answer).1
      rwa [Prog.reraise_apply] at closing
    · intro target w₁ request response w₂ w₃ validated build answer closed
      have follows := (ended validated build answer).2 w₃ (by rw [Prog.reraise_apply]; exact closed)
      exact follow_raises_iff.mp (Prog.RaisesOnly.reraise_iff.mp follows)
  · intro tame
    refine ⟨⟨tame.split, tame.resolve⟩, fun target w₁ validated => ?_⟩
    rw [Prog.RaisesOnly.bind_iff, Prog.RaisesOnly.reraise_iff]
    constructor
    · intro e failed
      rw [buildRequest_error_iff, (validateTarget_ok validated).1] at failed
      rcases failed with unread | ⟨read, reads, unbuilt⟩
      · exact tame.read target w₁ validated e unread
      · exact tame.build target w₁ read validated reads e unbuilt
    · intro request t built
      obtain ⟨build, rfl⟩ := Prog.reraise_ok_iff.mp built
      rw [Prog.RaisesOnly.bind_iff]
      refine ⟨tame.send target _ request validated build, fun response w₂ answer => ?_⟩
      rw [Prog.RaisesOnly.ensure_iff, Prog.reraise_apply, Prog.RaisesOnly.reraise_iff]
      refine ⟨tame.aclose target _ request response w₂ validated build answer, ?_⟩
      intro w₃ closed
      exact follow_raises_iff.mpr
        (tame.respond target _ request response w₂ w₃ validated build answer closed)

/-- A fetch raises nothing outside `C` exactly where no hop it makes does. -/
theorem fetchFrom_raises_iff (guard : ∀ text, C (ssrfError text)) (n : ℕ) (url : String) (w : ω) :
    Prog.RaisesOnly C (f.fetchFrom n url) w ↔
      ∀ last v, f.Leads n url w last v → f.Tame C last v := by
  induction n generalizing url w with
  | zero =>
      constructor
      · intro _ last v leads
        cases leads
      · intro _ e t raised
        cases raised
        exact guard _
  | succ n ih =>
      unfold fetchFrom
      rw [Prog.RaisesOnly.bind_iff, hop_raises_iff guard]
      constructor
      · rintro ⟨tame, rest⟩ last v leads
        cases leads with
        | here => exact tame
        | next ran later => exact (ih _ _).mp (rest _ _ ran) last v later
      · intro tame
        refine ⟨tame url w (.here n url w), fun led t ran => ?_⟩
        cases led with
        | inl next => exact (ih next t).mpr fun last v later => tame last v (.next ran later)
        | inr outcome => exact .pure _

end raises
end SafeFetcher

/-! ### What the tool raises -/

namespace WebFetchTool
variable {K ω : Type}

/-- The run returns, and with success only where the page was fetched and its text read. -/
def Graceful (K : Type) (t : WebFetchTool ω) (args : WebFetchArgs) (w : ω) : Prop :=
  ∃ result : ToolResult K, (t.run args w).1 = .ok result ∧ (result.success = true →
    ∃ outcome page, (t.fetcher.fetch args.url w).1 = .ok outcome ∧ t.IsText outcome ∧
      t.pageText outcome = .ok page)

/-- Every call of every hop raises classes that the clauses name, and where the last hop gives a
page of text, its bytes can be decoded by the charset it names and parsed. -/
structure Convertible (t : WebFetchTool ω) (args : WebFetchArgs) (w : ω) : Prop where
  hops : ∀ last v, t.fetcher.Leads (t.fetcher.maxRedirects + 1) args.url w last v →
    t.fetcher.Tame (fun e => e.isConverted = true) last v
  page : ∀ last v outcome w', t.fetcher.Leads (t.fetcher.maxRedirects + 1) args.url w last v →
    t.fetcher.hop last v = (.ok (.inr outcome), w') → t.IsText outcome →
      ∃ decoded, t.decode (t.charset outcome.contentType) outcome.body = .ok decoded ∧
        (t.mime outcome ≠ "text/plain" → ∃ events, t.htmlEvents decoded = .ok events)

theorem pageText_of_decoded {t : WebFetchTool ω} {outcome : FetchOutcome} {decoded : String}
    (read : t.decode (t.charset outcome.contentType) outcome.body = .ok decoded) :
    t.pageText outcome = if t.mime outcome = "text/plain" then .ok ("", collapseBlocks decoded)
      else (t.htmlEvents decoded).map extractReadableText := by
  unfold pageText
  rw [read]
  refine (ite_congr rfl (fun _ => rfl) fun _ => ?_)
  cases t.htmlEvents decoded <;> rfl

theorem pageText_ok_iff {t : WebFetchTool ω} {outcome : FetchOutcome} :
    (∃ page, t.pageText outcome = .ok page) ↔
      ∃ decoded, t.decode (t.charset outcome.contentType) outcome.body = .ok decoded ∧
        (t.mime outcome ≠ "text/plain" → ∃ events, t.htmlEvents decoded = .ok events) := by
  cases read : t.decode (t.charset outcome.contentType) outcome.body with
  | error e =>
      have failed : t.pageText outcome = .error e := by
        unfold pageText
        rw [read]
        rfl
      rw [failed]
      exact ⟨fun ⟨_, same⟩ => (nomatch same), fun ⟨_, same, _⟩ => nomatch same⟩
  | ok decoded =>
      rw [pageText_of_decoded read]
      by_cases plain : t.mime outcome = "text/plain"
      · rw [if_pos plain]
        exact ⟨fun _ => ⟨decoded, rfl, fun other => absurd plain other⟩, fun _ => ⟨_, rfl⟩⟩
      · rw [if_neg plain]
        constructor
        · rintro ⟨page, parsed⟩
          refine ⟨decoded, rfl, fun _ => ?_⟩
          cases found : t.htmlEvents decoded with
          | error e =>
              rw [found] at parsed
              cases parsed
          | ok events => exact ⟨events, rfl⟩
        · rintro ⟨_, ⟨⟩, parsed⟩
          obtain ⟨events, found⟩ := parsed plain
          rw [found]
          exact ⟨_, rfl⟩

theorem readPage_of_text {t : WebFetchTool ω} {outcome : FetchOutcome} (text : t.IsText outcome)
    (args : WebFetchArgs) : (t.readPage args outcome : Except Failure (ToolResult K)) =
      (t.pageText outcome).map fun page => t.pageResult outcome page.1 page.2 := by
  unfold readPage
  rw [if_neg text.1.not_ge, if_neg fun other => text.2.elim other.1 other.2]
  cases t.pageText outcome <;> rfl

theorem readPage_of_not_text {t : WebFetchTool ω} {outcome : FetchOutcome}
    (other : ¬ t.IsText outcome) (args : WebFetchArgs) :
    ∃ result : ToolResult K, t.readPage args outcome = .ok result ∧ result.success = false := by
  unfold readPage
  split
  · exact ⟨_, rfl, rfl⟩
  · next status =>
      rw [if_pos]
      · exact ⟨_, rfl, rfl⟩
      · by_contra mime
        refine other ⟨Nat.lt_of_not_le status, ?_⟩
        by_contra typed
        exact mime (not_or.mp typed)

section runs
variable {t : WebFetchTool ω} {args : WebFetchArgs} {w w' : ω}

theorem run_of_fetched {outcome : FetchOutcome}
    (fetched : t.fetcher.fetch args.url w = (.ok outcome, w')) :
    t.run args w = ((t.readPage args outcome : Except Failure (ToolResult K)), w') := by
  have inner : (do
      let outcome ← t.fetcher.fetch args.url
      pure (Except.ok outcome : Except (ToolResult K) FetchOutcome)) w = (.ok (.ok outcome), w') :=
    Prog.bind_of_ok fetched
  unfold run
  rw [Prog.bind_of_ok (Prog.rescue_of_ok inner)]
  exact Prog.reraise_apply (t.readPage args outcome) w'

theorem run_of_converted {e : Failure} (failed : t.fetcher.fetch args.url w = (.error e, w'))
    (converted : e.isConverted = true) :
    t.run args w = ((.ok (refusal args e) : Except Failure (ToolResult K)), w') := by
  have inner : (do
      let outcome ← t.fetcher.fetch args.url
      pure (Except.ok outcome : Except (ToolResult K) FetchOutcome)) w = (.error e, w') :=
    Prog.bind_of_error failed
  unfold run
  rw [Prog.bind_of_ok (Prog.rescue_of_caught inner converted)]
  rfl

theorem run_of_passed {e : Failure} (failed : t.fetcher.fetch args.url w = (.error e, w'))
    (passed : e.isConverted = false) :
    t.run args w = ((.error e : Except Failure (ToolResult K)), w') := by
  have inner : (do
      let outcome ← t.fetcher.fetch args.url
      pure (Except.ok outcome : Except (ToolResult K) FetchOutcome)) w = (.error e, w') :=
    Prog.bind_of_error failed
  unfold run
  exact Prog.bind_of_error (Prog.rescue_of_passed inner passed)

theorem refusal_failed (args : WebFetchArgs) (e : Failure) :
    (refusal args e : ToolResult K).success = false := by
  unfold refusal
  split
  · rfl
  · split <;> rfl

end runs

/-- The tool returns exactly where each failure on the way is of a class that its clauses name,
and the page, if there is one to read, can be decoded and parsed. -/
theorem web_fetch_returns_iff (K : Type) (t : WebFetchTool ω) (args : WebFetchArgs) (w : ω) :
    t.Graceful K args w ↔ t.Convertible args w := by
  have guard (text : String) : (ssrfError text).isConverted = true := rfl
  have raises := SafeFetcher.fetchFrom_raises_iff (f := t.fetcher)
    (C := fun e => e.isConverted = true) guard (t.fetcher.maxRedirects + 1) args.url w
  rcases fetched : t.fetcher.fetch args.url w with ⟨e | outcome, w'⟩
  · cases converted : e.isConverted with
    | true =>
        have run := run_of_converted (K := K) fetched converted
        refine iff_of_true ⟨_, congrArg Prod.fst run, fun ok => ?_⟩ ⟨raises.mp ?_, ?_⟩
        · rw [refusal_failed] at ok
          cases ok
        · intro e' t' raised
          cases fetched.symm.trans raised
          exact converted
        · intro last v outcome w' leads ended
          cases fetched.symm.trans (SafeFetcher.fetchFrom_ok_iff.mpr ⟨last, v, leads, ended⟩)
    | false =>
        refine iff_of_false ?_ fun tame => ?_
        · rintro ⟨result, returned, -⟩
          rw [run_of_passed fetched converted] at returned
          cases returned
        · exact Bool.false_ne_true (converted.symm.trans (raises.mpr tame.hops e w' fetched))
  · have tame : ∀ last v, t.fetcher.Leads (t.fetcher.maxRedirects + 1) args.url w last v →
        t.fetcher.Tame (fun e => e.isConverted = true) last v := by
      refine raises.mp fun e t' raised => ?_
      cases fetched.symm.trans raised
    obtain ⟨last, v, leads, ended⟩ := SafeFetcher.fetchFrom_ok_iff.mp fetched
    have only {last : String} {v w₂ : ω} {other : FetchOutcome}
        (leads : t.fetcher.Leads (t.fetcher.maxRedirects + 1) args.url w last v)
        (ended : t.fetcher.hop last v = (.ok (.inr other), w₂)) : other = outcome := by
      cases fetched.symm.trans (SafeFetcher.fetchFrom_ok_iff.mpr ⟨last, v, leads, ended⟩)
      rfl
    unfold Graceful
    rw [run_of_fetched fetched]
    by_cases text : t.IsText outcome
    · rw [readPage_of_text text]
      constructor
      · rintro ⟨result, returned, -⟩
        refine ⟨tame, ?_⟩
        rintro last v other w₂ leads ended -
        obtain rfl := only leads ended
        refine pageText_ok_iff.mp ?_
        cases read : t.pageText other with
        | error e =>
            rw [read] at returned
            cases returned
        | ok page => exact ⟨page, rfl⟩
      · intro convertible
        obtain ⟨page, read⟩ := pageText_ok_iff.mpr
          (convertible.page last v outcome w' leads ended text)
        refine ⟨t.pageResult outcome page.1 page.2, ?_, fun _ => ?_⟩
        · rw [read]
          rfl
        · exact ⟨outcome, page, by rw [fetched], text, read⟩
    · obtain ⟨result, read, failed⟩ := readPage_of_not_text (K := K) text args
      refine iff_of_true ⟨result, read, fun ok => ?_⟩ ⟨tame, ?_⟩
      · rw [failed] at ok
        cases ok
      · intro last v other w₂ leads ended isText
        exact absurd (only leads ended ▸ isText) text

/-! ### A name that does not resolve -/

namespace Unresolved

def notKnown : Failure := .exception (.other "gaierror") "[Errno -2] Name or service not known"

def nowhere : SafeFetcher Unit where
  urlsplit _ := .ok { scheme := "https", hostname := some "nowhere.example" }
  urljoin _ location := .ok location
  ipAddress _ := none
  resolver _ := Prog.raise notKnown
  httpUrl _ := .ok { scheme := "https", host := "nowhere.example" }
  build _ := .ok ()
  send _ := Prog.raise notKnown
  aclose _ := pure ()

def tool : WebFetchTool Unit where
  fetcher := nowhere
  lower s := s.toLower
  decode _ _ := .ok ""
  htmlEvents _ := .ok []
  maxTextChars := 20000

def page : String := "https://nowhere.example/"

end Unresolved

open Unresolved in
/-- The argument is valid, and the failure of the resolver goes through every clause. -/
theorem unresolved_raises :
    (tool.validateArgs [("url", Json.str (K := ℕ) page)]).map WebFetchArgs.url = .ok page ∧
      ((tool.run (K := ℕ) ⟨page⟩ ()).1.map fun _ => ()) = .error notKnown ∧
      ¬ tool.Graceful ℕ ⟨page⟩ () := by
  have raised : ((tool.run (K := ℕ) ⟨page⟩ ()).1.map fun _ => ()) = .error notKnown := by
    decide +kernel
  refine ⟨by decide +kernel, raised, ?_⟩
  rintro ⟨result, returned, -⟩
  rw [returned] at raised
  cases raised

end WebFetchTool
end Johnny
