import Johnny.Foundation.Values
import Johnny.Lib.Hoare

/-!
# Guarded fetching

Each hop of a redirect chain is resolved, classified and pinned before anything is sent.
How URLs and addresses are read, what names resolve to and what servers answer is left
open: the chain is walked the same way whatever they say.
-/
namespace Johnny

def ssrfError (text : String) : Failure := .exception (.other "SsrfError") text

def allowedSchemes : List String := ["http", "https"]

def metadataIps : List String := ["169.254.169.254", "fd00:ec2::254"]

def redirectCodes : List ℕ := [301, 302, 303, 307, 308]

/-- `_ACCEPT`. -/
def acceptHeader : String := "text/html,application/xhtml+xml,text/plain;q=0.9,*/*;q=0.5"

/-- An address as it prints, and how it is classified. -/
structure IpFacts where
  text : String
  isGlobal : Bool
  isPrivate : Bool
  isLoopback : Bool
  isLinkLocal : Bool
  isMulticast : Bool
  isReserved : Bool
  isUnspecified : Bool

structure IpAddress extends IpFacts where
  ipv4Mapped : Option IpFacts := none

/-- `_normalise`: a mapped address goes by the rules of what it maps. -/
def IpAddress.normalise (ip : IpAddress) : IpFacts := ip.ipv4Mapped.getD ip.toIpFacts

/-- What `urlsplit` reads; the port is read when it is asked for. -/
structure SplitUrl where
  scheme : String
  username : Option String := none
  password : Option String := none
  hostname : Option String
  port : Except Failure (Option ℕ) := .ok none

structure ValidatedTarget where
  url : String
  scheme : String
  host : String
  port : ℕ
  connectIp : String
  hostHeader : String

/-- An `httpx.URL`, with what is neither scheme, host nor port in one text. -/
structure HttpUrl where
  scheme : String
  host : String
  port : Option ℕ := none
  target : String := ""

structure HttpRequest where
  method : String
  url : HttpUrl
  headers : List (String × String)
  sniHostname : String

/-- The body comes in chunks, after which the stream ends or raises. -/
structure HttpResponse where
  statusCode : ℕ
  header : String → Option String
  url : String
  chunks : List (List UInt8) := []
  broken : Option Failure := none

structure FetchOutcome where
  finalUrl : String
  statusCode : ℕ
  contentType : String
  body : List UInt8
  truncated : Bool

structure SafeFetcher (ω : Type) where
  urlsplit : String → Except Failure SplitUrl
  urljoin : String → String → Except Failure String
  /-- `ipaddress.ip_address`. -/
  ipAddress : String → Option IpAddress
  resolver : String → Prog Failure ω (List String)
  /-- `httpx.URL`. -/
  httpUrl : String → Except Failure HttpUrl
  /-- What the client raises over a request that it cannot build. -/
  build : HttpRequest → Except Failure Unit
  send : HttpRequest → Prog Failure ω HttpResponse
  aclose : HttpResponse → Prog Failure ω Unit
  maxRedirects : ℕ := 5
  maxBytes : ℕ := 2000000
  userAgent : String := "Johnny5/1.0"

namespace SafeFetcher
variable {ω : Type}

def ipIsBlocked (f : SafeFetcher ω) (raw : String) : Bool :=
  match f.ipAddress raw with
  | none => true
  | some address =>
    let ip := address.normalise
    metadataIps.contains ip.text || !ip.isGlobal ||
      (ip.isPrivate || ip.isLoopback || ip.isLinkLocal || ip.isMulticast || ip.isReserved ||
        ip.isUnspecified)

def defaultPort (scheme : String) : ℕ := if scheme = "https" then 443 else 80

/-- `x or None`, of a text. -/
def nonempty (text : Option String) : Option String := text.filter fun t => t != ""

/-- The label of the `Host` header. -/
def hostLabel (host : String) : String :=
  if host.toList.contains ':' then "[" ++ host ++ "]" else host

/-- An address literal needs no resolution. -/
def candidates (f : SafeFetcher ω) (host : String) : Prog Failure ω (List String) :=
  match f.ipAddress host with
  | some _ => pure [host]
  | none => f.resolver host

/-- The target, once every candidate is cleared. -/
def pinned (f : SafeFetcher ω) (url scheme host : String) (port : ℕ) (candidates : List String) :
    Except Failure ValidatedTarget :=
  match candidates with
  | [] => .error (ssrfError ("could not resolve host " ++ pyRepr host))
  | first :: _ =>
    match candidates.find? f.ipIsBlocked with
    | some ip =>
      .error (ssrfError ("host " ++ pyRepr host ++ " resolves to a blocked address (" ++ ip ++ ")"))
    | none => .ok
        { url := url, scheme := scheme, host := host, port := port, connectIp := first
          hostHeader := if port = defaultPort scheme then hostLabel host
            else hostLabel host ++ ":" ++ toString port }

/-- Scheme, host and port of a URL that may be fetched at all. -/
def authority (parsed : SplitUrl) : Except Failure (String × String × ℕ) :=
  let scheme := parsed.scheme.toLower
  if scheme ∉ allowedSchemes then
    .error (ssrfError ("scheme " ++ pyRepr (if scheme = "" then "(none)" else scheme) ++
      " is not allowed (only http/https)"))
  else if (nonempty parsed.username).isSome || (nonempty parsed.password).isSome then
    .error (ssrfError "embedded URL credentials are not allowed")
  else
    match nonempty parsed.hostname, parsed.port with
    | none, _ => .error (ssrfError "URL has no host")
    | some _, .error _ => .error (ssrfError "URL has an invalid port")
    | some host, .ok none | some host, .ok (some 0) => .ok (scheme, host, defaultPort scheme)
    | some host, .ok (some port) => .ok (scheme, host, port)

def validateTarget (f : SafeFetcher ω) (url : String) : Prog Failure ω ValidatedTarget := do
  let parsed ← Prog.reraise (f.urlsplit url)
  let (scheme, host, port) ← Prog.reraise (authority parsed)
  let candidates ← f.candidates host
  Prog.reraise (f.pinned url scheme host port candidates)

/-- The connection goes to the address, and the headers carry the name. -/
def request (f : SafeFetcher ω) (target : ValidatedTarget) (url : HttpUrl) : HttpRequest where
  method := "GET"
  url := { url with host := target.connectIp, port := some target.port }
  headers := [("Host", target.hostHeader), ("User-Agent", f.userAgent),
    ("Accept", acceptHeader), ("Accept-Encoding", "identity")]
  sniHostname := target.host

def buildRequest (f : SafeFetcher ω) (target : ValidatedTarget) : Except Failure HttpRequest := do
  let url ← f.httpUrl target.url
  f.build (f.request target url)
  pure (f.request target url)

/-- The rest of `_read_capped`, with what is read so far. -/
def readFrom (f : SafeFetcher ω) (broken : Option Failure) (body : List UInt8) :
    List (List UInt8) → Except Failure (List UInt8 × Bool)
  | [] =>
    match broken with
    | some failure => .error failure
    | none => .ok (body.take f.maxBytes, false)
  | chunk :: chunks =>
    if f.maxBytes ≤ (body ++ chunk).length then .ok ((body ++ chunk).take f.maxBytes, true)
    else f.readFrom broken (body ++ chunk) chunks

def readCapped (f : SafeFetcher ω) (response : HttpResponse) :
    Except Failure (List UInt8 × Bool) :=
  f.readFrom response.broken [] response.chunks

/-- What a response leads to: the URL of the next hop, or the outcome. -/
def follow (f : SafeFetcher ω) (current : String) (response : HttpResponse) :
    Except Failure (String ⊕ FetchOutcome) :=
  match redirectCodes.contains response.statusCode, nonempty (response.header "location") with
  | true, some location => do
    let next ← f.urljoin current location
    -- the host of the next hop is logged
    let _ ← f.urlsplit next
    pure (.inl next)
  | _, _ => do
    let (body, truncated) ← f.readCapped response
    pure (.inr
      { finalUrl := response.url, statusCode := response.statusCode
        contentType := (response.header "content-type").getD "", body := body
        truncated := truncated })

/-- One hop: what is sent goes to the target that was validated just before. -/
def hop (f : SafeFetcher ω) (current : String) : Prog Failure ω (String ⊕ FetchOutcome) := do
  let target ← f.validateTarget current
  let request ← Prog.reraise (f.buildRequest target)
  let response ← f.send request
  Prog.ensure (Prog.reraise (f.follow current response)) (f.aclose response)

/-- So many hops are left. -/
def fetchFrom (f : SafeFetcher ω) : ℕ → String → Prog Failure ω FetchOutcome
  | 0, _ => Prog.raise (ssrfError ("too many redirects (cap " ++ toString f.maxRedirects ++ ")"))
  | n + 1, current => do
    match ← f.hop current with
    | .inl next => f.fetchFrom n next
    | .inr outcome => pure outcome

def fetch (f : SafeFetcher ω) (url : String) : Prog Failure ω FetchOutcome :=
  f.fetchFrom (f.maxRedirects + 1) url

/-! ### What is cleared -/

variable {f : SafeFetcher ω} {url : String} {w w' : ω} {target : ValidatedTarget}

theorem pinned_ok {scheme host : String} {port : ℕ} {candidates : List String}
    (cleared : f.pinned url scheme host port candidates = .ok target) :
    target.url = url ∧ target.scheme = scheme ∧ target.connectIp ∈ candidates ∧
      ∀ ip ∈ candidates, f.ipIsBlocked ip = false := by
  unfold pinned at cleared
  split at cleared
  · cases cleared
  · next first rest =>
      split at cleared
      · cases cleared
      · next unblocked =>
          cases cleared
          refine ⟨rfl, rfl, List.mem_cons_self, fun ip member => ?_⟩
          simpa using List.find?_eq_none.mp unblocked ip member

theorem authority_ok {parsed : SplitUrl} {scheme host : String} {port : ℕ}
    (read : authority parsed = .ok (scheme, host, port)) :
    scheme = parsed.scheme.toLower ∧ scheme ∈ allowedSchemes := by
  unfold authority at read
  by_cases allowed : parsed.scheme.toLower ∈ allowedSchemes
  · simp only [allowed, not_true_eq_false, if_false] at read
    split at read
    · cases read
    · split at read <;> cases read <;> exact ⟨rfl, allowed⟩
  · simp only [allowed, not_false_eq_true, if_true] at read
    cases read

theorem buildRequest_ok_iff {request : HttpRequest} : f.buildRequest target = .ok request ↔
    ∃ url, f.httpUrl target.url = .ok url ∧ f.build (f.request target url) = .ok () ∧
      request = f.request target url := by
  unfold buildRequest
  cases f.httpUrl target.url with
  | error e => exact ⟨nofun, fun ⟨_, read, _⟩ => nomatch read⟩
  | ok url =>
      change (f.build (f.request target url) >>= fun _ => pure (f.request target url)) = _ ↔ _
      cases built : f.build (f.request target url) with
      | error e =>
          refine ⟨nofun, ?_⟩
          rintro ⟨_, ⟨⟩, accepted, -⟩
          cases built.symm.trans accepted
      | ok _ =>
          constructor
          · rintro ⟨⟩
            exact ⟨url, rfl, built, rfl⟩
          · rintro ⟨_, ⟨⟩, -, rfl⟩
            rfl

/-- A validated target has an allowed scheme and an address that is not blocked. -/
theorem validateTarget_ok (ran : f.validateTarget url w = (.ok target, w')) :
    target.url = url ∧ target.scheme ∈ allowedSchemes ∧ f.ipIsBlocked target.connectIp = false ∧
      ∃ parsed, f.urlsplit url = .ok parsed ∧ target.scheme = parsed.scheme.toLower := by
  obtain ⟨parsed, _, split, rest⟩ := Prog.ok_of_bind ran
  obtain ⟨⟨scheme, host, port⟩, _, read, rest⟩ := Prog.ok_of_bind rest
  obtain ⟨candidates, _, -, cleared⟩ := Prog.ok_of_bind rest
  rw [Prog.reraise_ok_iff] at split read cleared
  obtain ⟨same, allowed⟩ := authority_ok read.1
  obtain ⟨rfl, isScheme, among, unblocked⟩ := pinned_ok cleared.1
  refine ⟨rfl, ?_, unblocked _ among, parsed, split.1, isScheme.trans same⟩
  rw [isScheme]
  exact allowed

theorem readFrom_length (broken : Option Failure) {chunks : List (List UInt8)}
    {body read : List UInt8} {truncated : Bool}
    (ended : f.readFrom broken body chunks = .ok (read, truncated)) :
    read.length ≤ f.maxBytes := by
  induction chunks generalizing body with
  | nil =>
      unfold readFrom at ended
      split at ended
      · cases ended
      · cases ended
        exact List.length_take_le _ _
  | cons chunk chunks ih =>
      unfold readFrom at ended
      split at ended
      · cases ended
        exact List.length_take_le _ _
      · exact ih ended

/-- The outcome of a response: its URL, and what was read of its body. -/
theorem follow_inr {response : HttpResponse} {outcome : FetchOutcome}
    (ended : f.follow url response = .ok (.inr outcome)) : outcome.finalUrl = response.url ∧
      f.readCapped response = .ok (outcome.body, outcome.truncated) := by
  unfold follow at ended
  split at ended
  · next location _ _ =>
      cases joined : f.urljoin url location with
      | error failure =>
          rw [joined] at ended
          cases ended
      | ok next =>
          rw [joined] at ended
          cases logged : f.urlsplit next with
          | error failure =>
              simp only [bind, Except.bind, logged] at ended
              cases ended
          | ok parsed =>
              simp only [bind, Except.bind, logged] at ended
              cases ended
  · cases capped : f.readCapped response with
    | error failure =>
        rw [capped] at ended
        cases ended
    | ok read =>
        rw [capped] at ended
        cases ended
        exact ⟨rfl, rfl⟩

theorem hop_ok {led : String ⊕ FetchOutcome} (ran : f.hop url w = (.ok led, w')) :
    ∃ target w₁ request response w₂, f.validateTarget url w = (.ok target, w₁) ∧
      f.buildRequest target = .ok request ∧ f.send request w₁ = (.ok response, w₂) ∧
      f.follow url response = .ok led := by
  obtain ⟨target, w₁, validated, ran⟩ := Prog.ok_of_bind ran
  obtain ⟨request, _, built, ran⟩ := Prog.ok_of_bind ran
  obtain ⟨build, rfl⟩ := Prog.reraise_ok_iff.mp built
  obtain ⟨response, w₂, sent, ran⟩ := Prog.ok_of_bind ran
  obtain ⟨_, followed, -⟩ := Prog.ok_of_ensure ran
  exact ⟨target, w₁, request, response, w₂, validated, build, sent,
    (Prog.reraise_ok_iff.mp followed).1⟩

/-! ### The byte limit -/

/-- The rest of a stream that ends, read onto what is below the limit. -/
theorem readFrom_ended {body : List UInt8} (below : body.length < f.maxBytes)
    (chunks : List (List UInt8)) :
    f.readFrom none body chunks = .ok ((body ++ chunks.flatten).take f.maxBytes,
      decide (f.maxBytes ≤ (body ++ chunks.flatten).length)) := by
  induction chunks generalizing body with
  | nil =>
      unfold readFrom
      rw [List.flatten_nil, List.append_nil, decide_eq_false below.not_ge]
  | cons chunk chunks ih =>
      unfold readFrom
      rw [List.flatten_cons, ← List.append_assoc]
      split
      case isTrue full =>
        have longer : f.maxBytes ≤ (body ++ chunk ++ chunks.flatten).length :=
          full.trans (List.prefix_append _ _).length_le
        rw [decide_eq_true longer, List.take_append_of_le_length full]
      case isFalse short => exact ih (Nat.lt_of_not_le short)

/-- Under every chunking the first bytes are read, and the flag says whether there are more of
them, exactly where the body is not as long as the limit. -/
theorem capped_read_iff (f : SafeFetcher ω) (positive : 0 < f.maxBytes) (response : HttpResponse)
    (ends : response.broken = none) :
    f.readCapped response = .ok (response.chunks.flatten.take f.maxBytes,
        decide (f.maxBytes < response.chunks.flatten.length)) ↔
      response.chunks.flatten.length ≠ f.maxBytes := by
  have read : f.readCapped response = .ok (response.chunks.flatten.take f.maxBytes,
      decide (f.maxBytes ≤ response.chunks.flatten.length)) := by
    unfold readCapped
    rw [ends]
    have empty : ([] : List UInt8).length < f.maxBytes := positive
    exact readFrom_ended empty response.chunks
  rw [read, Except.ok.injEq, Prod.mk.injEq, and_iff_right rfl, decide_eq_decide]
  omega

/-! ### Whole chains -/

structure Connection where
  scheme : String
  ip : String
  port : Option ℕ
  deriving DecidableEq

/-- What is relied on outside: the connections opened so far change by what is sent alone, which
opens at most one, to the scheme, host and port of its URL, and none without a scheme; and the
scheme is read as `urlsplit` reads it. -/
structure Trusted (f : SafeFetcher ω) (opened : ω → List Connection) : Prop where
  send : ∀ request w, opened (f.send request w).2 = opened w ∨ request.url.scheme ≠ "" ∧
    opened (f.send request w).2 =
      ⟨request.url.scheme, request.url.host, request.url.port⟩ :: opened w
  aclose : ∀ response w, opened (f.aclose response w).2 = opened w
  resolver : ∀ host w, opened (f.resolver host w).2 = opened w
  schemes : ∀ url read parsed, f.httpUrl url = .ok read → read.scheme ≠ "" →
    f.urlsplit url = .ok parsed → read.scheme = parsed.scheme.toLower

/-- A connection of a hop goes where `validate_target`, just before, had cleared the hop to go. -/
structure Cleared (f : SafeFetcher ω) (url : String) (w : ω) (c : Connection) : Prop where
  scheme : c.scheme ∈ allowedSchemes
  unblocked : f.ipIsBlocked c.ip = false
  validated : ∃ target w', f.validateTarget url w = (.ok target, w') ∧ c.ip = target.connectIp ∧
    c.port = some target.port ∧ c.scheme = target.scheme

/-- A hop: its URL, the world it found, and the connection it opened. -/
structure Visit (ω : Type) where
  url : String
  world : ω
  connection : Option Connection

/-- The hops from a URL, each where the one before it led. -/
inductive Chain (f : SafeFetcher ω) : String → ω → List (Visit ω) → Prop
  | none (url : String) (w : ω) : Chain f url w []
  | last (url : String) (w : ω) (c : Option Connection) : Chain f url w [⟨url, w, c⟩]
  | next {url next : String} {w w' : ω} {visits : List (Visit ω)} (c : Option Connection)
      (ran : f.hop url w = (.ok (.inl next), w')) (later : Chain f next w' visits) :
      Chain f url w (⟨url, w, c⟩ :: visits)

variable {opened : ω → List Connection}

theorem validateTarget_opened (trusted : f.Trusted opened) (url : String) (w : ω) :
    opened (f.validateTarget url w).2 = opened w := by
  let I (t : ω) : Prop := opened t = opened w
  have resolves (host : String) : Prog.Maintains I (f.candidates host) fun _ => True := by
    unfold candidates
    split
    · exact .pure trivial
    · exact fun t same => ⟨(trusted.resolver host t).trans same, fun _ _ => trivial⟩
  have maintained : Prog.Maintains I (f.validateTarget url) fun _ => True :=
    .bind (.reraise _) fun parsed _ => .bind (.reraise _) fun ⟨_, host, _⟩ _ =>
      (resolves host).bind fun _ _ => .reraise _
  exact (maintained w rfl).1

theorem respond_opened (trusted : f.Trusted opened) (url : String) (response : HttpResponse)
    (w : ω) : opened (Prog.ensure (Prog.reraise (f.follow url response))
      (f.aclose response) w).2 = opened w := by
  have closed := trusted.aclose response w
  rcases closing : f.aclose response w with ⟨failure | u, w'⟩
  · rw [Prog.ensure_of_error (Prog.reraise_apply _ w) closing]
    rw [closing] at closed
    exact closed
  · rw [Prog.ensure_of_ok (Prog.reraise_apply _ w) closing]
    rw [closing] at closed
    exact closed

/-- What is sent to a validated target goes where it was cleared to go. -/
theorem request_cleared (trusted : f.Trusted opened) {request : HttpRequest}
    (ran : f.validateTarget url w = (.ok target, w')) (built : f.buildRequest target = .ok request)
    (schemed : request.url.scheme ≠ "") :
    f.Cleared url w ⟨request.url.scheme, request.url.host, request.url.port⟩ := by
  obtain ⟨same, allowed, unblocked, parsed, split, scheme⟩ := validateTarget_ok ran
  obtain ⟨url', read, -, rfl⟩ := buildRequest_ok_iff.mp built
  rw [same] at read
  have agreed := (trusted.schemes url url' parsed read schemed split).trans scheme.symm
  exact ⟨agreed ▸ allowed, unblocked, target, w', ran, rfl, rfl, agreed⟩

theorem hop_opened (trusted : f.Trusted opened) (url : String) (w : ω) :
    opened (f.hop url w).2 = opened w ∨
      ∃ c, f.Cleared url w c ∧ opened (f.hop url w).2 = c :: opened w := by
  have before := validateTarget_opened trusted url w
  unfold hop
  rcases ran : f.validateTarget url w with ⟨failure | target, w₁⟩
  · rw [Prog.bind_of_error ran]
    rw [ran] at before
    exact .inl before
  · rw [Prog.bind_of_ok ran]
    rw [ran] at before
    cases built : f.buildRequest target with
    | error failure => exact .inl before
    | ok request =>
        have sent := trusted.send request w₁
        rw [show opened w₁ = opened w from before] at sent
        rw [Prog.reraise_ok, Prog.pure_bind']
        -- the response, if there is one, opens nothing more
        have after : opened ((f.send request >>= fun response =>
            Prog.ensure (Prog.reraise (f.follow url response)) (f.aclose response)) w₁).2 =
              opened (f.send request w₁).2 := by
          rcases answer : f.send request w₁ with ⟨failure | response, w₂⟩
          · rw [Prog.bind_of_error answer]
          · rw [Prog.bind_of_ok answer]
            exact respond_opened trusted url response w₂
        rcases sent with none | ⟨schemed, one⟩
        · exact .inl (after.trans none)
        · exact .inr ⟨_, request_cleared trusted ran built schemed, after.trans one⟩

theorem hop_outcome {outcome : FetchOutcome} (ran : f.hop url w = (.ok (.inr outcome), w')) :
    outcome.body.length ≤ f.maxBytes := by
  obtain ⟨_, _, _, response, _, -, -, -, followed⟩ := hop_ok ran
  exact readFrom_length response.broken (follow_inr followed).2

/-- Of so many hops, each opens at most one connection, which is cleared. -/
theorem fetchFrom_guarded (trusted : f.Trusted opened) (n : ℕ) (url : String) (w : ω) :
    (∃ visits, f.Chain url w visits ∧ visits.length ≤ n ∧
        opened (f.fetchFrom n url w).2 = (visits.filterMap Visit.connection).reverse ++ opened w ∧
        ∀ v ∈ visits, ∀ c ∈ v.connection, f.Cleared v.url v.world c) ∧
      ∀ outcome, (f.fetchFrom n url w).1 = .ok outcome → outcome.body.length ≤ f.maxBytes := by
  induction n generalizing url w with
  | zero => exact ⟨⟨[], .none url w, Nat.le_refl _, rfl, nofun⟩, nofun⟩
  | succ n ih =>
      obtain ⟨c, here, cleared⟩ : ∃ c : Option Connection,
          opened (f.hop url w).2 = c.toList ++ opened w ∧ ∀ c' ∈ c, f.Cleared url w c' := by
        rcases hop_opened trusted url w with nothing | ⟨c, cleared, one⟩
        · exact ⟨none, nothing, nofun⟩
        · refine ⟨some c, one, fun c' same => ?_⟩
          cases same
          exact cleared
      have alone : ([⟨url, w, c⟩] : List (Visit ω)).filterMap Visit.connection = c.toList := by
        cases c <;> rfl
      have first : ∀ v ∈ ([⟨url, w, c⟩] : List (Visit ω)), ∀ c' ∈ v.connection,
          f.Cleared v.url v.world c' := by
        intro v member
        rw [List.mem_singleton.mp member]
        exact cleared
      unfold fetchFrom
      rcases ran : f.hop url w with ⟨failure | next | outcome, w'⟩
      · rw [Prog.bind_of_error ran]
        rw [ran] at here
        refine ⟨⟨_, .last url w c, Nat.succ_le_succ (Nat.zero_le n), ?_, first⟩, nofun⟩
        rw [alone]
        cases c <;> exact here
      · rw [Prog.bind_of_ok ran]
        rw [ran] at here
        obtain ⟨⟨visits, chain, few, there, later⟩, short⟩ := ih next w'
        refine ⟨⟨_, .next c ran chain, Nat.succ_le_succ few, ?_, ?_⟩, short⟩
        · have split : (⟨url, w, c⟩ :: visits).filterMap Visit.connection =
              c.toList ++ visits.filterMap Visit.connection := by
            rw [← alone, ← List.filterMap_append]
            rfl
          have backward : c.toList.reverse = c.toList := by cases c <;> rfl
          rw [there, show opened w' = _ from here, split, List.reverse_append, backward,
            List.append_assoc]
        · intro v member
          rcases List.mem_cons.mp member with rfl | inside
          · exact cleared
          · exact later v inside
      · rw [Prog.bind_of_ok ran]
        rw [ran] at here
        refine ⟨⟨_, .last url w c, Nat.succ_le_succ (Nat.zero_le n), ?_, first⟩, ?_⟩
        · rw [alone]
          cases c <;> exact here
        · intro outcome' ended
          cases ended
          exact hop_outcome ran

/-- Whatever names resolve to and servers answer, a fetch takes at most one hop more than it may
follow redirects; each opens at most one connection, to a scheme and an address that were cleared
for this hop just before; and what is returned keeps to the byte limit. -/
theorem fetch_guarded (f : SafeFetcher ω) (opened : ω → List Connection)
    (trusted : f.Trusted opened) (url : String) (w : ω) :
    (∃ visits, f.Chain url w visits ∧ visits.length ≤ f.maxRedirects + 1 ∧
        opened (f.fetch url w).2 = (visits.filterMap Visit.connection).reverse ++ opened w ∧
        ∀ v ∈ visits, ∀ c ∈ v.connection, f.Cleared v.url v.world c) ∧
      ∀ outcome, (f.fetch url w).1 = .ok outcome → outcome.body.length ≤ f.maxBytes :=
  fetchFrom_guarded trusted (f.maxRedirects + 1) url w

/-! ### A public name that leads inside -/

namespace Lured

def hostOf (url : String) : Option String :=
  if url = "http://public.example/" then some "public.example"
  else if url = "http://internal.example/secret" then some "internal.example"
  else none

def invalidUrl : Failure := .exception (.other "ValueError") "Invalid URL"

def facts (text : String) (inside : Bool) : IpAddress where
  text := text
  isGlobal := !inside
  isPrivate := inside
  isLoopback := inside
  isLinkLocal := false
  isMulticast := false
  isReserved := false
  isUnspecified := false

def fetcher : SafeFetcher (List Connection) where
  urlsplit url := match hostOf url with
    | some host => .ok { scheme := "http", hostname := some host }
    | none => .error invalidUrl
  urljoin _ location := .ok location
  ipAddress raw :=
    if raw = "93.184.216.34" then some (facts raw false)
    else if raw = "127.0.0.1" then some (facts raw true)
    else none
  resolver host := pure (if host = "public.example" then ["93.184.216.34"] else ["127.0.0.1"])
  httpUrl url := match hostOf url with
    | some host => .ok { scheme := "http", host := host }
    | none => .error invalidUrl
  build _ := .ok ()
  send request :=
    if request.url.scheme = "" then Prog.raise invalidUrl
    else do
      Prog.modify fun opened => ⟨request.url.scheme, request.url.host, request.url.port⟩ :: opened
      pure
        { statusCode := 302, url := "http://93.184.216.34:80/"
          header := fun name =>
            if name = "location" then some "http://internal.example/secret" else none }
  aclose _ := pure ()

def brief : SafeFetcher (List Connection) := { fetcher with maxBytes := 4 }

/-- A response with the four bytes in two chunks. -/
def exact : HttpResponse where
  statusCode := 200
  header _ := none
  url := "http://93.184.216.34:80/"
  chunks := [[72, 105], [33, 10]]

end Lured

open Lured

/-- A body of exactly the limit is read whole and reported as cut. -/
theorem exact_body_flagged : brief.readCapped exact = .ok ([72, 105, 33, 10], true) ∧
    exact.chunks.flatten = [72, 105, 33, 10] ∧ ¬ brief.readCapped exact =
      .ok (exact.chunks.flatten.take brief.maxBytes,
        decide (brief.maxBytes < exact.chunks.flatten.length)) :=
  ⟨rfl, rfl, nofun⟩

theorem longer_body_flagged :
    brief.readCapped { exact with chunks := [[72, 105, 33], [10, 10]] } =
        .ok ([[72, 105, 33], [10, 10]].flatten.take 4, decide (4 < 5)) ↔ 5 ≠ 4 :=
  capped_read_iff brief (by decide) { exact with chunks := [[72, 105, 33], [10, 10]] } rfl

/-- The chain ends before the second connection. -/
theorem lured_fetch_guarded :
    (fetcher.fetch "http://public.example/" []).2 = [⟨"http", "93.184.216.34", some 80⟩] ∧
      ∃ visits, fetcher.Chain "http://public.example/" [] visits ∧ visits.length ≤ 6 ∧
        (fetcher.fetch "http://public.example/" []).2 =
          (visits.filterMap Visit.connection).reverse ∧
        ∀ v ∈ visits, ∀ c ∈ v.connection, fetcher.Cleared v.url v.world c := by
  have trusted : fetcher.Trusted fun opened => opened := by
    refine ⟨fun request w => ?_, fun _ _ => rfl, fun _ _ => rfl, ?_⟩
    · unfold fetcher
      by_cases schemed : request.url.scheme = ""
      · simp [schemed]
      · simp only [schemed, if_false]
        exact .inr ⟨schemed, rfl⟩
    · intro url read parsed reads _ splits
      unfold fetcher at reads splits
      dsimp only at reads splits
      cases known : hostOf url with
      | none =>
          rw [known] at reads
          cases reads
      | some host =>
          rw [known] at reads splits
          cases reads
          cases splits
          have lower : "http".toLower = "http" := by decide +kernel
          exact lower.symm
  refine ⟨by decide +kernel, ?_⟩
  obtain ⟨⟨visits, chain, few, opened, cleared⟩, -⟩ :=
    fetch_guarded fetcher (fun opened => opened) trusted "http://public.example/" []
  exact ⟨visits, chain, few, by simpa using opened, cleared⟩

end SafeFetcher
end Johnny
