import Johnny.Effectors.WebConsolidator
import Johnny.Effectors.WebFetch

/-!
# The URL a read is remembered by

The outcome of a fetch carries the URL of the response, which is that of the request, and the
request was rewritten to go to the address that the name had been cleared for.
-/
namespace Johnny
variable {K ω σ : Type}

namespace SafeFetcher
variable {f : SafeFetcher ω} {url : String} {w w' : ω} {target : ValidatedTarget}

/-- What is relied on of the client's URLs: `response.url` is that of its request, and a printed
URL with an address for its host is read back with an address. -/
structure ShowsUrls (f : SafeFetcher ω) (printed : HttpUrl → String) : Prop where
  response : ∀ request w response w', f.send request w = (.ok response, w') →
    response.url = printed request.url
  host : ∀ url parsed host, (f.ipAddress url.host).isSome → f.urlsplit (printed url) = .ok parsed →
    parsed.hostname = some host → (f.ipAddress host).isSome

/-- The host of the URL is an address, and the URL is written as the client prints it. -/
structure AddressUrl (f : SafeFetcher ω) (printed : HttpUrl → String) (url : String) : Prop where
  written : ∃ parsed scheme host port read, f.urlsplit url = .ok parsed ∧
    authority parsed = .ok (scheme, host, port) ∧ (f.ipAddress host).isSome ∧
      f.httpUrl url = .ok read ∧ printed { read with host := host, port := some port } = url

/-! ### What a hop shows -/

theorem authority_hostname {parsed : SplitUrl} {scheme host : String} {port : ℕ}
    (read : authority parsed = .ok (scheme, host, port)) : parsed.hostname = some host := by
  have named {other : String} (found : nonempty parsed.hostname = some other) :
      parsed.hostname = some other := (Option.filter_eq_some_iff.mp found).1
  unfold authority at read
  dsimp only at read
  split at read
  · cases read
  · split at read
    · cases read
    · split at read
      · cases read
      · cases read
      · next found _ =>
          cases read
          exact named found
      · next found _ =>
          cases read
          exact named found
      · next found _ =>
          cases read
          exact named found

/-- A target keeps host and port of its URL, and an address is its own target. -/
theorem validateTarget_parts (ran : f.validateTarget url w = (.ok target, w')) :
    ∃ parsed scheme, f.urlsplit url = .ok parsed ∧
      authority parsed = .ok (scheme, target.host, target.port) ∧
      ((f.ipAddress target.host).isSome → target.connectIp = target.host) := by
  obtain ⟨parsed, _, split, rest⟩ := Prog.ok_of_bind ran
  obtain ⟨⟨scheme, host, port⟩, _, read, rest⟩ := Prog.ok_of_bind rest
  obtain ⟨candidates, _, resolved, cleared⟩ := Prog.ok_of_bind rest
  rw [Prog.reraise_ok_iff] at split read cleared
  have cleared := cleared.1
  unfold pinned at cleared
  split at cleared
  · cases cleared
  · next first others =>
      split at cleared
      · cases cleared
      · cases cleared
        refine ⟨parsed, scheme, split.1, read.1, fun address => ?_⟩
        obtain ⟨facts, address⟩ := Option.isSome_iff_exists.mp address
        unfold SafeFetcher.candidates at resolved
        rw [address] at resolved
        cases resolved
        rfl

/-- The outcome shows the URL of the request, at the address and port it went to. -/
theorem hop_shows {printed : HttpUrl → String} (shows : f.ShowsUrls printed)
    {outcome : FetchOutcome} (ended : f.hop url w = (.ok (.inr outcome), w')) :
    ∃ target read w₁, f.validateTarget url w = (.ok target, w₁) ∧ f.httpUrl url = .ok read ∧
      outcome.finalUrl = printed { read with host := target.connectIp, port := some target.port } := by
  obtain ⟨target, w₁, request, response, w₂, validated, build, sent, followed⟩ := hop_ok ended
  obtain ⟨read, reads, -, rfl⟩ := buildRequest_ok_iff.mp build
  rw [(validateTarget_ok validated).1] at reads
  exact ⟨target, read, w₁, validated, reads,
    (follow_inr followed).1.trans (shows.response _ _ _ _ sent)⟩

/-- The outcome names the URL of its hop exactly where that URL had an address for its host. -/
theorem finalUrl_eq_iff {printed : HttpUrl → String} (shows : f.ShowsUrls printed)
    {outcome : FetchOutcome} (ended : f.hop url w = (.ok (.inr outcome), w')) :
    outcome.finalUrl = url ↔ f.AddressUrl printed url := by
  obtain ⟨target, read, w₁, validated, reads, shown⟩ := hop_shows shows ended
  obtain ⟨parsed, scheme, split, allowed, literal⟩ := validateTarget_parts validated
  rw [shown]
  constructor
  · intro same
    have unblocked := (validateTarget_ok validated).2.2.1
    have address : (f.ipAddress target.connectIp).isSome := by
      unfold ipIsBlocked at unblocked
      cases known : f.ipAddress target.connectIp with
      | none =>
          rw [known] at unblocked
          cases unblocked
      | some facts => rfl
    have isAddress : (f.ipAddress target.host).isSome := by
      refine shows.host { read with host := target.connectIp, port := some target.port } parsed
        target.host address ?_ (authority_hostname allowed)
      rw [same]
      exact split
    rw [literal isAddress] at same
    exact ⟨parsed, scheme, target.host, target.port, read, split, allowed, isAddress, reads, same⟩
  · rintro ⟨parsed', scheme', host, port, read', split', allowed', isAddress, reads', same⟩
    cases split.symm.trans split'
    cases reads.symm.trans reads'
    cases allowed.symm.trans allowed'
    rw [literal isAddress]
    exact same

end SafeFetcher

/-! ### From the outcome to the episode -/

section remembered
variable [Field K] [LinearOrder K]

theorem MemoryDatabase.write_content {m : MemoryDatabase K σ} {w w' : σ}
    {episode stored : Episode K} (ran : m.write episode w = (.ok stored, w')) :
    stored.kind = episode.kind ∧ stored.content = episode.content := by
  obtain ⟨vector, w₁, -, ran⟩ := Prog.ok_of_bind ran
  rw [Prog.reads_bind] at ran
  obtain ⟨t, inserted, -⟩ := Sessions.scope_ok ran
  cases inserted
  exact ⟨rfl, rfl⟩

theorem WebReadConsolidator.consolidateToolResult_episode {c : WebReadConsolidator K σ}
    {tool : String} {output : Dict K} {w w' : σ} {read : WebReadResult K}
    (ran : c.consolidateToolResult tool output w = (.ok (some read), w')) :
    ∃ url title text, extractWebContent tool output = some (url, title, text) ∧
      read.episode.kind = webReadKind ∧ read.episode.content = episodeContent url title text ∧
      read.url = url := by
  unfold consolidateToolResult at ran
  cases extracted : extractWebContent tool output with
  | none =>
      rw [extracted] at ran
      cases ran
  | some content =>
      obtain ⟨url, title, text⟩ := content
      rw [extracted] at ran
      obtain ⟨result, w₁, consolidated, rest⟩ := Prog.ok_of_bind ran
      cases rest
      obtain ⟨episode, w₂, recorded, rest⟩ := Prog.ok_of_bind consolidated
      obtain ⟨summary, w₃, -, rest⟩ := Prog.ok_of_bind rest
      obtain ⟨fact, w₄, -, rest⟩ := Prog.ok_of_bind rest
      cases rest
      obtain ⟨kind, text'⟩ := MemoryDatabase.write_content recorded
      exact ⟨url, title, text, rfl, kind, text', rfl⟩

/-- What is asked of a fetch whose last hop went to the URL: the outcome names it, and so do the
tool's output and the episode written from that; and it leads to the same host again. -/
structure Provenance (t : WebFetchTool ω) (c : WebReadConsolidator K σ) (args : WebFetchArgs)
    (w : ω) (outcome : FetchOutcome) (url : String) : Prop where
  fetched : outcome.finalUrl = url
  output : ∀ result : ToolResult K, (t.run args w).1 = .ok result → result.success = true →
    dictGet result.output "url" = some (.str url)
  episode : ∀ (result : ToolResult K) w₁ read, (t.run args w).1 = .ok result →
    result.success = true →
      (c.consolidateToolResult "web_fetch" result.output w₁).1 = .ok (some read) →
        read.episode.kind = webReadKind ∧ read.url = url ∧ ∃ title text,
          read.episode.content = WebReadConsolidator.episodeContent url title text
  again : ∀ w₁ w₂ target target', (t.fetcher.validateTarget url w₁).1 = .ok target →
    (t.fetcher.validateTarget outcome.finalUrl w₂).1 = .ok target' → target'.host = target.host

variable {t : WebFetchTool ω} {args : WebFetchArgs} {w w' : ω} {outcome : FetchOutcome}

omit [Field K] [LinearOrder K] in
/-- The output of a read that succeeded names the final URL. -/
theorem WebFetchTool.output_url (fetched : t.fetcher.fetch args.url w = (.ok outcome, w'))
    {result : ToolResult K} (returned : (t.run args w).1 = .ok result)
    (success : result.success = true) :
    dictGet result.output "url" = some (.str outcome.finalUrl) := by
  rw [run_of_fetched fetched] at returned
  by_cases text : t.IsText outcome
  · rw [readPage_of_text text] at returned
    cases read : t.pageText outcome with
    | error e =>
        rw [read] at returned
        cases returned
    | ok page =>
        rw [read] at returned
        cases returned
        rfl
  · obtain ⟨other, read, failed⟩ := readPage_of_not_text (K := K) text args
    cases read.symm.trans returned
    rw [failed] at success
    cases success

omit [Field K] [LinearOrder K] in
theorem extractWebContent_url {output : Dict K} {url named title text : String}
    (shown : dictGet output "url" = some (.str named))
    (extracted : extractWebContent "web_fetch" output = some (url, title, text)) : url = named := by
  unfold extractWebContent at extracted
  rw [if_pos rfl, shown] at extracted
  have read : asStr (some (.str named : Json K)) = some named := rfl
  rw [read] at extracted
  cases body : asStr (dictGet output "text") with
  | none =>
      rw [body] at extracted
      cases extracted
  | some text =>
      rw [body] at extracted
      dsimp only at extracted
      split at extracted
      · cases extracted
        rfl
      · cases extracted

omit [Field K] [LinearOrder K] in
theorem validateTarget_host {f : SafeFetcher ω} {url : String} {w₁ w₂ : ω}
    {target target' : ValidatedTarget} (first : (f.validateTarget url w₁).1 = .ok target)
    (second : (f.validateTarget url w₂).1 = .ok target') : target'.host = target.host := by
  have parts {v : ω} {target : ValidatedTarget} (ran : (f.validateTarget url v).1 = .ok target) :
      f.validateTarget url v = (.ok target, (f.validateTarget url v).2) := Prod.ext ran rfl
  obtain ⟨parsed, scheme, split, allowed, -⟩ := SafeFetcher.validateTarget_parts (parts first)
  obtain ⟨parsed', scheme', split', allowed', -⟩ := SafeFetcher.validateTarget_parts (parts second)
  cases split.symm.trans split'
  exact (Prod.mk.inj (Prod.mk.inj (Except.ok.inj (allowed.symm.trans allowed'))).2).1.symm

/-- For every chain of redirects a fetch follows, what it and the memory name as the source is the
URL of its last hop exactly where that URL had an address, not a name, for its host. -/
theorem source_url_iff (t : WebFetchTool ω) (c : WebReadConsolidator K σ) {printed : HttpUrl → String}
    (shows : t.fetcher.ShowsUrls printed) {args : WebFetchArgs} {w v w' : ω} {last : String}
    {outcome : FetchOutcome}
    (leads : t.fetcher.Leads (t.fetcher.maxRedirects + 1) args.url w last v)
    (ended : t.fetcher.hop last v = (.ok (.inr outcome), w')) :
    Provenance t c args w outcome last ↔ t.fetcher.AddressUrl printed last := by
  have fetched : t.fetcher.fetch args.url w = (.ok outcome, w') :=
    SafeFetcher.fetchFrom_ok_iff.mpr ⟨last, v, leads, ended⟩
  refine ⟨fun named => (SafeFetcher.finalUrl_eq_iff shows ended).mp named.fetched, fun address => ?_⟩
  have same := (SafeFetcher.finalUrl_eq_iff shows ended).mpr address
  have shown {result : ToolResult K} (returned : (t.run args w).1 = .ok result)
      (success : result.success = true) : dictGet result.output "url" = some (.str last) := by
    rw [← same]
    exact WebFetchTool.output_url fetched returned success
  refine ⟨same, fun _ => shown, fun result w₁ read returned success remembered => ?_, ?_⟩
  · obtain ⟨url, title, text, extracted, kind, content, url'⟩ :=
      WebReadConsolidator.consolidateToolResult_episode (Prod.ext remembered rfl :
        c.consolidateToolResult "web_fetch" result.output w₁ = (.ok (some read), _))
    obtain rfl := extractWebContent_url (shown returned success) extracted
    exact ⟨kind, url', title, text, content⟩
  · rw [same]
    exact fun _ _ _ _ => validateTarget_host

end remembered

/-! ### A page under a name, and under its address -/

namespace PinnedPage
open SafeFetcher

def named : String := "https://site.example/a"

def address : String := "93.184.216.34"

def addressed : String := "https://93.184.216.34/a"

def invalidUrl : Failure := .exception (.other "ValueError") "Invalid URL"

def hostOf (url : String) : Option String :=
  if url = named then some "site.example" else if url = addressed then some address else none

def publicAddress : IpAddress where
  text := address
  isGlobal := true
  isPrivate := false
  isLoopback := false
  isLinkLocal := false
  isMulticast := false
  isReserved := false
  isUnspecified := false

/-- A URL prints without the port that goes with its scheme. -/
def printed (url : HttpUrl) : String :=
  url.scheme ++ "://" ++ url.host ++
    (match url.port with
      | some port => if port = defaultPort url.scheme then "" else ":" ++ toString port
      | none => "") ++ url.target

def site : SafeFetcher Unit where
  urlsplit url := match hostOf url with
    | some host => .ok { scheme := "https", hostname := some host }
    | none => .error invalidUrl
  urljoin _ location := .ok location
  ipAddress raw := if raw = address then some publicAddress else none
  resolver _ := pure [address]
  httpUrl url := match hostOf url with
    | some host => .ok { scheme := "https", host := host, target := "/a" }
    | none => .error invalidUrl
  build _ := .ok ()
  send request := pure
    { statusCode := 200, url := printed request.url, chunks := [[72, 105]]
      header := fun name => if name = "content-type" then some "text/plain" else none }
  aclose _ := pure ()

def tool : WebFetchTool Unit where
  fetcher := site
  lower s := s
  decode _ _ := .ok "Hi"
  htmlEvents _ := .ok []
  maxTextChars := 20000

def consolidator : WebReadConsolidator ℚ (Database Failure (MemoryStore ℚ) Unit) where
  memory :=
    { db := .whole, meanwhile := id, apart := fun _ => rfl
      nowFn := fun _ => 0, embedOne := fun _ => pure [1] }
  router := none
  prompt := ""
  parseConsolidation _ := .error (.exception .validationError "unreachable")
  maxTokens := 1
  salience := frac 7 10

theorem site_shows : site.ShowsUrls printed where
  response := by
    intro request w response w' sent
    rw [← Except.ok.inj (Prod.mk.inj sent).1]
  host := by
    intro url parsed host isAddress split hostname
    have same : url.host = address := by
      by_contra other
      unfold site at isAddress
      dsimp only at isAddress
      rw [if_neg other] at isAddress
      cases isAddress
    have inside : address.toList <:+: (printed url).toList := by
      refine ⟨(url.scheme ++ "://").toList, ?_, ?_⟩
      · exact ((match url.port with
          | some port => if port = defaultPort url.scheme then "" else ":" ++ toString port
          | none => "") ++ url.target).toList
      · unfold printed
        simp only [String.toList_append, same, List.append_assoc]
    have other : printed url ≠ named := by
      intro isNamed
      rw [isNamed] at inside
      exact absurd inside (by decide +kernel)
    unfold site hostOf at split
    dsimp only at split
    rw [if_neg other] at split
    by_cases shown : printed url = addressed
    · rw [if_pos shown] at split
      cases split
      cases hostname
      rfl
    · rw [if_neg shown] at split
      cases split

/-- The URL that a hop shows, where it comes to a page. -/
def shownUrl (hop : Except Failure (String ⊕ FetchOutcome)) : Option String :=
  hop.toOption.bind fun reached => reached.getRight?.map FetchOutcome.finalUrl

/-- The hop to a URL of the page returns, and shows the URL under the address. -/
theorem hop_reads {url : String} (known : url = named ∨ url = addressed) :
    ∃ outcome, site.hop url () = (.ok (.inr outcome), ()) ∧ outcome.finalUrl = addressed := by
  have shown : shownUrl (site.hop url ()).1 = some addressed := by
    rcases known with rfl | rfl
    · decide +kernel
    · decide +kernel
  rcases ran : site.hop url () with ⟨_ | next | outcome, _⟩
  · rw [ran] at shown
    cases shown
  · rw [ran] at shown
    cases shown
  · rw [ran] at shown
    exact ⟨outcome, rfl, Option.some.inj shown⟩

end PinnedPage

open PinnedPage in
/-- A page fetched by its name is remembered by its address. -/
theorem named_page_remembered_by_address : site.ShowsUrls printed ∧
    ∃ outcome, site.hop named () = (.ok (.inr outcome), ()) ∧ outcome.finalUrl = addressed ∧
      ¬ Provenance tool consolidator ⟨named⟩ () outcome named := by
  obtain ⟨outcome, ran, shown⟩ := hop_reads (.inl rfl)
  refine ⟨site_shows, outcome, ran, shown, fun provenance => ?_⟩
  exact absurd (shown.symm.trans provenance.fetched) (by decide)

open PinnedPage in
theorem addressed_page_remembered : ∃ outcome, site.hop addressed () = (.ok (.inr outcome), ()) ∧
    (Provenance tool consolidator ⟨addressed⟩ () outcome addressed ↔
      site.AddressUrl printed addressed) := by
  obtain ⟨outcome, ran, -⟩ := hop_reads (.inr rfl)
  exact ⟨outcome, ran,
    source_url_iff tool consolidator site_shows (.here 5 addressed ()) ran⟩

end Johnny
