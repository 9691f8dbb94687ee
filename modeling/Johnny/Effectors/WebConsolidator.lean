import Johnny.Lib.Transaction
import Johnny.Memory.Consolidator

/-!
# A web read becomes memory

A read is recorded as an episode that carries its URL, and distilled into a fact whose
provenance is that episode. Each write is a transaction of its own, and either may fail.
-/
namespace Johnny

def webReadKind : String := "web_read"
def episodeExcerptChars : ℕ := 1500
def summariserInputChars : ℕ := 8000

/-! ### The memory tables as a database -/

/-- The row of a new episode, under the next id. -/
def MemoryStore.insertEpisode {K : Type} (s : MemoryStore K) (row : EpisodeRow K) :
    MemoryStore K :=
  { s with episodes := s.episodes ++ [row], nextEpisode := s.nextEpisode + 1 }

/-- `_row_to_episode`. -/
def EpisodeRow.toEpisode {K : Type} (row : EpisodeRow K) : Episode K where
  id := some row.id
  ts := some row.ts
  kind := row.kind
  content := row.content
  actors := row.actors
  emotionTags := row.emotionTags
  salience := row.salience

/-- Episodic and semantic memory over their tables, with the embedder they share. -/
structure MemoryDatabase (K ω : Type) extends Sessions Failure (MemoryStore K) Unit ω where
  nowFn : ω → K
  embedOne : String → Prog Failure ω (List K)

namespace MemoryDatabase
variable {K ω : Type} [Field K] [LinearOrder K]

/-- The row an episode is stored as. -/
def rowOf (episode : Episode K) (id : ℕ) (ts : K) (vector : List K) : EpisodeRow K where
  id := id
  ts := ts
  kind := episode.kind
  content := episode.content
  actors := episode.actors
  emotionTags := episode.emotionTags
  salience := clamp01 episode.salience
  embedding := vector

def write (m : MemoryDatabase K ω) (episode : Episode K) : Prog Failure ω (Episode K) := do
  let vector ← m.embedOne episode.content
  let now ← Prog.reads m.nowFn
  m.scope do
    let id ← Prog.reads fun t => t.1.nextEpisode
    let row := rowOf episode id (episode.ts.getD now) vector
    Prog.modify fun t => (t.1.insertEpisode row, t.2)
    pure row.toEpisode

def upsertFact (m : MemoryDatabase K ω) (subject predicate obj : String) (confidence : K)
    (sourceEpisodeIds : List ℕ) : Prog Failure ω SemanticFact := do
  let embedding ← m.embedOne (factText subject predicate obj)
  m.scope do
    Prog.modify fun t => (t.1.upsert {
      id := 0, subject := subject, predicate := predicate, object := obj
      confidence := clamp01 confidence
      sourceEpisodeIds := sourceEpisodeIds, embedding := embedding }, t.2)
    pure ⟨subject, predicate, obj⟩

end MemoryDatabase

/-! ### The consolidator -/

structure WebReadResult (K : Type) where
  episode : Episode K
  fact : SemanticFact
  url : String
  /-- Whether the fact came from the model, not from the fallback. -/
  summarised : Bool

structure WebReadConsolidator (K ω : Type) where
  memory : MemoryDatabase K ω
  /-- `router.complete` for the role, messages, temperature and token limit. -/
  router : Option (String → List Message → K → ℕ → Prog Failure ω Completion)
  prompt : String
  /-- `parse_consolidation`. -/
  parseConsolidation : String → Except Failure (ConsolidationSummary K)
  maxTokens : ℕ
  salience : K

/-- `s[:n]`. -/
def takeChars (n : ℕ) (s : String) : String := String.ofList (s.toList.take n)

def asStr {K : Type} : Option (Json K) → Option String
  | some (.str s) => some s
  | _ => none

/-- The URL, title and text to consolidate from a web-read tool's result, if any. -/
def extractWebContent {K : Type} (tool : String) (output : Dict K) :
    Option (String × String × String) :=
  if tool = "web_fetch" then
    match asStr (dictGet output "url"), asStr (dictGet output "text") with
    | some url, some text =>
      if url ≠ "" ∧ strip text ≠ "" then
        some (url, (asStr (dictGet output "title")).getD "", text)
      else none
    | _, _ => none
  else if tool = "web_search" ∨ tool = "news" then
    match dictGet output "results" with
    | some (.arr (.obj top :: _)) =>
      match asStr (dictGet top "url") with
      | some url =>
        if url ≠ "" then
          some (url, (asStr (dictGet top "title")).getD "", (asStr (dictGet top "snippet")).getD "")
        else none
      | none => none
    | _ => none
  else none

namespace WebReadConsolidator
variable {K ω : Type} [Field K] [LinearOrder K]

/-- A bounded excerpt under the title, with the URL. -/
def episodeContent (url title text : String) : String :=
  let heading := if strip title = "" then url else strip title
  "I read \"" ++ heading ++ "\" (" ++ url ++ ").\n" ++ takeChars episodeExcerptChars (strip text)

def render (url title text : String) : String :=
  "Title: " ++ (if title = "" then "(untitled)" else title) ++ "\nURL: " ++ url ++
    "\n\nReadable text:\n" ++ takeChars summariserInputChars (strip text) ++
    "\n\nDistil this into ONE durable fact, as the JSON triple " ++
    "\x7b\"subject\": ..., \"predicate\": ..., \"object\": ..., \"confidence\": <0..1>\x7d."

def fallbackSummary (url title text : String) : ConsolidationSummary K where
  subject := takeChars 200 (if strip title = "" then "the page at " ++ url else strip title)
  predicate := "says"
  object :=
    let excerpt := takeChars fallbackObjectMaxChars (strip text)
    if excerpt = "" then url else excerpt
  confidence := fallbackConfidence

/-- The summary, and whether it is the model's; the fallback where every provider is tired. -/
def summarise (c : WebReadConsolidator K ω) (url title text : String) :
    Prog Failure ω (ConsolidationSummary K × Bool) :=
  match c.router with
  | none => pure (fallbackSummary url title text, false)
  | some complete =>
    if c.prompt = "" then pure (fallbackSummary url title text, false)
    else Prog.rescue Failure.isUnavailable
      (do
        let completion ← complete consolidationRole
          [⟨"system", c.prompt⟩, ⟨"user", render url title text⟩] consolidationTemperature
          c.maxTokens
        pure (some completion))
      (fun _ => pure none) >>= fun completion =>
        match completion with
        | none => pure (fallbackSummary url title text, false)
        | some completion => do
          let summary ← Prog.reraise (c.parseConsolidation completion.content)
          pure (summary, true)

/-- The episode first, so that the fact can carry its id. -/
def consolidate (c : WebReadConsolidator K ω) (url title text : String) :
    Prog Failure ω (WebReadResult K) := do
  let episode ← c.memory.write
    { kind := webReadKind, content := episodeContent url title text, salience := c.salience }
  let (summary, summarised) ← c.summarise url title text
  let fact ← c.memory.upsertFact summary.subject summary.predicate summary.object
    summary.confidence episode.id.toList
  pure ⟨episode, fact, url, summarised⟩

/-- Nothing where the result carries nothing to remember. -/
def consolidateToolResult (c : WebReadConsolidator K ω) (tool : String) (output : Dict K) :
    Prog Failure ω (Option (WebReadResult K)) :=
  match extractWebContent tool output with
  | none => pure none
  | some (url, title, text) => do
    let result ← c.consolidate url title text
    pure (some result)

/-- What the cycle asks: whether the read was remembered. -/
def remembers (c : WebReadConsolidator K ω) (tool : String) (output : Dict K) :
    Prog Failure ω Bool := do
  let result ← c.consolidateToolResult tool output
  pure result.isSome

end WebReadConsolidator
end Johnny
