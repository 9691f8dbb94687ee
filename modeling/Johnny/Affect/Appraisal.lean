import Johnny.Brain.State
import Johnny.Lib.Halving

/-!
# Appraisal and mood

An appraisal is projected into a push on the mood and some emotion tags. A mood relaxes
towards its baseline, and a push moves it.
-/
namespace Johnny
variable {K : Type} [Field K] [LinearOrder K]

def emotionFloor : K := frac 12 100

/-- `_clamp`. -/
def clampTo (value lo hi : K) : K := min hi (max lo value)

structure Appraisal (K : Type) where
  goalCongruence : K
  novelty : K
  agency : K
  certainty : K
  emotions : List (String × K) := []

structure MoodDelta (K : Type) where
  valence : K
  arousal : K
  emotions : List (String × K) := []

/-- The calm-neutral resting mood. -/
def Mood.baseline : Mood K := { valence := 0, arousal := frac 3 10 }

def deriveEmotions (congruence novelty agency certainty : K) : List (String × K) :=
  if 0 < congruence then
    [("excitement", congruence * novelty), ("joy", congruence * agency),
      ("contentment", congruence * (1 - novelty) * certainty)]
  else if congruence < 0 then
    [("frustration", -congruence * agency), ("anxiety", -congruence * (1 - certainty))]
  else []

def appraiseDimensions (appraisal : Appraisal K) : MoodDelta K :=
  let congruence := clampTo appraisal.goalCongruence (-1) 1
  let novelty := clamp01 appraisal.novelty
  let agency := clamp01 appraisal.agency
  let certainty := clamp01 appraisal.certainty
  let emotions := if appraisal.emotions.isEmpty then
      deriveEmotions congruence novelty agency certainty
    else appraisal.emotions
  { valence := congruence
    arousal := clampTo (frac 55 100 * novelty + frac 35 100 * (1 - certainty) +
      frac 3 10 * |congruence| - frac 45 100) (-1) 1
    emotions := (emotions.map fun e => (e.1, clamp01 e.2)).filter fun e =>
      decide (emotionFloor ≤ e.2) }

/-- The rule-based appraisal of a tick. -/
def deriveAppraisal (contents : List (WorkspaceItem K)) (drives : List (DriveReading K))
    (events : List (DriveEvent K)) : Appraisal K :=
  let happened (kind : DriveEventKind) : Bool := events.any fun e => e.kind == kind
  let hasInput := contents.any fun item => item.kind == .input
  let unmet := (drives.filter fun d => d.overThreshold && d.drive != sleepDrive).map
    DriveReading.urgency
  let maxUnmet := unmet.foldl max 0
  let weigh (kind : DriveEventKind) (weight : K) : K := if happened kind then weight else 0
  let congruence := weigh .success (frac 6 10) - weigh .failure (frac 6 10) +
    weigh .interaction (frac 3 10) + weigh .learning (frac 3 10) +
    weigh .persistenceConfirmed (frac 25 100) - weigh .shutdownSignal (frac 7 10) -
    frac 25 100 * maxUnmet
  let learned := if happened .learning then max (frac 1 10) (frac 7 10) else frac 1 10
  let novelty := if hasInput then max learned (frac 8 10) else learned
  let agency := if happened .success || happened .failure then frac 7 10
    else if hasInput then frac 35 100 else frac 45 100
  let doubted := match drives.reverse.find? fun d => d.drive == "coherence" with
    | some coherence =>
      if coherence.overThreshold then frac 7 10 - frac 5 10 * coherence.urgency else frac 7 10
    | none => frac 7 10
  let certainty := if happened .shutdownSignal then min doubted (frac 2 10) else doubted
  { goalCongruence := max (-1) (min 1 congruence)
    novelty := clamp01 novelty
    agency := clamp01 agency
    certainty := clamp01 certainty }

def tagLoneliness (delta : MoodDelta K) (drives : List (DriveReading K)) : MoodDelta K :=
  match drives.find? fun d => d.drive == "connection" with
  | none => delta
  | some connection =>
    let felt := (dictGet delta.emotions "loneliness").getD 0
    if connection.overThreshold then
      { delta with
        emotions := dictSet delta.emotions "loneliness" (clamp01 (max felt connection.urgency)) }
    else delta

structure Blending (K : Type) [Field K] where
  /-- `0.5 ** x`. -/
  halfPow : K → K
  halflifeSeconds : K
  responsiveness : K
  emotionDecay : K := frac 6 10

/-- What is left of a deviation after `dt` seconds. -/
def Blending.retained (b : Blending K) (dt : K) : K :=
  if 0 < b.halflifeSeconds then b.halfPow (max 0 dt / b.halflifeSeconds) else 0

/-- `blend_mood`: the mood relaxes, and then the push moves it. -/
def Blending.blendMood (b : Blending K) (current : Mood K) (delta : MoodDelta K) (dt : K)
    (baseline : Mood K) : Mood K :=
  let retained := b.retained dt
  let faded := current.emotions.map fun e => (e.1, e.2 * retained * b.emotionDecay)
  let folded := delta.emotions.foldl (fun emotions e => dictSet emotions e.1
    (clamp01 ((dictGet emotions e.1).getD 0 + e.2 * b.responsiveness))) faded
  { valence := clampTo (relax baseline.valence retained current.valence +
      delta.valence * b.responsiveness) (-1) 1
    arousal := clamp01 (relax baseline.arousal retained current.arousal +
      delta.arousal * b.responsiveness)
    emotions := folded.filter fun e => decide (emotionFloor ≤ e.2) }

end Johnny
