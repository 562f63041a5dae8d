import Onmc.Dict
import Onmc.Learning.Gate

/-! Governed promotion: the registry of quarantined candidates, and the service that promotes out of it. -/
namespace Onmc.Learning

open Onmc.ToolBroker (WordChars)
open Onmc.DurableRuntime (pyRepr)

/-- An evaluation's numbers as Python numbers, with their comparisons. -/
class Written [Score] where
  num : Score.Value → Num

section Payload

variable [Score] [Written]

def Severity.value : Severity → String
  | .critical => "critical"
  | .high => "high"
  | .medium => "medium"
  | .low => "low"

def strings (items : List String) : Json := .arr (items.map .str)

def number (x : Score.Value) : Json := .num (Written.num x)

/-! `to_dict` -/

def Finding.toDict (f : Finding) : Json :=
  .obj [("rule_id", .str f.ruleId), ("severity", .str f.severity.value), ("title", .str f.title),
    ("detail", .str f.detail), ("match", .str f.found)]

def ArtifactRef.toDict (a : ArtifactRef) : Json :=
  .obj [("sha256", .str a.sha256), ("media_type", .str a.mediaType), ("size_bytes", .num (.int a.sizeBytes))]

def Provenance.toDict (p : Provenance) : Json :=
  .obj [("trace_ids", strings p.traceIds), ("artifacts", .arr (p.artifacts.map ArtifactRef.toDict))]

def Scope.toDict (s : Scope) : Json :=
  .obj [("repos", strings s.repos), ("branches", strings s.branches), ("paths", strings s.paths),
    ("languages", strings s.languages), ("tasks", strings s.tasks)]

def ShadowEvaluation.toDict (e : ShadowEvaluation) : Json :=
  .obj [("candidate_score", number e.candidateScore), ("control_score", number e.controlScore),
    ("delta", number e.delta), ("sample_size", .num (.int e.sampleSize)),
    ("protected_suite_passed", .bool e.protectedSuitePassed),
    ("metric_label", .str (if e.measured then "measured" else "estimated")), ("held_out", .bool e.heldOut)]

def PromotionRecord.toDict (r : PromotionRecord) : Json :=
  .obj [("version", .num (.int r.version)), ("evaluation", r.evaluation.toDict),
    ("provenance", r.provenance.toDict), ("scope", r.scope.toDict),
    ("promoted_at_ms", .num (.int r.promotedAtMs)), ("reason", .str r.reason)]

def RefreshPolicy.toDict (r : RefreshPolicy) : Json :=
  .obj [("expires_at_ms", Json.ofOption (fun n => .num (.int n)) r.expiresAtMs),
    ("refresh_interval_ms", Json.ofOption (fun n => .num (.int n)) r.refreshIntervalMs)]

def LearningCandidate.toDict (c : LearningCandidate) : Json :=
  .obj [("id", .str c.id), ("kind", .str c.kind.value), ("content", .str c.content),
    ("provenance", c.provenance.toDict), ("scope", c.scope.toDict), ("state", .str c.state.value),
    ("version", .num (.int c.version)), ("findings", .arr (c.findings.map Finding.toDict)),
    ("evaluation", Json.ofOption ShadowEvaluation.toDict c.evaluation),
    ("promotion", Json.ofOption PromotionRecord.toDict c.promotion), ("refresh", c.refresh.toDict),
    ("created_at_ms", .num (.int c.createdAtMs)), ("updated_at_ms", .num (.int c.updatedAtMs))]

end Payload

inductive LearningComponent where
  | contextPolicy | verifierPolicy | routingPolicy | toolMiddleware | memory | prompt
  deriving DecidableEq

def LearningComponent.value : LearningComponent → String
  | .contextPolicy => "context-policy"
  | .verifierPolicy => "verifier-policy"
  | .routingPolicy => "routing-policy"
  | .toolMiddleware => "tool-middleware"
  | .memory => "memory"
  | .prompt => "prompt"

section

variable [Score] [Written]

/-- The effect that was predicted before the held-out evaluation. -/
structure PromotionPrediction where
  component : LearningComponent
  metric : String
  minimumEffect : Score.Value
  taskSlice : String
  risk : String
  named : PyText.strip metric ≠ "" ∧ PyText.strip taskSlice ≠ "" ∧ PyText.strip risk ≠ ""
  finite : (Written.num minimumEffect).decimal?.isSome = true
  nonneg : (Written.num minimumEffect).lt (.int 0) = false

def PromotionPrediction.toDict (p : PromotionPrediction) : Json :=
  .obj [("component", .str p.component.value), ("metric", .str p.metric),
    ("minimum_effect", number p.minimumEffect), ("task_slice", .str p.taskSlice), ("risk", .str p.risk)]

/-- The frozen evidence that a candidate needs to leave quarantine. -/
structure PromotionManifest where
  prediction : Option PromotionPrediction := none
  datasetRevision : String := ""
  heldOutResult : Option ShadowEvaluation := none
  protectedNonRegression : Bool := false
  rollbackPointer : String := ""
  schemaVersion : String := "1"

namespace PromotionManifest

def toDict (m : PromotionManifest) : Json :=
  .obj [("schema_version", .str m.schemaVersion),
    ("prediction", Json.ofOption PromotionPrediction.toDict m.prediction),
    ("dataset_revision", .str m.datasetRevision),
    ("held_out_result", Json.ofOption ShadowEvaluation.toDict m.heldOutResult),
    ("protected_non_regression", .bool m.protectedNonRegression),
    ("rollback_pointer", .str m.rollbackPointer)]

/-- The content address of a candidate with its manifest; `ValueError` where a number in it is not finite. -/
def digest (m : PromotionManifest) (c : LearningCandidate) : Option String :=
  let payload := Json.obj [("candidate", c.toDict), ("manifest", m.toDict)]
  if payload.finite then some (Sha256.sha256 payload.dumpsAscii) else none

end PromotionManifest

structure GovernedPromotionDecision where
  eligible : Bool
  reasons : List String
  deriving DecidableEq

/-- `a == b` on evaluations: field by field. -/
def ShadowEvaluation.same (a b : ShadowEvaluation) : Bool :=
  (Written.num a.candidateScore).eq (Written.num b.candidateScore) &&
  (Written.num a.controlScore).eq (Written.num b.controlScore) &&
  a.sampleSize == b.sampleSize && a.protectedSuitePassed == b.protectedSuitePassed &&
  a.measured == b.measured && a.heldOut == b.heldOut

structure GovernedPromotionGate where
  learningEnabled : Bool := true

namespace GovernedPromotionGate

/-- What the gate has against the held-out result. -/
def resultReasons (c : LearningCandidate) (m : PromotionManifest) : List String :=
  match m.heldOutResult with
  | none => ["held-out-result-missing"]
  | some result =>
    reasonIf (!result.heldOut) "result-not-held-out" ++
    reasonIf (!result.measured) "held-out-result-not-measured" ++
    reasonIf (!result.protectedSuitePassed) "protected-suite-regression" ++
    reasonIf (!c.evaluation.any (·.same result)) "candidate-result-mismatch" ++
    reasonIf (m.prediction.any (fun p => (Written.num result.delta).le (Written.num p.minimumEffect)))
      "held-out-improvement-below-prediction"

def evaluate (gate : GovernedPromotionGate) (c : LearningCandidate) (m : PromotionManifest) :
    GovernedPromotionDecision :=
  let reasons :=
    reasonIf (!gate.learningEnabled) "learning-disabled" ++
    reasonIf (c.state ≠ .shadowEvaluated) "candidate-not-shadow-evaluated" ++
    reasonIf (c.provenance.traceIds.isEmpty && c.provenance.artifacts.isEmpty) "provenance-missing" ++
    reasonIf c.scope.isEmpty "scope-missing" ++
    reasonIf m.prediction.isNone "prediction-missing" ++
    reasonIf (PyText.strip m.datasetRevision = "") "dataset-revision-missing" ++
    reasonIf (!m.protectedNonRegression) "protected-non-regression-missing" ++
    reasonIf (PyText.strip m.rollbackPointer = "") "rollback-pointer-missing" ++
    resultReasons c m
  ⟨reasons.isEmpty, reasons⟩

end GovernedPromotionGate

inductive CandidateDisposition where
  | quarantined | promoted | rolledBack
  deriving DecidableEq

structure CandidateRecord where
  candidate : LearningCandidate
  manifest : PromotionManifest
  manifestDigest : String
  disposition : CandidateDisposition := .quarantined
  decision : Option GovernedPromotionDecision := none
  createdAtMs : Int := 0
  updatedAtMs : Int := 0
  rollbackReason : String := ""

/-- The records under the ids of their candidates. -/
abbrev CandidateRegistry := List (String × CandidateRecord)

inductive PromotionError where
  | value (message : String)
  | conflict (message : String)
  | key (message : String)
  | learning (error : LearningError)

namespace CandidateRegistry

/-- A registry together with what a call on it returned or raised. -/
abbrev Outcome := CandidateRegistry × Except PromotionError CandidateRecord

def register (r : CandidateRegistry) (c : LearningCandidate) (m : PromotionManifest) (atMs : Int) : Outcome :=
  match m.digest c with
  | none => (r, .error (.value "Out of range float values are not JSON compliant"))
  | some digest =>
    match r.lookup c.id with
    | some existing =>
      if existing.manifestDigest ≠ digest then
        (r, .error (.conflict ("candidate " ++ pyRepr c.id ++ " already has a different frozen manifest")))
      else (r, .ok existing)
    | none =>
      let record : CandidateRecord :=
        { candidate := c, manifest := m, manifestDigest := digest, createdAtMs := atMs, updatedAtMs := atMs }
      (Dict.setItem c.id record r, .ok record)

def get (r : CandidateRegistry) (id : String) : Except PromotionError CandidateRecord :=
  match r.lookup id with
  | some record => .ok record
  | none => .error (.key ("unknown learning candidate: " ++ id))

def recordDecision (r : CandidateRegistry) (id : String) (decision : GovernedPromotionDecision)
    (candidate : Option LearningCandidate) (disposition : Option CandidateDisposition) (atMs : Int)
    (rollbackReason : String) : Outcome :=
  match get r id with
  | .error e => (r, .error e)
  | .ok current =>
    let updated := { current with
      candidate := candidate.getD current.candidate
      disposition := disposition.getD current.disposition
      decision := some decision
      updatedAtMs := atMs
      rollbackReason := rollbackReason }
    (Dict.setItem id updated r, .ok updated)

end CandidateRegistry

variable [WordChars]

namespace GovernedPromotionService

open CandidateRegistry

/-- The lifecycle gate that the service promotes through. -/
def lifecycleGate (gate : GovernedPromotionGate) (p : PromotionPrediction) : PromotionGate :=
  ⟨p.minimumEffect, gate.learningEnabled⟩

/-- What `promote` does with a record in quarantine. -/
def decide (gate : GovernedPromotionGate) (r : CandidateRegistry) (id : String) (record : CandidateRecord)
    (atMs : Int) (reason : String) : Outcome :=
  let decision := gate.evaluate record.candidate record.manifest
  if decision.eligible = false then recordDecision r id decision none none atMs ""
  else
    match record.manifest.prediction with
    -- The gate lets nothing without a prediction pass: the source asserts it.
    | none => (r, .error (.learning (.other "AssertionError")))
    | some p =>
      match advance record.candidate ⟨.promoted, none, none, atMs, reason⟩ (some (lifecycleGate gate p)) with
      | .error e => (r, .error (.learning e))
      | .ok promoted => recordDecision r id decision (some promoted) (some .promoted) atMs ""

def promote (gate : GovernedPromotionGate) (r : CandidateRegistry) (c : LearningCandidate) (m : PromotionManifest)
    (atMs : Int) (reason : String) : Outcome :=
  match register r c m atMs with
  | (r', .error e) => (r', .error e)
  | (r', .ok record) =>
    if record.disposition ≠ .quarantined then (r', .ok record)
    else decide gate r' c.id record atMs reason

def rollback (r : CandidateRegistry) (id : String) (atMs : Int) (reason : String) : Outcome :=
  match get r id with
  | .error e => (r, .error e)
  | .ok record =>
    if record.disposition = .rolledBack then (r, .ok record)
    else
      match Learning.rollback record.candidate atMs reason with
      | .error e => (r, .error (.learning e))
      | .ok reversed =>
        let decision := record.decision.getD ⟨false, ["rolled-back-before-promotion"]⟩
        recordDecision r id decision (some reversed) (some .rolledBack) atMs reason

end GovernedPromotionService

end

end Onmc.Learning
