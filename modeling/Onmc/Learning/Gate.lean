import Onmc.DurableRuntime.Store
import Onmc.Learning.Sanitize

/-! The eval-gated state machine of a learned artifact: legal moves, the sanitize barrier, promotion. -/
namespace Onmc.Learning

open Onmc.ToolBroker (WordChars)
open Onmc.DurableRuntime (pyRepr)

/-- The numbers of an evaluation, as the interpreter computes with them. -/
class Score where
  Value : Type
  sub : Value → Value → Value
  lt : Value → Value → Bool
  zero : Value
  /-- `f"{x:.4f}"` -/
  fixed4 : Value → String

inductive CandidateState where
  | observed | candidate | sanitized | scoped | shadowEvaluated | promoted | monitored | superseded | rolledBack
  deriving DecidableEq

def CandidateState.value : CandidateState → String
  | .observed => "observed"
  | .candidate => "candidate"
  | .sanitized => "sanitized"
  | .scoped => "scoped"
  | .shadowEvaluated => "shadow-evaluated"
  | .promoted => "promoted"
  | .monitored => "monitored"
  | .superseded => "superseded"
  | .rolledBack => "rolled-back"

/-- `_CANDIDATE_TRANSITIONS` -/
def candidateTransitions : CandidateState → List CandidateState
  | .observed => [.candidate]
  | .candidate => [.sanitized, .rolledBack]
  | .sanitized => [.scoped, .rolledBack]
  | .scoped => [.shadowEvaluated, .rolledBack]
  | .shadowEvaluated => [.promoted, .rolledBack]
  | .promoted => [.monitored, .rolledBack]
  | .monitored => [.superseded, .rolledBack]
  | .superseded => []
  | .rolledBack => []

def isLegalTransition (src dst : CandidateState) : Bool := (candidateTransitions src).contains dst

inductive CandidateKind where
  | episode | repoFact | decision | failedApproach | skill | strategy
  deriving DecidableEq

def CandidateKind.value : CandidateKind → String
  | .episode => "episode"
  | .repoFact => "repo-fact"
  | .decision => "decision"
  | .failedApproach => "failed-approach"
  | .skill => "skill"
  | .strategy => "strategy"

structure ArtifactRef where
  sha256 : String
  mediaType : String
  sizeBytes : Nat
  deriving DecidableEq

structure Provenance where
  traceIds : List String
  artifacts : List ArtifactRef
  deriving DecidableEq

structure Scope where
  repos : List String
  branches : List String
  paths : List String
  languages : List String
  tasks : List String
  deriving DecidableEq

def Scope.isEmpty (s : Scope) : Bool :=
  s.repos.isEmpty && s.branches.isEmpty && s.paths.isEmpty && s.languages.isEmpty && s.tasks.isEmpty

section

variable [Score]

structure ShadowEvaluation where
  candidateScore : Score.Value
  controlScore : Score.Value
  sampleSize : Nat
  protectedSuitePassed : Bool
  measured : Bool
  heldOut : Bool

namespace ShadowEvaluation

def delta (e : ShadowEvaluation) : Score.Value := Score.sub e.candidateScore e.controlScore

def improvesOverControl (e : ShadowEvaluation) (minImprovement : Score.Value) : Bool :=
  e.heldOut && Score.lt minImprovement e.delta

end ShadowEvaluation

structure PromotionRecord where
  version : Nat
  evaluation : ShadowEvaluation
  provenance : Provenance
  scope : Scope
  promotedAtMs : Int
  reason : String

structure RefreshPolicy where
  expiresAtMs : Option Nat
  refreshIntervalMs : Option Nat
  deriving DecidableEq

/-- A learned artifact on its way through the lifecycle. -/
structure LearningCandidate where
  id : String
  kind : CandidateKind
  content : String
  provenance : Provenance
  scope : Scope
  state : CandidateState
  version : Nat
  findings : List Finding
  evaluation : Option ShadowEvaluation
  promotion : Option PromotionRecord
  refresh : RefreshPolicy
  createdAtMs : Int
  updatedAtMs : Int

def LearningCandidate.isSanitizedClean (c : LearningCandidate) : Bool := c.findings.isEmpty

inductive LearningError where
  | illegalTransition (src dst : CandidateState)
  | sanitization (candidateId : String) (findings : List Finding)
  | promotionRejected (candidateId : String) (reasons : List String)
  | other (message : String)
  deriving DecidableEq

/-- `str(exc)` -/
def LearningError.text : LearningError → String
  | .illegalTransition src dst => "illegal transition " ++ src.value ++ " -> " ++ dst.value
  | .sanitization candidateId findings =>
    let ruleIds := if findings = [] then "none" else PyText.join ", " (findings.map Finding.ruleId)
    "candidate " ++ pyRepr candidateId ++ " cannot advance past sanitized (" ++ toString findings.length ++
      " finding(s): " ++ ruleIds ++ ")"
  | .promotionRejected candidateId reasons =>
    "promotion of " ++ pyRepr candidateId ++ " rejected: " ++ PyText.join "; " reasons
  | .other message => message

structure AdvanceEvent where
  /-- `to` -/
  target : CandidateState
  scope : Option Scope
  evaluation : Option ShadowEvaluation
  atMs : Int
  reason : String

structure PromotionDecision where
  eligible : Bool
  reasons : List String
  deriving DecidableEq

structure PromotionGate where
  minImprovement : Score.Value
  learningEnabled : Bool

/-- `PromotionGate()` -/
def PromotionGate.default : PromotionGate := ⟨Score.zero, true⟩

/-- A reason, where it applies. -/
def reasonIf (applies : Bool) (reason : String) : List String := if applies then [reason] else []

namespace PromotionGate

/-- What the gate has against an evaluation. -/
def evaluationReasons (gate : PromotionGate) : Option ShadowEvaluation → List String
  | none => ["no-evaluation: held-out shadow evaluation missing"]
  | some evaluation =>
    reasonIf (!evaluation.heldOut) "not-held-out: evaluation was not run on a held-out set" ++
    reasonIf (!evaluation.improvesOverControl gate.minImprovement)
      ("no-improvement: learning arm does not beat the disabled control (delta=" ++
        Score.fixed4 evaluation.delta ++ ", required>" ++ Score.fixed4 gate.minImprovement ++ ")") ++
    reasonIf (!evaluation.protectedSuitePassed)
      "protected-regression: protected-suite non-regression flag is false"

def evaluate (gate : PromotionGate) (c : LearningCandidate) : PromotionDecision :=
  let reasons :=
    reasonIf (!gate.learningEnabled) "learning-disabled: promotion suppressed by global flag" ++
    reasonIf (c.state ≠ .shadowEvaluated) ("wrong-state: must be shadow-evaluated, is " ++ c.state.value) ++
    reasonIf (!c.isSanitizedClean) ("not-sanitized-clean: " ++ toString c.findings.length ++ " finding(s)") ++
    reasonIf c.scope.isEmpty "no-scope: candidate scope is empty" ++
    gate.evaluationReasons c.evaluation
  ⟨reasons.isEmpty, reasons⟩

end PromotionGate

/-- The part of `advance` that a promotion is: it reads the candidate's own evaluation. -/
def promote (gate : PromotionGate) (c : LearningCandidate) (event : AdvanceEvent) :
    Except LearningError LearningCandidate :=
  let decision := gate.evaluate c
  if decision.eligible then
    match c.evaluation with
    | some evaluation =>
      .ok { c with
        state := .promoted
        updatedAtMs := event.atMs
        version := c.version + 1
        promotion := some ⟨c.version + 1, evaluation, c.provenance, c.scope, event.atMs, event.reason⟩ }
    -- The gate lets nothing without an evaluation pass: the source asserts it.
    | none => .error (.other "AssertionError")
  else .error (.promotionRejected c.id decision.reasons)

def advance [WordChars] (c : LearningCandidate) (event : AdvanceEvent) (gate : Option PromotionGate) :
    Except LearningError LearningCandidate :=
  let gate := gate.getD PromotionGate.default
  if isLegalTransition c.state event.target = false then .error (.illegalTransition c.state event.target)
  else if c.state = .sanitized ∧ event.target = .scoped ∧ c.isSanitizedClean = false then
    .error (.sanitization c.id c.findings)
  else
    let moved := { c with state := event.target, updatedAtMs := event.atMs }
    match event.target with
    | .sanitized => .ok { moved with findings := Sanitize.scan c.content }
    | .scoped =>
      match event.scope with
      | some scope =>
        if scope.isEmpty then
          .error (.other ("advancing " ++ pyRepr c.id ++ " to scoped requires a non-empty scope"))
        else .ok { moved with scope := scope }
      | none => .error (.other ("advancing " ++ pyRepr c.id ++ " to scoped requires a non-empty scope"))
    | .shadowEvaluated =>
      match event.evaluation with
      | some evaluation => .ok { moved with evaluation := some evaluation }
      | none => .error (.other ("advancing " ++ pyRepr c.id ++ " to shadow-evaluated requires an evaluation"))
    | .promoted => promote gate c event
    | _ => .ok moved

def rollback [WordChars] (c : LearningCandidate) (atMs : Int) (reason : String) :
    Except LearningError LearningCandidate :=
  advance c ⟨.rolledBack, none, none, atMs, reason⟩ none

end

end Onmc.Learning
