import Onmc.Loop.Checkpoint
import Onmc.PurePath

/-! Routing of the next iteration by what the run has shown so far, and the advice on models that is noted
beside it. -/
namespace Onmc

/-- `f"{x:.{digits}f}"` of a number that is not negative -/
def Num.fixed (digits : Nat) (x : Num) : String :=
  match x with
  | nan => "nan"
  | infinity negative => if negative then "-inf" else "inf"
  | int n => toString n ++ "." ++ String.ofList (List.replicate digits '0')
  | float d =>
    let shifted := (DateTime.roundHalfEven (d.coef * 10 ^ digits) (10 ^ d.scale)).toNat
    toString (shifted / 10 ^ digits) ++ "." ++ String.ofList (Json.padded digits (shifted % 10 ^ digits))

namespace Loop

open JsonValue

inductive RouteAction where
  | start | «continue» | escalate
  deriving DecidableEq

def RouteAction.value : RouteAction → String
  | .start => "start"
  | .continue => "continue"
  | .escalate => "escalate"

/-- Signals observed before the next episode. -/
structure TrajectorySignals where
  iteration : Nat
  currentEscalationLevel : Int
  consecutiveLosses : Int
  escalationThreshold : Int
  consecutiveNoops : Int
  consecutiveSameError : Int
  totalTokens : Int
  totalCostUsd : Num
  lastLoss : Option RoutedContract

structure TrajectoryRouteDecision where
  iteration : Nat
  action : RouteAction
  escalationLevel : Int
  resetConsecutiveLosses : Bool
  confidence : Decimal
  rationale : String
  signals : List String := []

def TrajectoryRouteDecision.toDict (d : TrajectoryRouteDecision) : JsonDict :=
  let receipt := JsonDict.empty.set "iteration" (.int d.iteration)
  let receipt := receipt.set "action" (.str d.action.value)
  let receipt := receipt.set "escalation_level" (.int d.escalationLevel)
  let receipt := receipt.set "reset_consecutive_losses" (.bool d.resetConsecutiveLosses)
  let receipt := receipt.set "confidence" (.num (.float d.confidence))
  let receipt := receipt.set "rationale" (.str d.rationale)
  receipt.set "signals" (.strs d.signals)

/-- `_observed_signals` -/
def observedSignals (s : TrajectorySignals) : List String :=
  let threshold := max s.escalationThreshold 1
  (if s.consecutiveLosses ≥ threshold then [toString s.consecutiveLosses ++ " consecutive losses reached threshold"]
    else if s.consecutiveLosses > 0 then
      [toString s.consecutiveLosses ++ "/" ++ toString threshold ++ " consecutive losses"]
    else []) ++
  (if s.consecutiveNoops > 0 then ["previous verifier pass was vacuous because no net change was observed"] else []) ++
  (if s.consecutiveSameError ≥ 2 then [toString s.consecutiveSameError ++ " repeated verifier-error heads"] else []) ++
  (match s.lastLoss with
    | some loss =>
      (if loss.filesTouched.length ≥ 6 then
        ["last failed episode touched " ++ toString loss.filesTouched.length ++ " files"] else []) ++
      (match loss.tokens with
        | some tokens => if tokens ≥ 8000 then ["last failed episode spent " ++ toString tokens ++ " tokens"] else []
        | none => [])
    | none => []) ++
  (if Num.lt (.int 0) s.totalCostUsd then ["observed cost $" ++ s.totalCostUsd.fixed 4]
    else if s.totalTokens > 0 then ["observed " ++ toString s.totalTokens ++ " tokens"]
    else [])

def zeroConfidence : Decimal := .ofInt 0
def thresholdConfidence : Decimal := .normalize 72 2
def signalConfidence : Decimal := .normalize 58 2
def continueConfidence : Decimal := .normalize 45 2

/-- `strong_live_signal` -/
def strongLiveSignal (s : TrajectorySignals) (loss : RoutedContract) : Bool :=
  decide (s.consecutiveNoops > 0) || decide (s.consecutiveSameError ≥ 2) ||
    (match loss.tokens with
      | some tokens => decide (tokens ≥ 8000) && decide (loss.outcome = .loss)
      | none => false) || decide (loss.filesTouched.length ≥ 6)

def routeNextIteration (s : TrajectorySignals) : TrajectoryRouteDecision :=
  match s.lastLoss with
  | none =>
    { iteration := s.iteration, action := .start, escalationLevel := s.currentEscalationLevel
      resetConsecutiveLosses := false, confidence := zeroConfidence
      rationale := "no prior episode; start at the requested model tier" }
  | some loss =>
    let observed := observedSignals s
    let threshold := max s.escalationThreshold 1
    let thresholdHit := decide (s.consecutiveLosses ≥ threshold)
    if thresholdHit || strongLiveSignal s loss then
      let reasons := if observed = [] then ["loss threshold reached"] else observed
      { iteration := s.iteration, action := .escalate, escalationLevel := s.currentEscalationLevel + 1
        resetConsecutiveLosses := true
        confidence := if thresholdHit then thresholdConfidence else signalConfidence
        rationale := PyText.join "; " reasons, signals := reasons }
    else
      { iteration := s.iteration, action := .continue, escalationLevel := s.currentEscalationLevel
        resetConsecutiveLosses := false, confidence := continueConfidence
        rationale := "observed " ++ toString s.consecutiveLosses ++ "/" ++ toString threshold ++
          " loss(es); continue current episode before escalating"
        signals := observed }

def renderRoutePrompt (d : TrajectoryRouteDecision) : String :=
  if d.action = .start then ""
  else "## ONMC routing decision\n\nAction: " ++ d.action.value ++ "; escalation_level=" ++ toString d.escalationLevel ++
    "; confidence=" ++ Num.fixed 2 (.float d.confidence) ++ ".\nBasis: " ++ d.rationale ++ "\n"

/-! The shadow advice. -/

inductive TaskKind where
  | localEdit | crossModule | unknown
  deriving DecidableEq

def TaskKind.value : TaskKind → String
  | .localEdit => "local-edit"
  | .crossModule => "cross-module"
  | .unknown => "unknown"

inductive VerifierState where
  | notRun | passed | failed | unavailable
  deriving DecidableEq

def VerifierState.value : VerifierState → String
  | .notRun => "not-run"
  | .passed => "passed"
  | .failed => "failed"
  | .unavailable => "unavailable"

/-- Signals available after an exploratory episode. -/
structure TrajectoryObservation where
  taskKind : TaskKind
  repositoryFiles : Option Int
  filesExplored : List String
  dependencyBreadth : Int
  testFailures : Int
  noProgressEvents : Int
  uncertainty : Option Num
  toolErrors : Int
  verifierState : VerifierState
  tokensUsed : Option Int
  tokenBudget : Option Int
  costUsd : Option Num
  costBudgetUsd : Option Num
  costIsReliable : Bool
  priorEscalations : Int

/-- `_require_non_negative_int` -/
def requireNonNegativeInt (value : Option Int) (name : String) : Except String Unit :=
  if value.any (fun n => decide (n < 0)) then .error (name ++ " must be a non-negative integer or None") else .ok ()

/-- `_require_non_negative_number` -/
def requireNonNegativeNumber (value : Option Num) (name : String) : Except String Unit :=
  if value.any (fun x => x.decimal?.isNone || x.lt (.int 0)) then
    .error (name ++ " must be a finite non-negative number or None")
  else .ok ()

namespace TrajectoryObservation

def postInit (o : TrajectoryObservation) : Except String Unit := do
  if o.filesExplored.any (fun path => PyText.strip path = "") then
    throw "files_explored entries must be non-empty strings"
  if ¬ o.filesExplored.Nodup then throw "files_explored must not contain duplicates"
  requireNonNegativeInt o.repositoryFiles "repository_files"
  requireNonNegativeInt (some o.dependencyBreadth) "dependency_breadth"
  requireNonNegativeInt (some o.testFailures) "test_failures"
  requireNonNegativeInt (some o.noProgressEvents) "no_progress_events"
  requireNonNegativeInt (some o.toolErrors) "tool_errors"
  requireNonNegativeInt o.tokensUsed "tokens_used"
  requireNonNegativeInt o.tokenBudget "token_budget"
  requireNonNegativeInt (some o.priorEscalations) "prior_escalations"
  requireNonNegativeNumber o.costUsd "cost_usd"
  requireNonNegativeNumber o.costBudgetUsd "cost_budget_usd"
  if o.uncertainty.any (fun x => x.decimal?.isNone || x.lt (.int 0) || Num.lt (.int 1) x) then
    throw "uncertainty must be a finite number in [0, 1] or None"

def fileBreadth (o : TrajectoryObservation) : Nat := o.filesExplored.length

def costLearningEligible (o : TrajectoryObservation) : Bool := o.costUsd.isSome && o.costIsReliable

def tokenBudgetExhausted (o : TrajectoryObservation) : Bool :=
  match o.tokenBudget, o.tokensUsed with
  | some budget, some used => decide (used ≥ budget)
  | _, _ => false

def costBudgetExhausted (o : TrajectoryObservation) : Bool :=
  match o.costBudgetUsd, o.costUsd with
  | some budget, some cost => Num.le budget cost
  | _, _ => false

def toDict (o : TrajectoryObservation) : JsonDict :=
  let d := JsonDict.empty.set "task_kind" (.str o.taskKind.value)
  let d := d.set "repository_files" (.opt .int o.repositoryFiles)
  let d := d.set "files_explored" (.strs o.filesExplored)
  let d := d.set "file_breadth" (.int o.fileBreadth)
  let d := d.set "dependency_breadth" (.int o.dependencyBreadth)
  let d := d.set "test_failures" (.int o.testFailures)
  let d := d.set "no_progress_events" (.int o.noProgressEvents)
  let d := d.set "uncertainty" (.opt .num o.uncertainty)
  let d := d.set "tool_errors" (.int o.toolErrors)
  let d := d.set "verifier_state" (.str o.verifierState.value)
  let d := d.set "tokens_used" (.opt .int o.tokensUsed)
  let d := d.set "token_budget" (.opt .int o.tokenBudget)
  let d := d.set "cost_usd" (.opt .num o.costUsd)
  let d := d.set "cost_budget_usd" (.opt .num o.costBudgetUsd)
  let d := d.set "cost_is_reliable" (.bool o.costIsReliable)
  let d := d.set "cost_learning_eligible" (.bool o.costLearningEligible)
  d.set "prior_escalations" (.int o.priorEscalations)

end TrajectoryObservation

inductive RoutingAction where
  | continueCheap | recommendEscalation | holdTier
  deriving DecidableEq

def RoutingAction.value : RoutingAction → String
  | .continueCheap => "continue-cheap"
  | .recommendEscalation => "recommend-escalation"
  | .holdTier => "hold-tier"

/-- A recommendation: it selects no model by itself. -/
structure ShadowRoutingDecision where
  action : RoutingAction
  currentModel : String
  recommendedModel : String
  reasons : List String
  observedRiskScore : Nat
  costLearningEligible : Bool
  telemetryStatus : List String
  observation : TrajectoryObservation

def ShadowRoutingDecision.toDict (d : ShadowRoutingDecision) : JsonDict :=
  let advice := JsonDict.empty.set "action" (.str d.action.value)
  let advice := advice.set "current_model" (.str d.currentModel)
  let advice := advice.set "recommended_model" (.str d.recommendedModel)
  let advice := advice.set "reasons" (.strs d.reasons)
  let advice := advice.set "observed_risk_score" (.int d.observedRiskScore)
  let advice := advice.set "cost_learning_eligible" (.bool d.costLearningEligible)
  let advice := advice.set "telemetry_status" (.strs d.telemetryStatus)
  let advice := advice.set "observed_trajectory" (.dict d.observation.toDict)
  let advice := advice.set "advisory_only" (.bool true)
  let advice := advice.set "enforced" (.bool false)
  let advice := advice.set "preserve_worktree" (.bool true)
  advice.set "preserve_context" (.bool true)

structure ShadowRoutingPolicy where
  cheapModel : String
  strongModel : String
  maxEscalations : Int := 1
  largeRepositoryThreshold : Int := 1000
  broadFileThreshold : Int := 4
  broadDependencyThreshold : Int := 3
  repeatedFailureThreshold : Int := 2
  noProgressThreshold : Int := 2
  uncertaintyThreshold : Num := .float (.normalize 7 1)

namespace ShadowRoutingPolicy

/-- `_risk`: the reasons; the score is their number. -/
def risk (p : ShadowRoutingPolicy) (o : TrajectoryObservation) : List String :=
  (if o.taskKind = .crossModule then ["cross-module task"] else []) ++
  (if o.repositoryFiles.any (fun files => decide (files ≥ p.largeRepositoryThreshold)) then ["large repository"] else []) ++
  (if o.fileBreadth ≥ p.broadFileThreshold then ["broad file exploration"] else []) ++
  (if o.dependencyBreadth ≥ p.broadDependencyThreshold then ["broad dependency exploration"] else []) ++
  (if o.testFailures ≥ p.repeatedFailureThreshold then ["repeated test failures"] else []) ++
  (if o.noProgressEvents ≥ p.noProgressThreshold then ["repeated no-progress observations"] else []) ++
  (if o.verifierState = .failed then ["independent verifier failed"] else []) ++
  (if o.uncertainty.any (fun x => Num.le p.uncertaintyThreshold x) then ["high observed uncertainty"] else []) ++
  (if o.toolErrors ≥ p.repeatedFailureThreshold then ["repeated tool errors"] else [])

/-- `_telemetry_status` -/
def telemetryStatus (o : TrajectoryObservation) : List String :=
  (if o.tokensUsed.isNone then ["token telemetry unavailable"] else []) ++
  (if o.costUsd.isNone then ["cost telemetry unavailable; cost learning disabled"]
    else if o.costIsReliable then []
    else ["cost telemetry unreliable; cost learning disabled"])

/-- `_decision` -/
def decision (action : RoutingAction) (currentModel recommendedModel : String) (reasons : List String)
    (riskScore : Nat) (o : TrajectoryObservation) : ShadowRoutingDecision :=
  ⟨action, currentModel, recommendedModel, reasons, riskScore, o.costLearningEligible, telemetryStatus o, o⟩

def advise (p : ShadowRoutingPolicy) (o : TrajectoryObservation) : ShadowRoutingDecision :=
  let currentModel := if o.priorEscalations ≠ 0 then p.strongModel else p.cheapModel
  let riskReasons := p.risk o
  let stay (action : RoutingAction) (reasons : List String) :=
    decision action currentModel currentModel reasons riskReasons.length o
  if o.tokenBudgetExhausted then stay .holdTier ["token budget exhausted"]
  else if o.costBudgetExhausted then stay .holdTier ["cost budget exhausted"]
  else if o.priorEscalations ≥ p.maxEscalations then stay .holdTier ["escalation cap reached"]
  else if o.verifierState = .passed then
    stay (if o.priorEscalations ≠ 0 then .holdTier else .continueCheap) ["targeted verifier passed"]
  else if (o.testFailures ≥ p.repeatedFailureThreshold ∨ o.noProgressEvents ≥ p.noProgressThreshold ∨
      o.verifierState = .failed) ∧ riskReasons.length ≥ 3 then
    decision .recommendEscalation currentModel p.strongModel riskReasons riskReasons.length o
  else
    stay .continueCheap (if riskReasons = [] then ["insufficient observed evidence to escalate"] else riskReasons)

end ShadowRoutingPolicy

/-- `str(Path(path).parent)` -/
def parentDirectory (path : String) : String :=
  let whole := PurePath.parse path.toList
  String.ofList (PurePath.text { whole with
    parts := whole.parts.dropLast
    parts_kept := fun part member => whole.parts_kept part (List.mem_of_mem_dropLast member) })

/-- `_shadow_model_advice`, on the variables of the loop. -/
def shadowModelAdvice (s : LoopState) (consecutiveNoops : Int) (tokenBudget : Option Int) (costBudgetUsd : Option Num) :
    Except String (Option ShadowRoutingDecision) :=
  match s.lastLoss with
  | none => .ok none
  | some loss => do
    let files := PyText.fromKeys loss.filesTouched
    let parents := (files.map parentDirectory).eraseDups
    let dependencyBreadth : Int := max 0 ((parents.length : Int) - 1)
    let observation : TrajectoryObservation :=
      { taskKind := if files.length ≥ 4 ∨ dependencyBreadth ≥ 3 then .crossModule else .localEdit
        repositoryFiles := none
        filesExplored := files
        dependencyBreadth
        testFailures := s.consecutiveLosses
        noProgressEvents := max consecutiveNoops s.consecutiveSameError
        uncertainty := none
        toolErrors := 0
        verifierState := .failed
        tokensUsed := if s.tokenTelemetryComplete then some s.totalTokens else none
        tokenBudget
        costUsd := if s.costTelemetryComplete then some s.totalCostUsd else none
        costBudgetUsd
        costIsReliable := s.costTelemetryComplete
        priorEscalations := s.shadowEscalations }
    observation.postInit
    return some (({ cheapModel := "cheap-tier", strongModel := "strong-tier" } : ShadowRoutingPolicy).advise observation)

end Loop
end Onmc
