import Onmc.Harness.RunPolicy
import Onmc.ProofGraph

/-! Typed records of the six stages of a harness run, each a pure function of what the run
observed. -/
namespace Onmc.Harness
open ProofGraph (ProofAssessment)

/-- The contract of one loop iteration. -/
structure IterationContract where
  iteration : Nat
  prediction : String
  actionSummary : String
  filesTouched : List String
  verifyPassed : Bool
  verifyOutput : String
  outcome : String
  tokens : Option Nat
  routeDecision : Option Json

structure LoopResult where
  iterations : List IterationContract
  converged : Bool
  stopReason : String
  totalTokens : Nat
  totalCostUsd : Option Num
  wallSeconds : Option Num
  worktreePath : Option String

inductive StageName where
  | prepare | context | execute | verify | proof | learnCandidate
deriving DecidableEq

def StageName.value : StageName → String
  | prepare => "prepare"
  | context => "context"
  | execute => "execute"
  | verify => "verify"
  | proof => "proof"
  | learnCandidate => "learn-candidate"

/-- `tuple(StageName)` -/
def StageName.all : List StageName := [prepare, context, execute, verify, proof, learnCandidate]

inductive StageStatus where
  | succeeded | failed | blocked | skipped
deriving DecidableEq

def StageStatus.value : StageStatus → String
  | succeeded => "succeeded"
  | failed => "failed"
  | blocked => "blocked"
  | skipped => "skipped"

structure StageRecord where
  name : StageName
  status : StageStatus
  summary : String
  facts : List (String × String)
  reasons : List String

def StageRecord.toDict (stage : StageRecord) : Json :=
  .obj [("name", .str stage.name.value), ("status", .str stage.status.value),
    ("summary", .str stage.summary), ("facts", .arr (stage.facts.map (fun (k, v) => strings [k, v]))),
    ("reasons", strings stage.reasons)]

/-- `str(b).lower()` -/
def lowerBool (b : Bool) : String := if b then "true" else "false"

def prepareStage [Sha256] (dag : TaskDAG) (runId : String) : StageRecord where
  name := .prepare
  status := .succeeded
  summary := "compiled " ++ toString dag.nodes.length ++ "-node plan at risk=" ++ dag.risk.value
  facts := [("run_id", runId), ("nodes", toString dag.nodes.length), ("risk", dag.risk.value),
    ("dag_digest", Sha256.hexdigest dag.toDict.dumpsAscii)]
  reasons := []

/-- What the context engine's packet puts into its stage record. -/
structure ContextFacts where
  summary : String
  facts : List (String × String)
  reasons : List String

/-- Injection findings and fallbacks are reasons here, never a failure. -/
def contextStage (packet : ContextFacts) : StageRecord :=
  ⟨.context, .succeeded, packet.summary, packet.facts, packet.reasons⟩

/-- `text or default` -/
def orElse (text default : String) : String := if text = "" then default else text

def executeStage (result : LoopResult) (changedFiles : List String) (diffLineCount : Nat) : StageRecord :=
  let routed := result.iterations.filterMap IterationContract.routeDecision
  let escalations := routed.filter fun decision => match decision.get? "action" with
    | some (.str action) => action = "escalate"
    | _ => false
  { name := .execute
    status := if result.converged then .succeeded else .failed
    summary := "loop " ++ (if result.converged then "converged" else "did not converge") ++ " after " ++
      toString result.iterations.length ++ " iteration(s)"
    facts := [("converged", lowerBool result.converged),
      ("iterations", toString result.iterations.length), ("stop_reason", orElse result.stopReason "none"),
      ("files_touched", toString changedFiles.length), ("diff_lines", toString diffLineCount),
      ("routing_decisions", toString routed.length), ("routing_escalations", toString escalations.length)]
    reasons := if result.converged then [] else [orElse result.stopReason "loop did not converge"] }

def failedNames (signals : List VerifierSignal) : List String :=
  (signals.filter (fun signal => !signal.passed)).map VerifierSignal.name

def verifyStage (signals : List VerifierSignal) : StageRecord :=
  let failed := failedNames signals
  let (status, reasons) :=
    if signals = [] then (StageStatus.failed, ["no verifier was executed"])
    else if signals.all VerifierSignal.passed then (.succeeded, [])
    else (.failed, failed.map ("verifier failed: " ++ ·))
  { name := .verify
    status
    summary := toString (signals.length - failed.length) ++ "/" ++ toString signals.length ++
      " verifier(s) passed"
    facts := signals.map (fun signal => (signal.name, if signal.passed then "pass" else "fail"))
    reasons }

def proofStage (assessment : ProofAssessment) (receiptHash : String) : StageRecord :=
  let proven := assessment.complete && !assessment.falseGreen
  { name := .proof
    status := if proven then .succeeded else .failed
    summary := if proven then "proof complete" else "proof incomplete"
    facts := [("complete", lowerBool assessment.complete), ("false_green", lowerBool assessment.falseGreen),
      ("receipt_hash", receiptHash)]
    reasons := assessment.reasons }

/-- The heads of the outputs of the verifiers that rejected a change. -/
def errorHeads (result : LoopResult) : List String :=
  let rejected := result.iterations.filter
    (fun contract => !contract.verifyPassed && PyText.strip contract.verifyOutput != "")
  (PyText.fromKeys (rejected.map (fun contract => PyText.first 80 contract.verifyOutput))).insertionSort
    (· ≤ ·)

def numbered (items : List String) : List (String × String) :=
  items.zipIdx.map (fun (text, index) => ("candidate_" ++ toString index, text))

def learnCandidateStage (result : LoopResult) (proven : Bool) : StageRecord :=
  let verdict := if proven then "decision: task converged and proved via '" ++ result.stopReason ++ "'"
    else "dead-end: run stopped unproven at '" ++ result.stopReason ++ "'"
  let candidates := verdict :: (errorHeads result).map ("dead-end: verifier rejected change — " ++ ·)
  { name := .learnCandidate
    status := .succeeded
    summary := toString candidates.length ++ " learning candidate(s) proposed (not persisted)"
    facts := numbered candidates
    reasons := [] }

/-- `stages_complete` -/
def stagesComplete (stages : List StageRecord) : Bool :=
  decide (stages.map StageRecord.name = StageName.all) &&
    stages.all (fun stage => stage.status = .succeeded)

theorem verifyStage_succeeded {signals : List VerifierSignal} :
    (verifyStage signals).status = .succeeded ↔ signals ≠ [] ∧ ∀ signal ∈ signals, signal.passed = true := by
  unfold verifyStage
  by_cases none : signals = []
  · simp [none]
  · by_cases passed : signals.all VerifierSignal.passed = true
    · simp only [if_neg none, if_pos passed, true_iff]
      exact ⟨none, List.all_eq_true.mp passed⟩
    · simp only [if_neg none, if_neg passed, reduceCtorEq, false_iff, not_and]
      exact fun _ all => passed (List.all_eq_true.mpr all)

theorem proofStage_succeeded {assessment : ProofAssessment} {receiptHash : String} :
    (proofStage assessment receiptHash).status = .succeeded ↔
      assessment.complete = true ∧ assessment.falseGreen = false := by
  cases hc : assessment.complete <;> cases hf : assessment.falseGreen <;> simp [proofStage, hc, hf]

theorem executeStage_succeeded {result : LoopResult} {changedFiles : List String} {count : Nat} :
    (executeStage result changedFiles count).status = .succeeded ↔ result.converged = true := by
  cases hc : result.converged <;> simp [executeStage, hc]

end Onmc.Harness
