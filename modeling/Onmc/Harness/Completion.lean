import Onmc.Harness.Stages

/-! The completion gate: the last decision between a loop that stopped and a run that may be called
complete. -/
namespace Onmc.Harness
open ProofGraph (ProofAssessment)

structure CompletionGateDecision where
  proofComplete : Bool
  policyOk : Bool
  assessment : ProofAssessment
  proofReasons : List String
  policyReasons : List String

/-- What the gate is shown. -/
structure GateInputs where
  loopConverged : Bool
  changedFiles : List String
  signals : List VerifierSignal
  proof : ProofAssessment
  policy : RunPolicyDecision
  monitorBlocked : Bool
  verifierFalseGreen : Bool

/-- `tuple(dict.fromkeys(reason for reason in reasons if reason))` -/
def canonicalReasons (reasons : List String) : List String :=
  PyText.fromKeys (reasons.filter (· ≠ ""))

def reasonWhen (condition : Bool) (reason : String) : List String := if condition then [reason] else []

/-- `evaluate_completion_gate` -/
def evaluateCompletionGate (i : GateInputs) : CompletionGateDecision :=
  let failed := failedNames i.signals
  let proofReasons := canonicalReasons (i.proof.reasons ++
    reasonWhen (!i.loopConverged) "agent loop did not converge" ++
    reasonWhen i.changedFiles.isEmpty "no observed working-tree change" ++
    reasonWhen i.signals.isEmpty "no verifier was executed" ++
    failed.map ("verifier failed: " ++ ·) ++
    reasonWhen i.proof.falseGreen "proof graph reported a false green" ++
    reasonWhen i.verifierFalseGreen "independent verifier reported a false green")
  let proofComplete := i.loopConverged && !i.changedFiles.isEmpty && !i.signals.isEmpty &&
    failed.isEmpty && i.proof.complete && !i.proof.falseGreen && !i.verifierFalseGreen
  { proofComplete
    policyOk := i.policy.allowed && !i.policy.approvalsRequired && !i.monitorBlocked
    assessment := ⟨proofComplete, !proofComplete, proofReasons⟩
    proofReasons
    policyReasons := canonicalReasons (i.policy.violations.map PolicyViolation.message ++
      reasonWhen i.monitorBlocked "reference monitor blocked an observed effect") }

/-- The gates of the proof. -/
structure Proven (i : GateInputs) : Prop where
  converged : i.loopConverged = true
  changed : i.changedFiles ≠ []
  verified : i.signals ≠ []
  passed : ∀ signal ∈ i.signals, signal.passed = true
  complete : i.proof.complete = true
  honest : i.proof.falseGreen = false
  graded : i.verifierFalseGreen = false

/-- The gates of the policy and of the reference monitor. -/
structure Permitted (i : GateInputs) : Prop where
  allowed : i.policy.allowed = true
  approved : i.policy.approvalsRequired = false
  unblocked : i.monitorBlocked = false

theorem failedNames_nil {signals : List VerifierSignal} :
    failedNames signals = [] ↔ ∀ signal ∈ signals, signal.passed = true := by
  simp [failedNames]

theorem proofComplete_iff {i : GateInputs} :
    (evaluateCompletionGate i).proofComplete = true ↔ Proven i := by
  simp only [evaluateCompletionGate, Bool.and_eq_true, Bool.not_eq_true', List.isEmpty_eq_false_iff,
    List.isEmpty_iff, failedNames_nil, and_assoc]
  constructor
  · rintro ⟨converged, changed, verified, passed, complete, honest, graded⟩
    exact ⟨converged, changed, verified, passed, complete, honest, graded⟩
  · rintro ⟨converged, changed, verified, passed, complete, honest, graded⟩
    exact ⟨converged, changed, verified, passed, complete, honest, graded⟩

theorem policyOk_iff {i : GateInputs} : (evaluateCompletionGate i).policyOk = true ↔ Permitted i := by
  simp only [evaluateCompletionGate, Bool.and_eq_true, Bool.not_eq_true', and_assoc]
  constructor
  · rintro ⟨allowed, approved, unblocked⟩
    exact ⟨allowed, approved, unblocked⟩
  · rintro ⟨allowed, approved, unblocked⟩
    exact ⟨allowed, approved, unblocked⟩

/-- The assessment that leaves the gate is complete or a false green. -/
theorem gate_assessment (i : GateInputs) :
    (evaluateCompletionGate i).assessment.complete = (evaluateCompletionGate i).proofComplete ∧
      (evaluateCompletionGate i).assessment.falseGreen = !(evaluateCompletionGate i).proofComplete :=
  ⟨rfl, rfl⟩

end Onmc.Harness
