import Onmc.Harness.Receipt
import Onmc.Shlex

/-! Typed contracts of `onmc run`: requests, plans and results. -/
namespace Onmc.Harness
open ProofGraph (ProofAssessment)
open Onmc.Runtime (Checked RunSpec NodeSpec NodeParts)

inductive HarnessStatus where
  | planned | denied | blocked | completed | failed
deriving DecidableEq

def HarnessStatus.value : HarnessStatus → String
  | planned => "planned"
  | denied => "denied"
  | blocked => "blocked"
  | completed => "completed"
  | failed => "failed"

inductive AgentName where
  | claude | codex | opencode
deriving DecidableEq

def AgentName.value : AgentName → String
  | claude => "claude"
  | codex => "codex"
  | opencode => "opencode"

inductive SandboxProviderName where
  | docker | harbor
deriving DecidableEq

def SandboxProviderName.value : SandboxProviderName → String
  | docker => "docker"
  | harbor => "harbor"

inductive BudgetMode where
  | tiny | standard | deep
deriving DecidableEq

/-- Validated inputs shared by plan-only and executing runs. A cost that is no number passes the
check of its sign. -/
structure RunRequest where
  task : String
  planOnly : Bool
  execute : Bool
  agent : AgentName
  model : String
  verifier : String
  maxIterations : Nat
  maxCostUsd : Option Num
  isolation : Bool
  sandbox : Bool
  sandboxProvider : SandboxProviderName
  sandboxImage : String
  risk : RiskLevel
  contextBudget : Nat
  budgetMode : BudgetMode
  resumeRunId : Option String
  exclusive : ¬ (planOnly = true ∧ execute = true)
  taskNonempty : PyText.strip task ≠ ""
  modelNonempty : PyText.strip model ≠ ""
  verifierNonempty : PyText.strip verifier ≠ ""
  iterationsPositive : 0 < maxIterations
  costNonnegative : ∀ cost, maxCostUsd = some cost → cost.lt (.int 0) = false
  budgetPositive : 0 < contextBudget
  imageNonempty : PyText.strip sandboxImage ≠ ""

/-- The same request, resuming a run. -/
def RunRequest.resuming (request : RunRequest) (runId : String) : RunRequest :=
  { request with resumeRunId := some runId }

structure ProofRequirement where
  verifierId : String
  argv : List String
  expectedOutcome : String
  claimIds : List String

def ProofRequirement.toDict (requirement : ProofRequirement) : Json :=
  .obj [("verifier_id", .str requirement.verifierId), ("argv", strings requirement.argv),
    ("expected_outcome", .str requirement.expectedOutcome), ("claim_ids", strings requirement.claimIds)]

structure PolicyDecisionRecord where
  capability : String
  allowed : Bool
  effect : String
  reason : String
  matchedRuleIds : List String

/-- The manifest of the sandbox a run is planned for, its plans as the sandbox package writes them. -/
structure HarnessSandboxManifest where
  requested : Bool
  enforced : Bool
  validated : Bool
  provider : String
  agentPlan : Option Json
  verifierPlan : Option Json
  agentCapabilities : Option Json
  verifierCapabilities : Option Json
  limitations : List String

namespace HarnessSandboxManifest

def toDict (manifest : HarnessSandboxManifest) : Json :=
  .obj [("schema_version", .str "1"), ("requested", .bool manifest.requested),
    ("enforced", .bool manifest.enforced), ("validated", .bool manifest.validated),
    ("provider", .str manifest.provider), ("agent_plan", .ofOption id manifest.agentPlan),
    ("verifier_plan", .ofOption id manifest.verifierPlan),
    ("capability_manifest", .obj [("agent", .ofOption id manifest.agentCapabilities),
      ("verifier", .ofOption id manifest.verifierCapabilities)]),
    ("limitations", strings manifest.limitations)]

/-- `validate_for_execution`, an error being the text of its `SandboxPlanError`. -/
def validateForExecution (manifest : HarnessSandboxManifest) : Except String Unit :=
  if manifest.requested = false then .error "sandbox was not requested"
  else if manifest.validated = false then .error "sandbox capability manifest is not validated"
  else if manifest.agentPlan.isNone ∨ manifest.agentCapabilities.isNone then
    .error "sandbox agent capability manifest is missing"
  else if manifest.verifierPlan.isNone ∨ manifest.verifierCapabilities.isNone then
    .error "sandbox verifier capability manifest is missing"
  else if manifest.provider = "harbor" then
    .error "Harbor sandbox is configuration-only for local autonomous execution"
  else if manifest.provider ≠ "docker" then
    .error ("sandbox provider " ++ DurableRuntime.pyRepr manifest.provider ++ " is not executable")
  else .ok ()

end HarnessSandboxManifest

/-- What the sandbox package contributes to a manifest. -/
structure SandboxParts where
  agentPlan : Json
  verifierPlan : Json
  agentCapabilities : Json
  verifierCapabilities : Json

/-- `harness_sandbox_manifest` -/
def harnessSandboxManifest (requested : Bool) (provider : SandboxProviderName) (parts : SandboxParts) :
    HarnessSandboxManifest :=
  if requested = false then
    ⟨false, false, false, "none", none, none, none, none, ["No sandbox provider requested for this run."]⟩
  else
    ⟨true, false, true, provider.value, some parts.agentPlan, some parts.verifierPlan,
      some parts.agentCapabilities, some parts.verifierCapabilities,
      ["Capability declarations were validated before execution.",
        "The plan remains enforced=false until a provider execution is observed.",
        "Verifier sandbox receives no model-provider secret by default."]⟩

/-- What a plan takes from the repository and the machine around it: the retrieved context, the
manifests that only describe, and the sandbox plans. -/
structure Surroundings where
  context : ContextFacts
  evidence : List Runtime.EvidenceRef
  contextSelection : Json
  isolationProfile : Json
  sandbox : SandboxParts
  capabilityManifest : Json
  environmentSnapshot : Json
  adapterCapability : Json
  root : String

/-- Deterministic, subprocess-free execution plan. -/
structure ExecutionPlan where
  runId : String
  dag : TaskDAG
  proofRequirements : List ProofRequirement
  policyDecisions : List PolicyDecisionRecord
  sandboxManifest : HarnessSandboxManifest
  statePath : String
  surroundings : Surroundings

/-- `state_path_for` -/
def statePathFor (root runId : String) : String := root ++ "/runs/" ++ runId

/-- Plan plus an honest execution and proof verdict. -/
structure HarnessResult where
  status : HarnessStatus
  plan : ExecutionPlan
  loopConverged : Bool := false
  proofComplete : Bool := false
  stopReason : String := "plan-only"
  proofReasons : List String := []
  resumed : Bool := false
  resumeRunId : Option String := none
  worktreePath : Option String := none
  verified : Bool := false
  stages : List StageRecord := []
  policyDecision : Option RunPolicyDecision := none
  receipt : Option HarnessRunReceipt := none
  iterations : Option Nat := none
  tokensUsed : Option Nat := none
  costUsd : Option Num := none

/-! The plan as the canonical runtime graph. -/

/-- `_node_has_side_effects` -/
def nodeHasSideEffects (kind : NodeKind) : Bool :=
  [.claim, .execute, .verify, .repair, .prove, .learn].contains kind

/-- `_capabilities_for` -/
def capabilitiesFor (kind : NodeKind) (tools : List String) (requirements : List ProofRequirement) :
    Runtime.CapabilitySet :=
  let commands := requirements.map ProofRequirement.argv
  if kind = .understand ∨ kind = .retrieve ∨ kind = .plan then ⟨tools, [], false, false, []⟩
  else if kind = .verify ∨ kind = .prove then ⟨tools, commands, false, false, []⟩
  else ⟨tools, commands, true, false, []⟩

/-- `_completion_condition_for` -/
def completionConditionFor (kind : NodeKind) (objective : String) (requirements : List ProofRequirement) :
    Option String :=
  if nodeHasSideEffects kind = false then none
  else if (kind = .verify ∨ kind = .prove) ∧ requirements ≠ [] then
    some ("Verifier command succeeds with digest-backed evidence: " ++
      PyText.join ", " (requirements.map (fun requirement => PyText.join " " requirement.argv)))
  else some ("Node objective has digest-backed completion evidence: " ++ objective)

namespace ExecutionPlan

/-- The metadata entries shared by the nodes and the run. -/
def manifests (plan : ExecutionPlan) : List (String × Json) :=
  [("adapter_capability", plan.surroundings.adapterCapability),
    ("isolation_profile", plan.surroundings.isolationProfile),
    ("sandbox_manifest", plan.sandboxManifest.toDict),
    ("context_selection", plan.surroundings.contextSelection),
    ("capability_manifest", plan.surroundings.capabilityManifest),
    ("environment_snapshot", plan.surroundings.environmentSnapshot)]

def timeoutSeconds : Num := .float (.ofInt 120)

/-- One node of the runtime graph. -/
def nodeSpec (plan : ExecutionPlan) (node : TaskNode) : Checked {n : NodeSpec // n.Constructed} := do
  let budget ← Runtime.construct Runtime.Budget.postInit
    ⟨timeoutSeconds, none, some node.policy.contextBudget⟩
  let retryPolicy ← Runtime.construct Runtime.RetryPolicy.postInit
    ⟨node.policy.retry.maxAttempts, node.policy.retry.backoffSeconds⟩
  let capabilities ← Runtime.construct Runtime.CapabilitySet.postInit
    (capabilitiesFor node.kind node.policy.tools plan.proofRequirements)
  let parts : NodeParts :=
    { nodeId := node.nodeId
      kind := node.kind.value
      objective := node.objective
      completionCondition := completionConditionFor node.kind node.objective plan.proofRequirements
      dependencies := node.dependencies.map NodeKind.value
      sideEffecting := nodeHasSideEffects node.kind
      approvalRequired := false
      idempotencyKey := some (plan.runId ++ ":node:" ++ node.nodeId)
      timeoutSeconds := some timeoutSeconds
      budget := some budget
      retryPolicy := some retryPolicy
      capabilities
      metadata := [("agent", .str node.policy.agent), ("model", .str node.policy.model)] ++
        plan.manifests ++ [("risk", .str plan.dag.risk.value), ("verifier", .str node.policy.verifier)] }
  parts.build

/-- `to_run_spec` -/
def toRunSpec (plan : ExecutionPlan) : Checked RunSpec := do
  plan.surroundings.evidence.forM Runtime.EvidenceRef.postInit
  let nodes ← plan.dag.nodes.mapM plan.nodeSpec
  RunSpec.construct plan.runId plan.dag.task nodes plan.surroundings.evidence
    ([("source", .str "harness_run.ExecutionPlan"), ("state_path", .str plan.statePath)] ++ plan.manifests)
    Runtime.schemaVersion

end ExecutionPlan

end Onmc.Harness
