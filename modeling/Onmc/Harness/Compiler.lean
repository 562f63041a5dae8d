import Onmc.JsonText
import Onmc.PyText

/-! The deterministic compiler from a task to its execution graph. -/
namespace Onmc.Harness

/-- An exception: the name of its class and its `str()`. -/
structure Raised where
  className : String
  text : String
deriving DecidableEq

abbrev Outcome := Except Raised

def valueError (text : String) : Outcome α := .error ⟨"ValueError", text⟩

def raiseIf (condition : Prop) [Decidable condition] (text : String) : Outcome Unit :=
  if condition then valueError text else .ok ()

inductive NodeKind where
  | understand | retrieve | plan | claim | execute | verify | repair | prove | learn
deriving DecidableEq

def NodeKind.value : NodeKind → String
  | understand => "understand"
  | retrieve => "retrieve"
  | plan => "plan"
  | claim => "claim"
  | execute => "execute"
  | verify => "verify"
  | repair => "repair"
  | prove => "prove"
  | learn => "learn"

inductive RiskLevel where
  | low | medium | high | critical
deriving DecidableEq

def RiskLevel.value : RiskLevel → String
  | low => "low"
  | medium => "medium"
  | high => "high"
  | critical => "critical"

structure RetryPolicy where
  maxAttempts : Nat
  backoffSeconds : Num

structure NodePolicy where
  agent : String
  model : String
  tools : List String
  contextBudget : Nat
  verifier : String
  retry : RetryPolicy

structure TaskNode where
  kind : NodeKind
  objective : String
  dependencies : List NodeKind
  policy : NodePolicy

/-- `node_id=template.kind.value` -/
def TaskNode.nodeId (node : TaskNode) : String := node.kind.value

structure TaskDAG where
  task : String
  risk : RiskLevel
  nodes : List TaskNode

def strings (items : List String) : Json := .arr (items.map .str)

def NodePolicy.toDict (policy : NodePolicy) : Json :=
  .obj [("agent", .str policy.agent), ("context_budget", .num (.int policy.contextBudget)),
    ("model", .str policy.model), ("retry", .obj [("backoff_seconds", .num policy.retry.backoffSeconds),
      ("max_attempts", .num (.int policy.retry.maxAttempts))]),
    ("tools", strings policy.tools), ("verifier", .str policy.verifier)]

def TaskNode.toDict (node : TaskNode) : Json :=
  .obj [("dependencies", strings (node.dependencies.map NodeKind.value)), ("id", .str node.nodeId),
    ("kind", .str node.kind.value), ("objective", .str node.objective), ("policy", node.policy.toDict)]

def TaskDAG.toDict (dag : TaskDAG) : Json :=
  .obj [("nodes", .arr (dag.nodes.map TaskNode.toDict)), ("risk", .str dag.risk.value),
    ("schema_version", .str "1"), ("task", .str dag.task)]

/-- `_CANONICAL_NODES` -/
def canonicalNodes : List (NodeKind × List NodeKind × String) :=
  [(.understand, [], "Understand the task, constraints, and success criteria."),
    (.retrieve, [.understand], "Retrieve relevant code, context, prior decisions, and known dead ends."),
    (.plan, [.retrieve], "Plan the smallest dependency-ordered change."),
    (.claim, [.plan], "Claim the files and resources needed for execution."),
    (.execute, [.claim], "Execute the planned change within its scope."),
    (.verify, [.execute], "Run the configured verifier against the change."),
    (.repair, [.verify], "Repair failures surfaced by verification."),
    (.prove, [.verify, .repair], "Produce reproducible evidence that the success criteria are satisfied."),
    (.learn, [.prove], "Capture durable outcomes, decisions, and dead ends.")]

/-- `_RISK_ADJUSTMENTS`: the context budget's factor and the attempts added. -/
def riskAdjustment : RiskLevel → Nat × Nat × Nat
  | .low => (1, 1, 0)
  | .medium => (5, 4, 1)
  | .high => (3, 2, 2)
  | .critical => (2, 1, 3)

structure CompilerConfig where
  agent : String
  model : String
  contextBudget : Nat
  verifier : String

/-- `_require_nonempty` -/
def requireNonempty (value name : String) : Outcome Unit :=
  raiseIf (PyText.strip value = "") (name ++ " must not be empty")

/-- `_policy_for`, with the defaults of `CompilerConfig` for the tools and the retries. -/
def policyFor (config : CompilerConfig) (risk : RiskLevel) : Outcome NodePolicy := do
  let (numerator, denominator, extra) := riskAdjustment risk
  raiseIf (config.contextBudget = 0) "context_budget must be positive"
  let scaled := config.contextBudget * numerator / denominator
  requireNonempty config.agent "agent"
  requireNonempty config.model "model"
  raiseIf (scaled = 0) "context_budget must be positive"
  requireNonempty config.verifier "verifier"
  return ⟨config.agent, config.model, ["read", "search", "edit", "shell"], scaled, config.verifier,
    ⟨2 + extra, .float (.ofInt 1)⟩⟩

/-- `_normalize_task` -/
def normalizeTask (text : String) : Outcome String := do
  let normalized := PyText.join " " (PyText.words text)
  raiseIf (normalized = "") "task text must not be empty"
  return normalized

/-- `compile_task`. The canonical nodes pass the checks of `TaskDAG`. -/
def compileTask (text : String) (risk : RiskLevel) (config : CompilerConfig) : Outcome TaskDAG := do
  let task ← normalizeTask text
  let policy ← policyFor config risk
  return ⟨task, risk, canonicalNodes.map (fun (kind, dependencies, objective) =>
    ⟨kind, objective, dependencies, policy⟩)⟩

end Onmc.Harness
