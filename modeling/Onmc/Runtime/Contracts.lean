import Onmc.DurableRuntime.Store

/-! Typed runtime graph contracts shared by the execution surfaces. -/
namespace Onmc.Runtime

def schemaVersion : String := "1"

/-- A check that raises `RuntimeContractError` with its message, or passes. -/
abbrev Checked (α : Type) := Except String α

def check (condition : Prop) [Decidable condition] (message : String) : Checked Unit :=
  if condition then .ok () else .error message

theorem check_ok {condition : Prop} [Decidable condition] {message : String} :
    check condition message = .ok () ↔ condition := by
  unfold check
  split
  · simp [*]
  · simp [*]

inductive NodeResultStatus where
  | succeeded | failed | skipped
deriving DecidableEq

inductive RunResultStatus where
  | completed | failed | cancelled | interrupted
deriving DecidableEq

/-- `str.isspace` of one character. -/
def isSpace (c : Char) : Bool :=
  (9 ≤ c.toNat && c.toNat ≤ 13) || (28 ≤ c.toNat && c.toNat ≤ 32) ||
    (0x2000 ≤ c.toNat && c.toNat ≤ 0x200A) ||
    [0x85, 0xA0, 0x1680, 0x2028, 0x2029, 0x202F, 0x205F, 0x3000].contains c.toNat

/-- `not value.strip()` -/
def blank (value : String) : Bool := value.toList.all isSpace

/-- `_nonempty` -/
def nonempty (value path : String) : Checked Unit :=
  check (blank value = false) (path ++ " must not be empty")

def nonemptyItems (path : String) : Nat → List String → Checked Unit
  | _, [] => .ok ()
  | index, item :: items => do
    nonempty item (path ++ "[" ++ toString index ++ "]")
    nonemptyItems path (index + 1) items

/-- `_string_tuple` -/
def stringTuple (value : List String) (path : String) (allowEmpty : Bool) : Checked Unit := do
  nonemptyItems path 0 value
  check (allowEmpty ∨ value ≠ []) (path ++ " must not be empty")
  check value.Nodup (path ++ " must contain unique values")

/-- `_number`: a finite float. -/
def number (value : Num) (path : String) : Checked Num :=
  match value.toFloat with
  | .float d => .ok (.float d)
  | _ => .error (path ++ " must be finite")

/-- `_positive_number` -/
def positiveNumber (value : Num) (path : String) : Checked Unit := do
  let finite ← number value path
  check (finite.le (.int 0) = false) (path ++ " must be positive")

/-- `_nonnegative_number` -/
def nonnegativeNumber (value : Num) (path : String) : Checked Unit := do
  let finite ← number value path
  check (finite.lt (.int 0) = false) (path ++ " must be non-negative")

/-- A check of an attribute that may be `None`. -/
def optional (test : α → Checked Unit) : Option α → Checked Unit
  | none => .ok ()
  | some value => test value

mutual
/-- Can `json.dumps(value, allow_nan=False)` write the value? -/
def finite : Json → Bool
  | .num .nan | .num (.infinity _) => false
  | .arr items => finiteItems items
  | .obj fields => finiteFields fields
  | _ => true
def finiteItems : List Json → Bool
  | [] => true
  | value :: items => finite value && finiteItems items
def finiteFields : List (String × Json) → Bool
  | [] => true
  | (_, value) :: fields => finite value && finiteFields fields
end

/-- `_json_object` -/
def jsonObject (fields : List (String × Json)) (path : String) : Checked Json :=
  if finiteFields fields then .ok (.obj fields) else .error (path ++ " must be JSON serializable")

def Json.strs (items : List String) : Json := .arr (items.map .str)

/-- Bounded retry policy declared for one runtime node. -/
structure RetryPolicy where
  maxAttempts : Int
  backoffSeconds : Num
deriving DecidableEq

namespace RetryPolicy

/-- `__post_init__` -/
def postInit (p : RetryPolicy) : Checked Unit := do
  check (1 ≤ p.maxAttempts) "max_attempts must be a positive integer"
  nonnegativeNumber p.backoffSeconds "backoff_seconds"

def toDict (p : RetryPolicy) : Checked Json := do
  let backoff ← number p.backoffSeconds "backoff_seconds"
  return .obj [("backoff_seconds", .num backoff), ("max_attempts", .num (.int p.maxAttempts))]

end RetryPolicy

/-- Per-node spend and time ceiling. -/
structure Budget where
  timeoutSeconds : Num
  maxCostUsd : Option Num
  maxTokens : Option Int
deriving DecidableEq

namespace Budget

def postInit (b : Budget) : Checked Unit := do
  positiveNumber b.timeoutSeconds "timeout_seconds"
  optional (nonnegativeNumber · "max_cost_usd") b.maxCostUsd
  optional (fun n => check (1 ≤ n) "max_tokens must be a positive integer") b.maxTokens

def toDict (b : Budget) : Checked Json := do
  let timeout ← number b.timeoutSeconds "timeout_seconds"
  return .obj [("max_cost_usd", .ofOption .num b.maxCostUsd),
    ("max_tokens", .ofOption (fun n => .num (.int n)) b.maxTokens), ("timeout_seconds", .num timeout)]

end Budget

/-- Declared effects a node may perform. -/
structure CapabilitySet where
  tools : List String
  commands : List (List String)
  filesystemWrite : Bool
  network : Bool
  secrets : List String
deriving DecidableEq

namespace CapabilitySet

def commandTuples : Nat → List (List String) → Checked Unit
  | _, [] => .ok ()
  | index, command :: commands => do
    stringTuple command ("commands[" ++ toString index ++ "]") false
    commandTuples (index + 1) commands

def postInit (c : CapabilitySet) : Checked Unit := do
  stringTuple c.tools "tools" true
  stringTuple c.secrets "secrets" true
  commandTuples 0 c.commands

def empty (c : CapabilitySet) : Bool :=
  c.tools.isEmpty && c.commands.isEmpty && !c.filesystemWrite && !c.network && c.secrets.isEmpty

def toDict (c : CapabilitySet) : Json :=
  .obj [("commands", .arr (c.commands.map Json.strs)), ("filesystem_write", .bool c.filesystemWrite),
    ("network", .bool c.network), ("secrets", Json.strs c.secrets), ("tools", Json.strs c.tools)]

end CapabilitySet

/-- Pointer to evidence used or produced by a runtime node. -/
structure EvidenceRef where
  evidenceId : String
  kind : String
  uri : String
  digest : Option String
deriving DecidableEq

namespace EvidenceRef

def postInit (e : EvidenceRef) : Checked Unit := do
  nonempty e.evidenceId "id"
  nonempty e.kind "kind"
  nonempty e.uri "uri"
  optional (nonempty · "digest") e.digest

def toDict (e : EvidenceRef) : Json :=
  .obj [("digest", .ofOption .str e.digest), ("id", .str e.evidenceId), ("kind", .str e.kind),
    ("uri", .str e.uri)]

end EvidenceRef

/-- One executable node in a canonical graph. -/
structure NodeSpec where
  nodeId : String
  kind : String
  objective : String
  completionCondition : Option String
  dependencies : List String
  sideEffecting : Bool
  approvalRequired : Bool
  idempotencyKey : Option String
  timeoutSeconds : Option Num
  budget : Option Budget
  retryPolicy : Option RetryPolicy
  capabilities : CapabilitySet
  metadata : List (String × Json)

namespace NodeSpec

/-- What a side-effecting node has to declare. -/
def declares (node : NodeSpec) : Checked Unit := do
  let needs (missing : Bool) (what : String) : Checked Unit :=
    check (missing = false) ("side-effecting node " ++ DurableRuntime.pyRepr node.nodeId ++ " requires " ++ what)
  needs node.idempotencyKey.isNone "idempotency_key"
  needs node.timeoutSeconds.isNone "timeout_seconds"
  needs node.budget.isNone "budget"
  needs node.retryPolicy.isNone "retry_policy"
  needs node.capabilities.empty "declared capabilities"
  needs node.completionCondition.isNone "completion_condition"

def postInit (node : NodeSpec) : Checked Unit := do
  nonempty node.nodeId "id"
  nonempty node.kind "kind"
  nonempty node.objective "objective"
  optional (nonempty · "completion_condition") node.completionCondition
  stringTuple node.dependencies "dependencies" true
  check (node.approvalRequired → node.sideEffecting)
    ("approval-required node " ++ DurableRuntime.pyRepr node.nodeId ++ " must be side-effecting")
  optional (nonempty · "idempotency_key") node.idempotencyKey
  optional (positiveNumber · "timeout_seconds") node.timeoutSeconds
  if node.sideEffecting then node.declares else .ok ()

/-- The node and its parts went through their constructors. -/
structure Constructed (node : NodeSpec) : Prop where
  self : node.postInit = .ok ()
  budget : ∀ budget, node.budget = some budget → budget.postInit = .ok ()
  retryPolicy : ∀ policy, node.retryPolicy = some policy → policy.postInit = .ok ()
  capabilities : node.capabilities.postInit = .ok ()

def toDict (node : NodeSpec) : Checked Json := do
  let budget ← node.budget.mapM Budget.toDict
  let metadata ← jsonObject node.metadata "metadata"
  let retryPolicy ← node.retryPolicy.mapM RetryPolicy.toDict
  return .obj [("budget", .ofOption id budget), ("capabilities", node.capabilities.toDict),
    ("completion_condition", .ofOption .str node.completionCondition),
    ("dependencies", Json.strs node.dependencies), ("id", .str node.nodeId),
    ("idempotency_key", .ofOption .str node.idempotencyKey), ("kind", .str node.kind),
    ("metadata", metadata), ("objective", .str node.objective),
    ("approval_required", .bool node.approvalRequired), ("retry_policy", .ofOption id retryPolicy),
    ("side_effecting", .bool node.sideEffecting), ("timeout_seconds", .ofOption .num node.timeoutSeconds)]

end NodeSpec

/-- Result emitted by one executed runtime node. -/
structure NodeResult where
  nodeId : String
  status : NodeResultStatus
  idempotencyKey : String
  output : List (String × Json)
  evidence : List EvidenceRef
  error : Option String

namespace NodeResult

def postInit (result : NodeResult) : Checked Unit := do
  nonempty result.nodeId "node_id"
  nonempty result.idempotencyKey "idempotency_key"
  optional (nonempty · "error") result.error

/-- `NodeResult(...)` -/
def construct (result : NodeResult) : Checked NodeResult := do
  result.postInit
  return result

/-- `item.kind == "completion" and item.digest` for some item of the evidence -/
def completionEvidence (result : NodeResult) : Bool :=
  result.evidence.any (fun item => item.kind = "completion" && (item.digest.getD "" != ""))

end NodeResult

/-! The graph. -/

def byId (nodes : List NodeSpec) (nodeId : String) : Option NodeSpec :=
  nodes.find? (fun node => node.nodeId = nodeId)

/-- The nodes that name a dependency, once for each time they do. -/
def dependentsOf (nodes : List NodeSpec) (dependency : String) : List String :=
  nodes.flatMap (fun node => (node.dependencies.filter (· = dependency)).map (fun _ => node.nodeId))

/-- One dependency of a node is done. The node is ready when it was the last. -/
def release (state : List (String × Int) × List String) (dependent : String) :
    List (String × Int) × List String :=
  let left := (state.1.lookup dependent).getD 0 - 1
  (Dict.setItem dependent left state.1, if left = 0 then state.2 ++ [dependent] else state.2)

def topologicalFrom (nodes : List NodeSpec) : Nat → List (String × Int) → List String → List NodeSpec
  | 0, _, _ => []
  | _ + 1, _, [] => []
  | fuel + 1, remaining, current :: ready =>
    let state := (dependentsOf nodes current).foldl release (remaining, ready)
    (byId nodes current).toList ++ topologicalFrom nodes fuel state.1 state.2

/-- `_topological`: every node is taken at most once, so as many rounds as nodes suffice. -/
def topological (nodes : List NodeSpec) : List NodeSpec :=
  let remaining := nodes.map (fun node => (node.nodeId, (node.dependencies.length : Int)))
  topologicalFrom nodes nodes.length remaining
    ((nodes.filter (fun node => node.dependencies.isEmpty)).map NodeSpec.nodeId)

/-- The dependency checks of one node. -/
def checkDependencies (known : List String) (node : NodeSpec) : Checked Unit := do
  let missing := node.dependencies.filter (fun dependency => !known.contains dependency)
  check (missing = []) ("node " ++ DurableRuntime.pyRepr node.nodeId ++ " depends on missing nodes: [" ++
    ", ".intercalate (missing.map DurableRuntime.pyRepr) ++ "]")
  check (node.nodeId ∉ node.dependencies)
    ("node " ++ DurableRuntime.pyRepr node.nodeId ++ " depends on itself")

/-- `_validate_graph` -/
def validateGraph (nodes : List NodeSpec) : Checked Unit := do
  let nodeIds := nodes.map NodeSpec.nodeId
  check nodeIds.Nodup "node ids must be unique"
  nodes.forM (checkDependencies nodeIds)
  check ((topological nodes).length = nodes.length) "runtime graph must be acyclic"

/-- `RunSpec.__post_init__` -/
def runPostInit (schema runId task : String) (nodes : List NodeSpec) : Checked Unit := do
  check (schema = schemaVersion) ("unsupported runtime schema: " ++ schema)
  nonempty runId "run_id"
  nonempty task "task"
  check (nodes ≠ []) "run spec must contain at least one node"
  validateGraph nodes

/-- Canonical graph to execute through any backend. -/
structure RunSpec where
  runId : String
  task : String
  nodes : List NodeSpec
  evidence : List EvidenceRef
  metadata : List (String × Json)
  schema : String
  constructed : ∀ node ∈ nodes, node.Constructed
  wellFormed : runPostInit schema runId task nodes = .ok ()

namespace RunSpec

def topologicalOrder (spec : RunSpec) : List NodeSpec := topological spec.nodes

def toDict (spec : RunSpec) : Checked Json := do
  let metadata ← jsonObject spec.metadata "metadata"
  let nodes ← spec.nodes.mapM NodeSpec.toDict
  return .obj [("evidence", .arr (spec.evidence.map EvidenceRef.toDict)), ("metadata", metadata),
    ("nodes", .arr nodes), ("run_id", .str spec.runId), ("schema_version", .str spec.schema),
    ("task", .str spec.task)]

def toJson (spec : RunSpec) : Checked String := do
  let dict ← spec.toDict
  return dict.dumpsAscii

def digest [Sha256] (spec : RunSpec) : Checked String := do
  let text ← spec.toJson
  return Sha256.hexdigest text

end RunSpec

/-- Terminal result from one runtime backend execution. -/
structure RunResult where
  runId : String
  status : RunResultStatus
  results : List NodeResult
  backend : String
  specDigest : String
  error : Option String

def RunResult.construct (result : RunResult) : Checked RunResult := do
  nonempty result.runId "run_id"
  nonempty result.backend "backend"
  nonempty result.specDigest "spec_digest"
  optional (nonempty · "error") result.error
  return result

/-! Dependency-aware fan-out. -/

/-- The rounds of `dependency_layers`: in each, the nodes whose dependencies are done. -/
def layersFrom : Nat → List String → List NodeSpec → Checked (List (List NodeSpec))
  | _, _, [] => .ok []
  | 0, _, _ :: _ => .error "runtime graph has no dependency-ready nodes"
  | fuel + 1, completed, node :: nodes =>
    let remaining := node :: nodes
    let ready := remaining.filter (fun node => node.dependencies.all completed.contains)
    if ready = [] then .error "runtime graph has no dependency-ready nodes"
    else do
      let layers ← layersFrom fuel (completed ++ ready.map NodeSpec.nodeId)
        (remaining.filter (fun node => !node.dependencies.all completed.contains))
      return ready :: layers

/-- `dependency_layers`: each round takes a node, so as many rounds as nodes suffice. -/
def dependencyLayers (spec : RunSpec) : Checked (List (List NodeSpec)) :=
  layersFrom spec.nodes.length [] spec.nodes

end Onmc.Runtime
