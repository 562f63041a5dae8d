import Onmc.PyText
import Onmc.Runtime.Contracts

/-! Runtime graph contracts read back from parsed JSON: the `from_dict` constructors. -/
namespace Onmc.Runtime

/-- `_object` -/
def object (value : Json) (path : String) : Checked (List (String × Json)) :=
  match value with
  | .obj fields => .ok fields
  | _ => .error (path ++ " must be an object")

/-- `_array` -/
def array (value : Json) (path : String) : Checked (List Json) :=
  match value with
  | .arr items => .ok items
  | _ => .error (path ++ " must be an array")

/-- `sorted(names)` of a set, as an error message shows it. -/
def sortedNames (names : List String) : String :=
  "[" ++ ", ".intercalate (((PyText.fromKeys names).insertionSort (· ≤ ·)).map DurableRuntime.pyRepr) ++ "]"

/-- `_exact_fields` -/
def exactFields (data : List (String × Json)) (fields : List String) (path : String) : Checked Unit :=
  check ((Dict.keys data).all fields.contains && fields.all (Dict.keys data).contains)
    (path ++ " fields must be exactly " ++ sortedNames fields ++ ", got " ++ sortedNames (Dict.keys data))

/-- `data[key]`, after the fields were checked. -/
def field (data : List (String × Json)) (key : String) : Json := (data.lookup key).getD .null

/-- `_string` -/
def string (value : Json) (path : String) : Checked String :=
  match value with
  | .str text => .ok text
  | _ => .error (path ++ " must be a string")

/-- `_bool` -/
def bool (value : Json) (path : String) : Checked Bool :=
  match value with
  | .bool b => .ok b
  | _ => .error (path ++ " must be a bool")

/-- `_integer` -/
def integer (value : Json) (path : String) : Checked Int :=
  match value with
  | .num (.int n) => .ok n
  | _ => .error (path ++ " must be an integer")

/-- `_number` of a parsed value. -/
def numberOf (value : Json) (path : String) : Checked Num :=
  match value with
  | .num n => number n path
  | _ => .error (path ++ " must be a number")

/-- `None if value is None else read(value, path)` -/
def maybe (read : Json → String → Checked α) (value : Json) (path : String) : Checked (Option α) :=
  match value with
  | .null => .ok none
  | value => (read value path).map some

def itemAt (path : String) (index : Nat) : String := path ++ "[" ++ toString index ++ "]"

def stringItems (path : String) : Nat → List Json → Checked (List String)
  | _, [] => .ok []
  | index, value :: values => do
    let item ← match value with
      | .str text => if blank text then .error (itemAt path index ++ " must not be empty") else .ok text
      | _ => .error (itemAt path index ++ " must not be empty")
    return item :: (← stringItems path (index + 1) values)

/-- `_string_tuple` of a parsed value. -/
def stringTupleOf (allowEmpty : Bool) (value : Json) (path : String) : Checked (List String) :=
  match value with
  | .arr values => do
    let items ← stringItems path 0 values
    check (allowEmpty ∨ items ≠ []) (path ++ " must not be empty")
    check items.Nodup (path ++ " must contain unique values")
    return items
  | _ => .error (path ++ " must be a string array")

/-- Read each item of an array, which knows its index. -/
def readItems (read : Json → Nat → Checked α) : Nat → List Json → Checked (List α)
  | _, [] => .ok []
  | index, value :: values => do
    let item ← read value index
    return item :: (← readItems read (index + 1) values)

/-- `cls(...)`: the checks of `__post_init__`, kept with the value. -/
def construct {α : Type} (postInit : α → Checked Unit) (a : α) : Checked {a : α // postInit a = .ok ()} :=
  match h : postInit a with
  | .ok () => .ok ⟨a, h⟩
  | .error e => .error e

theorem construct_ok {α : Type} {postInit : α → Checked Unit} {a : α} (h : postInit a = .ok ()) :
    construct postInit a = .ok ⟨a, h⟩ := by
  unfold construct
  split
  · rfl
  · rename_i e he
    cases h.symm.trans he

def RetryPolicy.fromDict (payload : Json) (path : String) :
    Checked {p : RetryPolicy // p.postInit = .ok ()} := do
  let data ← object payload path
  exactFields data ["max_attempts", "backoff_seconds"] path
  let maxAttempts ← integer (field data "max_attempts") (path ++ ".max_attempts")
  let backoffSeconds ← numberOf (field data "backoff_seconds") (path ++ ".backoff_seconds")
  construct RetryPolicy.postInit ⟨maxAttempts, backoffSeconds⟩

def Budget.fromDict (payload : Json) (path : String) : Checked {b : Budget // b.postInit = .ok ()} := do
  let data ← object payload path
  exactFields data ["timeout_seconds", "max_cost_usd", "max_tokens"] path
  let timeoutSeconds ← numberOf (field data "timeout_seconds") (path ++ ".timeout_seconds")
  let maxCostUsd ← maybe numberOf (field data "max_cost_usd") (path ++ ".max_cost_usd")
  let maxTokens ← maybe integer (field data "max_tokens") (path ++ ".max_tokens")
  construct Budget.postInit ⟨timeoutSeconds, maxCostUsd, maxTokens⟩

def CapabilitySet.fromDict (payload : Json) (path : String) :
    Checked {c : CapabilitySet // c.postInit = .ok ()} := do
  let data ← object payload path
  exactFields data ["tools", "commands", "filesystem_write", "network", "secrets"] path
  let rawCommands ← array (field data "commands") (path ++ ".commands")
  let tools ← stringTupleOf true (field data "tools") (path ++ ".tools")
  let commands ← readItems (fun command index =>
    stringTupleOf false command (itemAt (path ++ ".commands") index)) 0 rawCommands
  let filesystemWrite ← bool (field data "filesystem_write") (path ++ ".filesystem_write")
  let network ← bool (field data "network") (path ++ ".network")
  let secrets ← stringTupleOf true (field data "secrets") (path ++ ".secrets")
  construct CapabilitySet.postInit ⟨tools, commands, filesystemWrite, network, secrets⟩

def EvidenceRef.fromDict (payload : Json) (path : String) : Checked EvidenceRef := do
  let data ← object payload path
  exactFields data ["id", "kind", "uri", "digest"] path
  let evidenceId ← string (field data "id") (path ++ ".id")
  let kind ← string (field data "kind") (path ++ ".kind")
  let uri ← string (field data "uri") (path ++ ".uri")
  let digest ← maybe string (field data "digest") (path ++ ".digest")
  let ref : EvidenceRef := ⟨evidenceId, kind, uri, digest⟩
  ref.postInit
  return ref

/-- A node whose parts went through their constructors, built by its own. -/
def NodeSpec.construct (node : NodeSpec)
    (budget : ∀ budget, node.budget = some budget → budget.postInit = .ok ())
    (retryPolicy : ∀ policy, node.retryPolicy = some policy → policy.postInit = .ok ())
    (capabilities : node.capabilities.postInit = .ok ()) : Checked {n : NodeSpec // n.Constructed} :=
  match h : node.postInit with
  | .ok () => .ok ⟨node, h, budget, retryPolicy, capabilities⟩
  | .error e => .error e

/-- The parts of a node, each of them checked. -/
structure NodeParts where
  nodeId : String
  kind : String
  objective : String
  completionCondition : Option String
  dependencies : List String
  sideEffecting : Bool
  approvalRequired : Bool
  idempotencyKey : Option String
  timeoutSeconds : Option Num
  budget : Option {b : Budget // b.postInit = .ok ()}
  retryPolicy : Option {p : RetryPolicy // p.postInit = .ok ()}
  capabilities : {c : CapabilitySet // c.postInit = .ok ()}
  metadata : List (String × Json)

namespace NodeParts

def node (parts : NodeParts) : NodeSpec where
  nodeId := parts.nodeId
  kind := parts.kind
  objective := parts.objective
  completionCondition := parts.completionCondition
  dependencies := parts.dependencies
  sideEffecting := parts.sideEffecting
  approvalRequired := parts.approvalRequired
  idempotencyKey := parts.idempotencyKey
  timeoutSeconds := parts.timeoutSeconds
  budget := parts.budget.map Subtype.val
  retryPolicy := parts.retryPolicy.map Subtype.val
  capabilities := parts.capabilities.val
  metadata := parts.metadata

def build (parts : NodeParts) : Checked {n : NodeSpec // n.Constructed} :=
  parts.node.construct
    (by
      intro budget h
      obtain ⟨b, _, rfl⟩ := Option.map_eq_some_iff.mp h
      exact b.property)
    (by
      intro policy h
      obtain ⟨p, _, rfl⟩ := Option.map_eq_some_iff.mp h
      exact p.property)
    parts.capabilities.property

end NodeParts

def nodeFields : List String :=
  ["id", "kind", "objective", "completion_condition", "dependencies", "side_effecting",
    "approval_required", "idempotency_key", "timeout_seconds", "budget", "retry_policy", "capabilities",
    "metadata"]

def NodeParts.fromDict (payload : Json) (index : Nat) : Checked NodeParts := do
  let path := itemAt "nodes" index
  let data ← object payload path
  exactFields data nodeFields path
  return {
    nodeId := ← string (field data "id") (path ++ ".id")
    kind := ← string (field data "kind") (path ++ ".kind")
    objective := ← string (field data "objective") (path ++ ".objective")
    completionCondition :=
      ← maybe string (field data "completion_condition") (path ++ ".completion_condition")
    dependencies := ← stringTupleOf true (field data "dependencies") (path ++ ".dependencies")
    sideEffecting := ← bool (field data "side_effecting") (path ++ ".side_effecting")
    approvalRequired := ← bool (field data "approval_required") (path ++ ".approval_required")
    idempotencyKey := ← maybe string (field data "idempotency_key") (path ++ ".idempotency_key")
    timeoutSeconds := ← maybe numberOf (field data "timeout_seconds") (path ++ ".timeout_seconds")
    budget := ← maybe Budget.fromDict (field data "budget") (path ++ ".budget")
    retryPolicy := ← maybe RetryPolicy.fromDict (field data "retry_policy") (path ++ ".retry_policy")
    capabilities := ← CapabilitySet.fromDict (field data "capabilities") (path ++ ".capabilities")
    metadata := ← object (field data "metadata") (path ++ ".metadata") }

def NodeSpec.fromDict (payload : Json) (index : Nat) : Checked {n : NodeSpec // n.Constructed} := do
  let parts ← NodeParts.fromDict payload index
  parts.build

/-- `RunSpec(...)` over constructed nodes. -/
def RunSpec.construct (runId task : String) (nodes : List {n : NodeSpec // n.Constructed})
    (evidence : List EvidenceRef) (metadata : List (String × Json)) (schema : String) : Checked RunSpec :=
  match h : runPostInit schema runId task (nodes.map Subtype.val) with
  | .ok () => .ok
    { runId, task, evidence, metadata, schema
      nodes := nodes.map Subtype.val
      constructed := by
        intro node hn
        obtain ⟨n, _, rfl⟩ := List.mem_map.mp hn
        exact n.property
      wellFormed := h }
  | .error e => .error e

def runFields : List String := ["schema_version", "run_id", "task", "nodes", "evidence", "metadata"]

def RunSpec.fromDict (payload : Json) : Checked RunSpec := do
  let data ← object payload "run spec"
  exactFields data runFields "run spec"
  let rawSchema ← string (field data "schema_version") "run spec.schema_version"
  check (rawSchema = schemaVersion) ("unsupported runtime schema: " ++ rawSchema)
  let runId ← string (field data "run_id") "run spec.run_id"
  let task ← string (field data "task") "run spec.task"
  let rawNodes ← array (field data "nodes") "run spec.nodes"
  let nodes ← readItems NodeSpec.fromDict 0 rawNodes
  let rawEvidence ← array (field data "evidence") "run spec.evidence"
  let evidence ← readItems (fun item index =>
    EvidenceRef.fromDict item (itemAt "run spec.evidence" index)) 0 rawEvidence
  let metadata ← object (field data "metadata") "run spec.metadata"
  RunSpec.construct runId task nodes evidence metadata rawSchema

end Onmc.Runtime
