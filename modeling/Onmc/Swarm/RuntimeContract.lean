import Onmc.Runtime.Payloads
import Onmc.Search
import Onmc.Shlex

/-! Runtime contract for swarm fan-out and fan-in manifests. -/
namespace Onmc.Swarm

open Onmc.Runtime (Budget CapabilitySet Checked NodeParts NodeSpec RetryPolicy RunSpec byId check)
open Onmc.DurableRuntime (pyRepr)

/-- Minimal unit shape needed to compile a swarm into a runtime graph. -/
structure SwarmContractUnit where
  unitId : String
  goal : String
  verifyCommand : Option String
  allowedPaths : List String
  protectedPaths : List String
  dependencies : List String

/-- The arguments that the nodes of one swarm share. -/
structure SwarmConfig where
  swarmId : String
  agent : String
  mode : String
  concurrency : Int
  maxCostUsd : Option Num
  maxTokens : Option Int
  timeoutSeconds : Num

/-- `text[:160]` -/
def clipped (text : String) : String := String.ofList (text.toList.take 160)

def verifyCommands : Option String → Checked (List (List String))
  | none | some "" => .ok []
  | some command => do
    let argv ← Shlex.split command
    return if argv = [] then [] else [argv]

/-- `_unit_capabilities` -/
def unitCapabilities (agent : String) (verifyCommand : Option String) : Checked CapabilitySet := do
  let commands ← verifyCommands verifyCommand
  return ⟨[agent], commands, true, false, []⟩

def unitNode (config : SwarmConfig) (unit : SwarmContractUnit) : Checked {n : NodeSpec // n.Constructed} := do
  let budget ← Runtime.construct Budget.postInit ⟨config.timeoutSeconds, config.maxCostUsd, config.maxTokens⟩
  let retryPolicy ← Runtime.construct RetryPolicy.postInit ⟨1, .float (.ofInt 0)⟩
  let capabilities ← unitCapabilities config.agent unit.verifyCommand
  let capabilities ← Runtime.construct CapabilitySet.postInit capabilities
  let parts : NodeParts :=
    { nodeId := unit.unitId
      kind := "swarm-unit"
      objective := unit.goal
      completionCondition :=
        some (unit.unitId ++ " records a receipt-backed terminal status for: " ++ clipped unit.goal)
      dependencies := unit.dependencies
      sideEffecting := true
      approvalRequired := false
      idempotencyKey := some (config.swarmId ++ ":unit:" ++ unit.unitId)
      timeoutSeconds := some config.timeoutSeconds
      budget := some budget
      retryPolicy := some retryPolicy
      capabilities
      metadata := [("agent", .str config.agent), ("allowed_paths", Runtime.Json.strs unit.allowedPaths),
        ("execution_control", .str (if config.mode = "inline" then "external-ledger" else "onmc-runtime")),
        ("mode", .str config.mode), ("protected_paths", Runtime.Json.strs unit.protectedPaths),
        ("swarm_id", .str config.swarmId), ("verify_command", .ofOption .str unit.verifyCommand)] }
  parts.build

def fanInNode (config : SwarmConfig) (units : List SwarmContractUnit) : Checked {n : NodeSpec // n.Constructed} := do
  let budget ← Runtime.construct Budget.postInit ⟨.float (.ofInt 60), none, none⟩
  let retryPolicy ← Runtime.construct RetryPolicy.postInit ⟨1, .float (.ofInt 0)⟩
  let capabilities ← Runtime.construct CapabilitySet.postInit ⟨["swarm-ledger"], [], true, false, []⟩
  let parts : NodeParts :=
    { nodeId := "fan-in"
      kind := "swarm-fan-in"
      objective := "Integrate unit receipts into the swarm manifest."
      completionCondition := some
        "All swarm units have terminal receipt-backed status and aggregate stop_reason is recorded."
      dependencies := units.map SwarmContractUnit.unitId
      sideEffecting := true
      approvalRequired := false
      idempotencyKey := some (config.swarmId ++ ":fan-in")
      timeoutSeconds := some (.float (.ofInt 60))
      budget := some budget
      retryPolicy := some retryPolicy
      capabilities
      metadata := [("concurrency", .num (.int config.concurrency)), ("mode", .str config.mode),
        ("swarm_id", .str config.swarmId), ("units", .num (.int units.length))] }
  parts.build

/-! Which units the graph puts in order. -/

/-- As many rounds as the stack of `_depends_on` can take. -/
def rounds (nodes : List NodeSpec) : Nat := 2 * (nodes.flatMap NodeSpec.dependencies).length + 1

/-- `by_id[node_id].dependencies`, the last of them first. -/
def stacked (nodes : List NodeSpec) (nodeId : String) : Option (List String) :=
  (byId nodes nodeId).map fun node => node.dependencies.reverse

/-- `_depends_on`; nothing where it raises for a missing node. -/
def dependsOn (nodes : List NodeSpec) (nodeId dependencyId : String) : Option Bool :=
  match stacked nodes nodeId with
  | none => none
  | some pending => Search.search (stacked nodes) (· = dependencyId) (rounds nodes) pending []

/-- The patterns that two units both claim. -/
def claimOverlap (left right : SwarmContractUnit) : List String :=
  (left.allowedPaths.eraseDups.filter right.allowedPaths.contains).insertionSort (· ≤ ·)

def pyList (items : List String) : String := "[" ++ ", ".intercalate (items.map pyRepr) ++ "]"

/-- The check of `_validate_file_claim_order` on two units. -/
def claimOrder (nodes : List NodeSpec) (left right : SwarmContractUnit) : Checked Unit :=
  if claimOverlap left right = [] then .ok ()
  else
    match dependsOn nodes left.unitId right.unitId, dependsOn nodes right.unitId left.unitId with
    | some true, _ => .ok ()
    | some false, some true => .ok ()
    | some false, some false => .error ("overlapping file claims require an explicit dependency: " ++
        pyRepr left.unitId ++ " and " ++ pyRepr right.unitId ++ " both claim " ++ pyList (claimOverlap left right))
    | _, _ => .error "KeyError"

/-- `_validate_file_claim_order` -/
def validateFileClaimOrder (nodes : List NodeSpec) : List SwarmContractUnit → Checked Unit
  | [] => .ok ()
  | left :: units =>
    if left.allowedPaths = [] then validateFileClaimOrder nodes units
    else do
      units.forM (claimOrder nodes left)
      validateFileClaimOrder nodes units

/-- Compile one swarm manifest into a runtime graph. -/
def buildSwarmRunSpec (config : SwarmConfig) (units : List SwarmContractUnit) : Checked RunSpec := do
  let unitNodes ← units.mapM (unitNode config)
  let fanIn ← fanInNode config units
  let spec ← RunSpec.construct ("swarm-" ++ config.swarmId)
    ("Execute " ++ toString units.length ++ " swarm unit(s) with bounded fan-out and fan-in.")
    (unitNodes ++ [fanIn]) []
    [("concurrency", .num (.int config.concurrency)), ("mode", .str config.mode),
      ("source", .str "swarm.runtime_contract"), ("swarm_id", .str config.swarmId)] Runtime.schemaVersion
  validateFileClaimOrder spec.nodes units
  return spec

end Onmc.Swarm
