import Onmc.Harness.Completion
import Onmc.Runtime.Payloads

/-! The composed, tamper-evident receipt of one harness run: how it is built, and how one that lies
on disk is read and loaded. -/
namespace Onmc.Harness
open ProofGraph (ProofAssessment)
open Onmc.Runtime (Checked RunSpec)

variable [Sha256]

/-- `_digest` -/
def digest (value : Json) : String := Sha256.hexdigest (Json.dumps value)

/-- `runtime_contract_complete`: the digest is taken outside the `try`. -/
def runtimeContractComplete (contract : Json) (contractDigest : String) : Checked Bool :=
  match RunSpec.fromDict contract with
  | .error _ => .ok false
  | .ok spec => do
    let found ← spec.digest
    return found = contractDigest

/-- `compute_verified` -/
def computeVerified (completed : Bool) (proof : ProofAssessment) (policy : RunPolicyDecision)
    (stages : List StageRecord) (contract : Json) (contractDigest : String) : Checked Bool :=
  if completed && proof.complete && !proof.falseGreen && policy.allowed && !policy.approvalsRequired &&
      stagesComplete stages then runtimeContractComplete contract contractDigest
  else .ok false

structure HarnessRunReceipt where
  schemaVersion : String
  runId : String
  task : String
  status : String
  verified : Bool
  runtimeContract : Json
  runtimeContractDigest : String
  stages : List Json
  policy : Json
  proof : Json
  reportCoverage : Json
  receiptHash : String

namespace HarnessRunReceipt

/-- `_unsigned` -/
def unsigned (r : HarnessRunReceipt) : List (String × Json) :=
  [("schema_version", .str r.schemaVersion), ("run_id", .str r.runId), ("task", .str r.task),
    ("status", .str r.status), ("verified", .bool r.verified), ("runtime_contract", r.runtimeContract),
    ("runtime_contract_digest", .str r.runtimeContractDigest), ("stages", .arr r.stages),
    ("policy", r.policy), ("proof", r.proof), ("report_coverage", r.reportCoverage)]

def toDict (r : HarnessRunReceipt) : Json := .obj (r.unsigned ++ [("receipt_hash", .str r.receiptHash)])

/-- `HarnessRunReceipt.build` -/
def build (runId task status : String) (completed : Bool) (stages : List StageRecord) (contract : Json)
    (policy : RunPolicyDecision) (proof : ProofAssessment) (reportCoverage : Json) :
    Checked HarnessRunReceipt := do
  let spec ← RunSpec.fromDict contract
  let payload ← spec.toDict
  let contractDigest ← spec.digest
  let verified ← computeVerified completed proof policy stages payload contractDigest
  let receipt : HarnessRunReceipt :=
    { schemaVersion := "1", runId, task, status, verified, runtimeContract := payload,
      runtimeContractDigest := contractDigest, stages := stages.map StageRecord.toDict,
      policy := policy.toDict, proof := ProofGraph.assessmentPayload proof, reportCoverage,
      receiptHash := "" }
  return { receipt with receiptHash := digest (.obj receipt.unsigned) }

end HarnessRunReceipt

def receiptKeys : List String :=
  ["schema_version", "run_id", "task", "status", "verified", "runtime_contract",
    "runtime_contract_digest", "stages", "policy", "proof", "report_coverage"]

def sameKeys (found expected : List String) : Bool :=
  found.all expected.contains && expected.all found.contains

/-- `verify_harness_receipt` -/
def verifyHarnessReceipt (serialized : String) : Bool :=
  match Json.loads serialized with
  | some (.obj fields) =>
    match fields.lookup "receipt_hash" with
    | some (.str claimed) =>
      let raw := fields.filter (fun f => f.1 ≠ "receipt_hash")
      claimed.length = 64 &&
        (sameKeys (Dict.keys raw) receiptKeys ||
          sameKeys (Dict.keys raw) (receiptKeys.filter (· ≠ "report_coverage"))) &&
        digest (.obj raw) = claimed
    | _ => false
  | _ => false

/-- `_legacy_report_coverage` -/
def legacyReportCoverage : Json :=
  .obj [("schema_version", .str "1"), ("covered_count", .num (.int 0)), ("missing_count", .num (.int 1)),
    ("claim_ready", .bool false), ("fields", .arr [.obj [("name", .str "report_coverage"),
      ("covered", .bool false), ("source", .str "legacy receipt"),
      ("reason", .str "receipt predates report coverage manifests")]])]

/-- `_coerce_harness_receipt` -/
def coerceHarnessReceipt (raw : Json) : Option HarnessRunReceipt :=
  match raw.get? "schema_version", raw.get? "run_id", raw.get? "task", raw.get? "status",
      raw.get? "verified", raw.get? "runtime_contract", raw.get? "runtime_contract_digest",
      raw.get? "stages", raw.get? "policy", raw.get? "proof",
      (raw.get? "report_coverage").getD legacyReportCoverage, raw.get? "receipt_hash" with
  | some (.str schemaVersion), some (.str runId), some (.str task), some (.str status),
      some (.bool verified), some runtimeContract, some (.str runtimeContractDigest),
      some (.arr stages), some policy, some proof, reportCoverage, some (.str receiptHash) =>
    if DurableRuntime.isDict runtimeContract && DurableRuntime.isDict policy &&
        DurableRuntime.isDict proof && DurableRuntime.isDict reportCoverage &&
        stages.all DurableRuntime.isDict then
      some { schemaVersion, runId, task, status, verified, runtimeContract, runtimeContractDigest, stages,
             policy, proof, reportCoverage, receiptHash }
    else none
  | _, _, _, _, _, _, _, _, _, _, _, _ => none

/-- `stage.get(key)`, when it is a string. -/
def textAt (key : String) (stage : Json) : Option String := (stage.get? key).bind DurableRuntime.str?

/-- `_serialized_stages_complete` -/
def serializedStagesComplete (stages : List Json) : Bool :=
  decide (stages.map (textAt "name") = StageName.all.map (fun name => some name.value)) &&
    stages.all (fun stage => textAt "status" stage = some StageStatus.succeeded.value)

/-- `_serialized_runtime_contract_complete` -/
def serializedRuntimeContractComplete (contract : Json) (contractDigest runId task : String) :
    Checked Bool :=
  match RunSpec.fromDict contract with
  | .error _ => .ok false
  | .ok spec => do
    let found ← spec.digest
    return found = contractDigest && spec.runId = runId && spec.task = task

/-- The `harness` object of a receipt file; nothing where the file cannot be read or parsed. -/
def nestedReceipt (text : Option String) : Option (List (String × Json)) :=
  match (text.bind Json.loads).bind (·.get? "harness") with
  | some (.obj nested) => some nested
  | _ => none

/-- `read_harness_receipt`, from the text of the file at `harness_receipt_path`. -/
def readHarnessReceipt (text : Option String) (runId : String) : Checked (Option HarnessRunReceipt) :=
  match nestedReceipt text with
  | none => .ok none
  | some nested =>
    if verifyHarnessReceipt (Json.dumps (.obj nested)) then
      match coerceHarnessReceipt (.obj nested) with
      | none => .ok none
      | some receipt =>
        if receipt.runId ≠ runId then .ok none
        else do
          let complete ← serializedRuntimeContractComplete receipt.runtimeContract
            receipt.runtimeContractDigest receipt.runId receipt.task
          return if complete then some receipt else none
    else .ok none

/-- `load_harness_receipt` -/
def loadHarnessReceipt (text : Option String) (runId : String) : Checked (Option HarnessRunReceipt) := do
  match ← readHarnessReceipt text runId with
  | none => return none
  | some receipt =>
    return if receipt.verified && serializedStagesComplete receipt.stages then some receipt else none

end Onmc.Harness
