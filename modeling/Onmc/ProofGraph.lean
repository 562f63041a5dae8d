import Onmc.DurableRuntime.Store
import Onmc.PyText

/-! Proof graphs: planned verifiers, the evidence collected for them, the pure evaluation of both
and the receipt of its verdict. -/
namespace Onmc.ProofGraph

inductive TaskKind where
  | bugfix | feature | refactor | maintenance
deriving DecidableEq

def TaskKind.value : TaskKind → String
  | bugfix => "bugfix"
  | feature => "feature"
  | refactor => "refactor"
  | maintenance => "maintenance"

inductive ClaimKind where
  | bugfix | behavior | regression | security | performance | ui
deriving DecidableEq

def ClaimKind.value : ClaimKind → String
  | bugfix => "bugfix"
  | behavior => "behavior"
  | regression => "regression"
  | security => "security"
  | performance => "performance"
  | ui => "ui"

inductive VerifierKind where
  | reproduce | targetedTests | regression | staticAnalysis | typeCheck | lint | security | browser
  | performance
deriving DecidableEq

def VerifierKind.value : VerifierKind → String
  | reproduce => "reproduce"
  | targetedTests => "targeted-tests"
  | regression => "regression"
  | staticAnalysis => "static-analysis"
  | typeCheck => "type-check"
  | lint => "lint"
  | security => "security"
  | browser => "browser"
  | performance => "performance"

/-- Observed process outcome, independent of what a verifier expects. -/
inductive Outcome where
  | passed | failed | skipped | error
deriving DecidableEq

def Outcome.value : Outcome → String
  | passed => "passed"
  | failed => "failed"
  | skipped => "skipped"
  | error => "error"

inductive EvidenceSource where
  | verifier | agent
deriving DecidableEq

def EvidenceSource.value : EvidenceSource → String
  | verifier => "verifier"
  | agent => "agent"

structure Claim where
  claimId : String
  statement : String
  kind : ClaimKind

structure TaskMetadata where
  taskId : String
  summary : String
  kind : TaskKind
  claims : List Claim

structure RiskMetadata where
  security : Bool
  browser : Bool
  performance : Bool

structure DiffMetadata where
  changedFiles : List String
  languages : List String

structure VerifierNode where
  verifierId : String
  kind : VerifierKind
  argv : List String
  expectedOutcome : Outcome
  dependencies : List String

/-- `ProofGraph` -/
structure Graph where
  task : TaskMetadata
  risk : RiskMetadata
  diff : DiffMetadata
  verifiers : List VerifierNode

structure Evidence where
  evidenceId : String
  verifierId : String
  outcome : Outcome
  artifactDigest : String
  claimIds : List String
  source : EvidenceSource

structure VerifierResult where
  verifierId : String
  outcome : Outcome
  evidenceIds : List String

structure ProofAssessment where
  complete : Bool
  falseGreen : Bool
  reasons : List String
deriving DecidableEq

/-- `_unique_by_id`: the first identifier that was seen before. -/
def uniqueById (label : String) : List String → List String → Except String Unit
  | _, [] => .ok ()
  | seen, identifier :: rest =>
    if seen.contains identifier then .error ("duplicate " ++ label ++ " id: " ++ identifier)
    else uniqueById label (identifier :: seen) rest

/-! The evaluation. A dict by id keeps the last entry of an id, at the place of the first. -/

def byId (idOf : α → String) (items : List α) : List (String × α) :=
  items.foldl (fun found item => Dict.setItem (idOf item) item found) []

/-- What one evidence id of a result adds: reasons, and the evidence when it counts. -/
def linkOne (evidence : List (String × Evidence)) (node : VerifierNode) (observed : VerifierResult)
    (evidenceId : String) : List String × List Evidence :=
  match evidence.lookup evidenceId with
  | none => ([node.verifierId ++ " references missing evidence " ++ evidenceId], [])
  | some item =>
    if item.verifierId ≠ node.verifierId then
      (["evidence " ++ evidenceId ++ " is linked to the wrong verifier"], [])
    else if item.outcome ≠ observed.outcome then
      (["evidence " ++ evidenceId ++ " contradicts its verifier result"], [])
    else if item.source ≠ .verifier then ([], [])
    else if PyText.strip item.artifactDigest = "" then
      (["evidence " ++ evidenceId ++ " has no artifact digest"], [])
    else ([], [item])

/-- What the loop over the verifiers has found so far. -/
structure Tally where
  reasons : List String
  satisfied : List (String × Bool)
  validEvidence : List (String × List Evidence)

def reasonIf (condition : Prop) [Decidable condition] (reason : String) : List String :=
  if condition then [reason] else []

/-- One round of the loop over `graph.verifiers`. -/
def tallyNode (results : List (String × VerifierResult)) (evidence : List (String × Evidence))
    (tally : Tally) (node : VerifierNode) : Tally :=
  let id := node.verifierId
  match results.lookup id with
  | none => ⟨tally.reasons ++ ["missing result for " ++ id], Dict.setItem id false tally.satisfied,
      Dict.setItem id [] tally.validEvidence⟩
  | some observed =>
    let matched := decide (observed.outcome = node.expectedOutcome)
    let links := observed.evidenceIds.map (linkOne evidence node observed)
    let linked := links.flatMap Prod.snd
    let dependencies := node.dependencies.all (fun item => (tally.satisfied.lookup item).getD false)
    ⟨tally.reasons ++
        reasonIf (matched = false) (id ++ " expected " ++ node.expectedOutcome.value ++ ", observed " ++
          observed.outcome.value) ++
        links.flatMap Prod.fst ++ reasonIf (linked = []) (id ++ " has no valid verifier evidence") ++
        reasonIf (matched ∧ dependencies = false) (id ++ " passed without satisfied dependencies"),
      Dict.setItem id (matched && !linked.isEmpty && dependencies) tally.satisfied,
      Dict.setItem id linked tally.validEvidence⟩

def orphanReasons (nodes : List (String × VerifierNode)) (results : List VerifierResult)
    (evidence : List Evidence) : List String :=
  results.flatMap (fun result => reasonIf ((nodes.lookup result.verifierId).isNone)
    ("orphan result for unknown verifier " ++ result.verifierId)) ++
  evidence.flatMap (fun item =>
    reasonIf ((nodes.lookup item.verifierId).isNone) ("orphan evidence " ++ item.evidenceId) ++
    reasonIf (item.source = .agent) "agent assertions are not verifier evidence")

def claimReasons (graph : Graph) (valid : List (String × List Evidence)) : List String :=
  graph.task.claims.flatMap fun claim => graph.verifiers.flatMap fun node =>
    reasonIf (((valid.lookup node.verifierId).getD []).all (fun item => !item.claimIds.contains claim.claimId))
      ("claim " ++ claim.claimId ++ " has no evidence from " ++ node.kind.value)

/-- The reasons that only a bug fix has to answer. -/
def bugfixReasons (graph : Graph) (results : List (String × VerifierResult))
    (valid : List (String × List Evidence)) : List String :=
  let reproduce := graph.verifiers.find? (fun node => node.kind = .reproduce)
  let targeted := graph.verifiers.find? (fun node => node.kind = .targetedTests)
  let outcomeOf (node : Option VerifierNode) : Option Outcome :=
    (node.bind (fun node => results.lookup node.verifierId)).map VerifierResult.outcome
  let digests (node : VerifierNode) := ((valid.lookup node.verifierId).getD []).map Evidence.artifactDigest
  reasonIf (outcomeOf reproduce ≠ some .failed) "bugfix lacks a demonstrated pre-fix failure" ++
  reasonIf (outcomeOf targeted ≠ some .passed) "bugfix lacks a demonstrated post-fix pass" ++
  match reproduce, targeted with
  | some pre, some post => reasonIf ((digests pre).any (digests post).contains)
      "pre-fix and post-fix evidence are identical"
  | _, _ => []

/-- `evaluate_proof`, an error being the text of its `ValueError`. -/
def evaluateProof (graph : Graph) (results : List VerifierResult) (evidence : List Evidence) :
    Except String ProofAssessment := do
  uniqueById "verifier result" [] (results.map VerifierResult.verifierId)
  uniqueById "evidence" [] (evidence.map Evidence.evidenceId)
  let nodes := byId VerifierNode.verifierId graph.verifiers
  let resultById := byId VerifierResult.verifierId results
  let tally := graph.verifiers.foldl (tallyNode resultById (byId Evidence.evidenceId evidence))
    ⟨orphanReasons nodes results evidence, [], []⟩
  let reasons := PyText.fromKeys (tally.reasons ++ claimReasons graph tally.validEvidence ++
    if graph.task.kind = .bugfix then bugfixReasons graph resultById tally.validEvidence else [])
  let complete := reasons.isEmpty && tally.satisfied.all Prod.snd &&
    tally.satisfied.length == nodes.length
  return ⟨complete, !complete, reasons⟩

/-! The receipt. -/

def strs (items : List String) : Json := .arr (items.map .str)

/-- `sorted(items, key=...)` -/
def sortedOn (key : α → String) (items : List α) : List α :=
  items.insertionSort (fun a b => key a ≤ key b)

def graphPayload (graph : Graph) : Json :=
  .obj [("task", .obj [("task_id", .str graph.task.taskId), ("summary", .str graph.task.summary),
      ("kind", .str graph.task.kind.value),
      ("claims", .arr ((sortedOn Claim.claimId graph.task.claims).map fun claim =>
        .obj [("claim_id", .str claim.claimId), ("statement", .str claim.statement),
          ("kind", .str claim.kind.value)]))]),
    ("risk", .obj [("security", .bool graph.risk.security), ("browser", .bool graph.risk.browser),
      ("performance", .bool graph.risk.performance)]),
    ("diff", .obj [("changed_files", strs (sortedOn id graph.diff.changedFiles)),
      ("languages", strs (sortedOn id graph.diff.languages))]),
    ("verifiers", .arr (graph.verifiers.map fun node =>
      .obj [("verifier_id", .str node.verifierId), ("kind", .str node.kind.value),
        ("argv", strs node.argv), ("expected_outcome", .str node.expectedOutcome.value),
        ("dependencies", strs node.dependencies)]))]

def assessmentPayload (assessment : ProofAssessment) : Json :=
  .obj [("complete", .bool assessment.complete), ("false_green", .bool assessment.falseGreen),
    ("reasons", strs assessment.reasons)]

def resultPayload (result : VerifierResult) : Json :=
  .obj [("verifier_id", .str result.verifierId), ("outcome", .str result.outcome.value),
    ("evidence_ids", strs (sortedOn id result.evidenceIds))]

def evidencePayload (item : Evidence) : Json :=
  .obj [("evidence_id", .str item.evidenceId), ("verifier_id", .str item.verifierId),
    ("outcome", .str item.outcome.value), ("artifact_digest", .str item.artifactDigest),
    ("claim_ids", strs (sortedOn id item.claimIds)), ("source", .str item.source.value)]

/-- `ProofReceipt.build(...).receipt_hash` -/
def receiptHash [Sha256] (graph : Graph) (assessment : ProofAssessment) (results : List VerifierResult)
    (evidence : List Evidence) : String :=
  Sha256.hexdigest (Json.dumps (.obj [("schema_version", .str "1"), ("graph", graphPayload graph),
    ("assessment", assessmentPayload assessment),
    ("results", .arr ((sortedOn VerifierResult.verifierId results).map resultPayload)),
    ("evidence", .arr ((sortedOn Evidence.evidenceId evidence).map evidencePayload))]))

/-- An assessment is a false green exactly when it is not complete. -/
theorem evaluateProof_falseGreen {graph : Graph} {results : List VerifierResult}
    {evidence : List Evidence} {assessment : ProofAssessment}
    (h : evaluateProof graph results evidence = .ok assessment) :
    assessment.falseGreen = !assessment.complete := by
  obtain ⟨_, _, h⟩ := Except.bind_ok.mp h
  obtain ⟨_, _, h⟩ := Except.bind_ok.mp h
  cases h
  rfl

end Onmc.ProofGraph
