import Onmc.DurableRuntime.Runs
import Onmc.Interact.System
import Onmc.Runtime.Contracts

/-! The native execution backend, as a program over the run store, the result files and the
handlers. Every request is one atomic step: a crash or another process may come between any two.
A node runs as a task of its own in every mode; the caller's own thread awaits it at once. -/
namespace Onmc.Runtime

open DurableRuntime Interact

/-- What the backend asks an exception: the classes it tests for. -/
inductive Family where
  | timeoutOrConnection | os | runtimeContract | other
deriving DecidableEq

/-- An exception out of a handler, with its `str()`. -/
structure HandlerError where
  family : Family
  text : String
deriving DecidableEq

inductive Fault where
  | store (e : Raised)
  | contract (message : String)
  | handler (e : HandlerError)
deriving DecidableEq

/-- `str(exc)` -/
def Fault.text : Fault → String
  | store e => e.message
  | contract message => message
  | handler e => e.text

/-- An exception, with the local `results` of `execute` once they are known. -/
structure Failure where
  fault : Fault
  results : Option (List NodeResult)

/-- Which method asks the store, where a statement about runs needs to know. -/
inductive Caller where
  | backend
  | scan (layer : List NodeSpec)
  | replay (result : NodeResult)

inductive Request where
  | load (caller : Caller)
  | events
  | createRun (nodeIds : List String) (key : String)
  | operate (caller : Caller) (op : Operation)
  | hasResult (nodeId : String)
  | readResult (nodeId : String)
  | writeResult (result : NodeResult)
  | readManifest
  | writeManifest (manifest : Json)
  | invoke (node : NodeSpec)

abbrev Request.Reply : Request → Type
  | load _ => Outcome RunSnapshot
  | events => Outcome (List Event)
  | createRun _ _ | operate _ _ => Outcome Value
  | hasResult _ => Bool
  | readResult _ => Option NodeResult
  | writeResult _ | writeManifest _ => Unit
  | readManifest => Option Json
  | invoke _ => Except HandlerError NodeResult

@[reducible] def backend : Interface where
  Request := Request
  Reply := Request.Reply
  Task := NodeSpec
  Value := NodeResult
  Failure := Failure

abbrev Code (α : Type) := Program backend α

def ask (request : Request) : Code request.Reply := Program.request (I := backend) request

def fail (fault : Fault) : Code α := .raise ⟨fault, none⟩

def ofOutcome : Outcome α → Code α
  | .ok value => .ret value
  | .error e => fail (.store e)

def ofChecked : Checked α → Code α
  | .ok value => .ret value
  | .error message => fail (.contract message)

/-- The local `results` when a step raises; a step inside that noted them before is right. -/
def noting (results : List NodeResult) (code : Code α) : Code α :=
  code.mapFailure (fun failure => { failure with results := failure.results.or (some results) })

def expect (view : Value → Option α) (outcome : Outcome Value) : Code α :=
  match outcome with
  | .error e => fail (.store e)
  | .ok value => match view value with
    | some a => .ret a
    | none => fail (.store ⟨.typeError, "unexpected type"⟩)

def snapshotOf : Value → Option RunSnapshot
  | .snapshot s => some s
  | _ => none

def leaseOf : Value → Option Lease
  | .lease lease => some lease
  | _ => none

def load (caller : Caller) : Code RunSnapshot := do
  let outcome ← ask (.load caller)
  ofOutcome outcome

def operate (caller : Caller) (op : Operation) : Code Unit := do
  let outcome ← ask (.operate caller op)
  ofOutcome (outcome.map fun _ => ())

/-- `snapshot.nodes[node_id]` -/
def nodeOf (snapshot : RunSnapshot) (nodeId : String) : Outcome NodeSnapshot :=
  match snapshot.nodes.lookup nodeId with
  | some node => .ok node
  | none => raise .keyError (pyRepr nodeId)

/-- `value or default` of an optional text -/
def orDefault (value : Option String) (default : String) : String :=
  match value with
  | some text => if text = "" then default else text
  | none => default

/-- `except InvalidTransitionError: return` -/
def swallowInvalid (code : Code Unit) : Code Unit := do
  let outcome ← code.attempt
  match outcome with
  | .ok () => .ret ()
  | .error failure => match failure.fault with
    | .store e => if e.kind = .invalidTransition then .ret () else .raise failure
    | _ => .raise failure

def backendName : String := "native"

def nodeKey (nodeId suffix : String) : String := "runtime:" ++ nodeId ++ ":" ++ suffix

/-! Retries. -/

/-- `marker in message` -/
def within (message marker : String) : Bool := decide (marker.toList <:+: message.toList)

/-- `classify_retry`: deterministic, dependency-free rules. -/
def classifyRetry (family : Family) (text : String) : RetryClass :=
  let message := text.toLower
  if family = .timeoutOrConnection then .transient
  else if ["429", "rate limit", "too many requests"].any (within message) then .rateLimit
  else if ["out of memory", "no space left", "resource busy"].any (within message) then .resource
  else if ["invalid", "unauthorized", "forbidden", "not found"].any (within message) then .permanent
  else if family = .os ∨
      ["timeout", "temporarily unavailable", "connection reset"].any (within message) then .transient
  else .unknown

def expectedKey (node : NodeSpec) : String := orDefault node.idempotencyKey ("runtime:" ++ node.nodeId)

/-- `_validate_node_result` -/
def validateNodeResult (node : NodeSpec) (result : NodeResult) : Checked Unit := do
  check (result.nodeId = node.nodeId) ("handler for " ++ pyRepr node.nodeId ++ " returned result for " ++
    pyRepr result.nodeId)
  check (result.idempotencyKey = expectedKey node)
    ("handler for " ++ pyRepr node.nodeId ++ " returned wrong idempotency key")
  check (¬ (node.sideEffecting ∧ result.status = .succeeded ∧ result.completionEvidence = false))
    ("successful side-effecting node " ++ pyRepr node.nodeId ++
      " requires digest-backed completion evidence")

/-- What one call of a handler comes to: its result, an exception to pass on, or a failure that may
be retried, with what is returned when it is not. -/
inductive Reaction where
  | give (result : NodeResult)
  | pass (fault : Fault)
  | retry (family : Family) (text : String) (last : Checked NodeResult)

def react (node : NodeSpec) : Except HandlerError NodeResult → Reaction
  | .error e =>
    if e.family = .runtimeContract then .pass (.handler e)
    else .retry e.family e.text
      (NodeResult.construct ⟨node.nodeId, .failed, expectedKey node, [], [], some e.text⟩)
  | .ok result =>
    match validateNodeResult node result with
    | .error message => .pass (.contract message)
    | .ok () =>
      if result.status ≠ .failed then .give result
      else .retry .other (orDefault result.error "failed") (.ok result)

/-- The end of `_record_retry_if_allowed`, with the attempts that the run has recorded. -/
def recordRetry (node : NodeSpec) (policy : RetryPolicy) (classification : RetryClass) (text : String)
    (retriesUsed : Nat) : Code Bool :=
  if policy.maxAttempts ≤ (retriesUsed : Int) + 1 then .ret false
  else do
    operate .backend (.recordRetry node.nodeId classification text policy.backoffSeconds
      policy.backoffSeconds (nodeKey node.nodeId ("retry:" ++ toString (retriesUsed + 1))))
    return true

/-- `_record_retry_if_allowed` -/
def recordRetryIfAllowed (node : NodeSpec) (family : Family) (text : String) : Code Bool :=
  match node.retryPolicy with
  | none => .ret false
  | some policy =>
    if classifyRetry family text = .permanent then .ret false
    else do
      let snapshot ← load .backend
      let current ← ofOutcome (nodeOf snapshot node.nodeId)
      recordRetry node policy (classifyRetry family text) text current.attempts

/-- The retry loop of `_run_node_with_retries`. Out of fuel it is still running. -/
def attempts : Nat → NodeSpec → Code NodeResult
  | 0, _ => .stall
  | fuel + 1, node => do
    let response ← ask (.invoke node)
    match react node response with
    | .give result => .ret result
    | .pass fault => fail fault
    | .retry family text last => do
      let again ← recordRetryIfAllowed node family text
      if again then attempts fuel node else ofChecked last

/-! Leases. -/

def leaseTtl (node : NodeSpec) : Num :=
  match node.timeoutSeconds, node.budget with
  | some timeout, _ => timeout
  | none, some budget => budget.timeoutSeconds
  | none, none => .float (.ofInt 300)

/-- Does an event acquire a lease of the node? -/
def acquiresLease (nodeId : String) (event : Event) : Bool :=
  event.eventType = EventKind.leaseAcquired.value ∧ (event.payload.get? "node_id").bind str? = some nodeId

/-- `_acquire_node_lease` -/
def acquireNodeLease (node : NodeSpec) : Code Lease := do
  let snapshot ← load .backend
  let current ← ofOutcome (nodeOf snapshot node.nodeId)
  match current.lease with
  | some active => .ret active
  | none => do
    let outcome ← ask .events
    let log ← ofOutcome outcome
    let value ← ask (.operate .backend (.acquireLease node.nodeId backendName (leaseTtl node)
      (nodeKey node.nodeId ("lease:" ++ toString (1 + log.countP (acquiresLease node.nodeId))))))
    expect leaseOf value

/-- `_release_lease`: a lease that has expired is left alone. -/
def releaseLease (caller : Caller) (nodeId token key : String) : Code Unit := do
  let outcome ← ask (.operate caller (.releaseLease nodeId token key))
  match outcome with
  | .ok _ => .ret ()
  | .error e => if e.kind = .leaseExpired then .ret () else fail (.store e)

/-- `_release_active_lease` -/
def releaseActiveLease (caller : Caller) (nodeId suffix : String) : Code Unit := do
  let snapshot ← load caller
  let current ← ofOutcome (nodeOf snapshot nodeId)
  match current.lease with
  | none => .ret ()
  | some lease => releaseLease caller nodeId lease.token (nodeKey nodeId ("lease-release:" ++ suffix))

/-- `_run_node_with_retries` -/
def runNodeWithRetries (fuel : Nat) (node : NodeSpec) : Code NodeResult := do
  let lease ← acquireNodeLease node
  let outcome ← (attempts fuel node).attempt
  releaseLease .backend node.nodeId lease.token (nodeKey node.nodeId ("lease-release:" ++ lease.token))
  Program.ofExcept outcome

/-! Ready nodes. -/

/-- `max_workers` and whether the backend was given a shared executor. -/
structure Workers where
  maxWorkers : Nat
  executor : Bool
  positive : 1 ≤ maxWorkers

def submit (node : NodeSpec) : Code Nat := .submit node .ret

def await (future : Nat) : Code (Except Failure NodeResult) := .await future .ret

def submitAll : List NodeSpec → Code (List (NodeSpec × Nat))
  | [] => .ret []
  | node :: nodes => do
    let future ← submit node
    let futures ← submitAll nodes
    return (node, future) :: futures

/-- `[(node, future.result()) ...]`: the first exception ends it. -/
def gather : List (NodeSpec × Nat) → Code (List (NodeSpec × NodeResult))
  | [] => .ret []
  | (node, future) :: futures => do
    let outcome ← await future
    let result ← Program.ofExcept outcome
    let results ← gather futures
    return (node, result) :: results

/-- The executor's own shutdown waits for every task before the first exception is passed on. -/
def settleAll : List (NodeSpec × Nat) → Code (List (NodeSpec × Except Failure NodeResult))
  | [] => .ret []
  | (node, future) :: futures => do
    let outcome ← await future
    let outcomes ← settleAll futures
    return (node, outcome) :: outcomes

def firstFailure : List (NodeSpec × Except Failure NodeResult) → Except Failure (List (NodeSpec × NodeResult))
  | [] => .ok []
  | (_, .error e) :: _ => .error e
  | (node, .ok result) :: outcomes =>
    match firstFailure outcomes with
    | .ok results => .ok ((node, result) :: results)
    | .error e => .error e

/-- One node after the other, up to the first that does not succeed. -/
def runInTurn : List NodeSpec → Code (List (NodeSpec × NodeResult))
  | [] => .ret []
  | node :: nodes => do
    let future ← submit node
    let outcome ← await future
    let result ← Program.ofExcept outcome
    if result.status ≠ .succeeded then .ret [(node, result)]
    else do
      let results ← runInTurn nodes
      return (node, result) :: results

/-- `_run_ready_nodes` -/
def runReadyNodes (workers : Workers) (nodes : List NodeSpec) : Code (List (NodeSpec × NodeResult)) :=
  if nodes = [] then .ret []
  else if workers.executor then do
    let futures ← submitAll nodes
    gather futures
  else if workers.maxWorkers = 1 ∨ nodes.length = 1 then runInTurn nodes
  else do
    let futures ← submitAll nodes
    let outcomes ← settleAll futures
    Program.ofExcept (firstFailure outcomes)

/-! Results. -/

/-- `_load_result` -/
def loadResult (nodeId : String) : Code NodeResult := do
  let stored ← ask (.readResult nodeId)
  match stored with
  | some result => .ret result
  | none => .ret ⟨nodeId, .skipped, "runtime:" ++ nodeId, [], [],
      some "completed node is missing its persisted result"⟩

def loadValidated (node : NodeSpec) : Code NodeResult := do
  let result ← loadResult node.nodeId
  ofChecked (validateNodeResult node result)
  return result

def loadResults : List NodeSpec → Code (List NodeResult)
  | [] => .ret []
  | node :: nodes => do
    let result ← loadValidated node
    let results ← loadResults nodes
    return result :: results

/-- `_write_result` -/
def writeResult (result : NodeResult) : Code Unit := do
  let _ ← ofChecked (jsonObject result.output "output")
  ask (.writeResult result)

section Runs

variable [Sha256] (spec : RunSpec)

/-- `_result_with_run_event`, less its trace event -/
def resultOf (status : RunResultStatus) (results : List NodeResult) (error : Option String) :
    Code RunResult := do
  let digest ← ofChecked spec.digest
  ofChecked (RunResult.construct ⟨spec.runId, status, results, backendName, digest, error⟩)

/-- `_terminal_result_from_node_result` -/
def terminalResult (results : List NodeResult) (result : NodeResult) : Code RunResult :=
  resultOf spec (if result.status = .skipped then .cancelled else .failed) results result.error

def cancelledResult (results : List NodeResult) : Code RunResult :=
  resultOf spec .cancelled results (some "run cancelled")

def interruptedResult (results : List NodeResult) (node : Option NodeSpec) : Code RunResult :=
  let target := match node with
    | none => "run"
    | some node => "node " ++ node.nodeId
  resultOf spec .interrupted results (some ("approval required for " ++ target))

/-- Does an event show the node approved? -/
def showsApproval (nodeId : String) (event : Event) : Bool :=
  event.eventType = EventKind.nodeTransition.value ∧
    (event.payload.get? "node_id").bind str? = some nodeId ∧
    (event.payload.get? "to").bind str? = some NodeState.running.value ∧
    (approverOf event.payload).isSome

/-- `_node_has_approval` -/
def nodeHasApproval (nodeId : String) : Code Bool := do
  let outcome ← ask .events
  let log ← ofOutcome outcome
  return log.any (showsApproval nodeId)

def cancelNodes (reason : String) : List NodeSpec → RunSnapshot → Code Unit
  | [], _ => .ret ()
  | node :: nodes, snapshot => do
    let current ← ofOutcome (nodeOf snapshot node.nodeId)
    if current.state = .succeeded ∨ current.state = .failed ∨ current.state = .cancelled then
      cancelNodes reason nodes snapshot
    else do
      operate .backend (.cancelNode node.nodeId reason (nodeKey node.nodeId "cancel-unfinished"))
      let snapshot ← load .backend
      cancelNodes reason nodes snapshot

/-- `_cancel_unfinished_nodes` -/
def cancelUnfinishedNodes (reason : String) : Code Unit := do
  let snapshot ← load .backend
  cancelNodes reason spec.topologicalOrder snapshot

def failNodes (reason : String) : List NodeSnapshot → Code Unit
  | [] => .ret ()
  | running :: nodes => do
    operate .backend (.failNode running.nodeId reason (nodeKey running.nodeId "exception"))
    failNodes reason nodes

/-- `_fail_running_node` -/
def failRunningNode (reason : String) : Code Unit := do
  let outcome ← ask (.load .backend)
  match outcome with
  | .error e => if e.kind = .runNotFound then .ret () else fail (.store e)
  | .ok snapshot =>
    if snapshot.state ≠ .running then .ret ()
    else swallowInvalid do
      failNodes reason ((snapshot.nodes.map Prod.snd).filter (fun node => node.state = .running))
      operate .backend (.fail reason "runtime:exception")

/-! Replaying a persisted result. -/

def resumeRun (result : NodeResult) (snapshot : RunSnapshot) : Code Unit :=
  if snapshot.state ≠ .running then operate (.replay result) (.resume "runtime:resume") else .ret ()

def reenterNode (result : NodeResult) (state : NodeState) : Code Unit :=
  if state = .pending then
    operate (.replay result) (.startNode result.nodeId (nodeKey result.nodeId "start"))
  else if state ≠ .running then
    operate (.replay result) (.resumeNode result.nodeId (nodeKey result.nodeId "resume"))
  else .ret ()

def closeNode (result : NodeResult) : Code Unit :=
  match result.status with
  | .succeeded =>
    operate (.replay result) (.completeNode result.nodeId (nodeKey result.nodeId "complete"))
  | .skipped => operate (.replay result)
      (.cancelNode result.nodeId (orDefault result.error "skipped") (nodeKey result.nodeId "skip"))
  | .failed => do
    operate (.replay result)
      (.failNode result.nodeId (orDefault result.error "failed") (nodeKey result.nodeId "fail"))
    operate (.replay result) (.fail (orDefault result.error "failed") "runtime:fail")

/-- `_apply_persisted_result` -/
def applyPersistedResult (result : NodeResult) : Code Unit := swallowInvalid do
  let snapshot ← load (.replay result)
  let node ← ofOutcome (nodeOf snapshot result.nodeId)
  releaseActiveLease (.replay result) result.nodeId "replay"
  resumeRun result snapshot
  reenterNode result node.state
  closeNode result

/-! Scanning a layer. -/

/-- What the scan of one node comes to. -/
inductive Scanned where
  | returned (result : RunResult)
  | passed (results : List NodeResult)
  | admitted

/-- What is left to do once a persisted result has been applied. -/
def afterReplay (result : NodeResult) (results : List NodeResult) : Code Scanned :=
  match result.status with
  | .succeeded => .ret (.passed results)
  | .skipped => do
    let reason := orDefault result.error (result.nodeId ++ " skipped")
    cancelUnfinishedNodes spec reason
    operate .backend (.cancel reason "runtime:cancel")
    let final ← terminalResult spec results result
    return .returned final
  | .failed => do
    let final ← terminalResult spec results result
    return .returned final

def replayNode (node : NodeSpec) (results : List NodeResult) : Code Scanned := do
  let result ← loadValidated node
  applyPersistedResult result
  noting (results ++ [result]) (afterReplay spec result (results ++ [result]))

/-- `any(current.nodes[dependency].state is not SUCCEEDED ...)` -/
def unsatisfied (current : RunSnapshot) : List String → Outcome Bool
  | [] => .ok false
  | dependency :: dependencies => do
    let node ← nodeOf current dependency
    if node.state ≠ .succeeded then .ok true else unsatisfied current dependencies

/-- Ask the operator for an approval and stop. -/
def interrupt (node : NodeSpec) (results : List NodeResult) : Code Scanned := do
  let reason := "approval required before " ++ node.nodeId
  operate .backend (.requestNodeApproval node.nodeId reason (nodeKey node.nodeId "approval-request"))
  operate .backend (.requestApproval reason (nodeKey node.nodeId "run-approval-request"))
  let final ← interruptedResult spec results (some node)
  return .returned final

/-- The approval gate. -/
def gateNode (node : NodeSpec) (results : List NodeResult) (state : NodeState) : Code Scanned :=
  if node.approvalRequired ∧ state = .running then do
    let approved ← nodeHasApproval node.nodeId
    if approved then .ret .admitted else interrupt spec node results
  else .ret .admitted

def startPending (node : NodeSpec) (state : NodeState) : Code NodeState :=
  if state = .pending then do
    operate .backend (.startNode node.nodeId (nodeKey node.nodeId "start"))
    return .running
  else .ret state

def admitNode (current : RunSnapshot) (node : NodeSpec) (results : List NodeResult) (state : NodeState) :
    Code Scanned := do
  let unmet ← ofOutcome (unsatisfied current node.dependencies)
  if unmet then fail (.contract ("node " ++ pyRepr node.nodeId ++ " has unsatisfied dependencies"))
  else do
    let state ← startPending node state
    gateNode spec node results state

/-- A node that is neither finished nor at its gate. -/
def enterNode (current : RunSnapshot) (node : NodeSpec) (results : List NodeResult) (state : NodeState) :
    Code Scanned := do
  let persisted ← ask (.hasResult node.nodeId)
  if persisted then replayNode spec node results else admitNode spec current node results state

def scanNode (current : RunSnapshot) (node : NodeSpec) (results : List NodeResult) : Code Scanned := do
  let found ← ofOutcome (nodeOf current node.nodeId)
  match found.state with
  | .succeeded => do
    let result ← loadValidated node
    return .passed (results ++ [result])
  | .cancelled => do
    let final ← cancelledResult spec results
    return .returned final
  | .awaitingApproval => do
    let final ← interruptedResult spec results (some node)
    return .returned final
  | state => enterNode spec current node results state

/-- Either the run's result, or the results so far and the nodes that are ready. -/
inductive Layer where
  | returned (result : RunResult)
  | ready (results : List NodeResult) (nodes : List NodeSpec)

def scanLayer (current : RunSnapshot) : List NodeSpec → List NodeResult → List NodeSpec → Code Layer
  | [], results, ready => .ret (.ready results ready)
  | node :: nodes, results, ready => do
    let scanned ← noting results (scanNode spec current node results)
    match scanned with
    | .returned result => .ret (.returned result)
    | .passed results => scanLayer current nodes results ready
    | .admitted => scanLayer current nodes results (ready ++ [node])

/-! Recording what a layer came to. -/

def recordNode (node : NodeSpec) (result : NodeResult) : Code Unit :=
  match result.status with
  | .succeeded => operate .backend (.completeNode node.nodeId (nodeKey node.nodeId "complete"))
  | .skipped => operate .backend
      (.cancelNode node.nodeId (orDefault result.error "skipped") (nodeKey node.nodeId "skip"))
  | .failed => operate .backend
      (.failNode node.nodeId (orDefault result.error "failed") (nodeKey node.nodeId "fail"))

/-- Failure outranks cancellation when a layer reports both. -/
def terminalAfter (terminal : Option NodeResult) (result : NodeResult) : Option NodeResult :=
  match result.status with
  | .succeeded => terminal
  | .skipped => terminal.or (some result)
  | .failed => some result

def recordLayer : List (NodeSpec × NodeResult) → List NodeResult → Option NodeResult →
    Code (List NodeResult × Option NodeResult)
  | [], results, terminal => .ret (results, terminal)
  | (node, result) :: rest, results, terminal => do
    noting results (writeResult result)
    noting (results ++ [result]) (recordNode node result)
    recordLayer rest (results ++ [result]) (terminalAfter terminal result)

def terminate (results : List NodeResult) (terminal : NodeResult) : Code RunResult := do
  let disposition := if terminal.status = .skipped then "skipped" else "failed"
  let reason := orDefault terminal.error (terminal.nodeId ++ " " ++ disposition)
  cancelUnfinishedNodes spec reason
  operate .backend (if terminal.status = .skipped then .cancel reason "runtime:cancel"
    else .fail reason "runtime:fail")
  terminalResult spec results terminal

/-! The run. -/

def finish (results : List NodeResult) : Code RunResult := do
  operate .backend (.complete "runtime:complete")
  resultOf spec .completed results none

def runLayers (workers : Workers) : List (List NodeSpec) → List NodeResult → Code RunResult
  | [], results => noting results (finish spec results)
  | layer :: layers, results => do
    let current ← noting results (load (.scan layer))
    let scanned ← scanLayer spec current layer results []
    match scanned with
    | .returned result => .ret result
    | .ready results ready => do
      let layerResults ← noting results (runReadyNodes workers ready)
      let recorded ← recordLayer layerResults results none
      match recorded.2 with
      | some terminal => noting recorded.1 (terminate spec recorded.1 terminal)
      | none => runLayers workers layers recorded.1

/-- The body of the `try` block. -/
def runGraph (workers : Workers) : Code RunResult := do
  let layers ← noting [] (ofChecked (dependencyLayers spec))
  runLayers spec workers layers []

/-- The `try` block and its `except Exception`. -/
def guarded (workers : Workers) : Code RunResult := do
  let outcome ← (runGraph spec workers).attempt
  match outcome with
  | .ok result => .ret result
  | .error failure => do
    failRunningNode failure.fault.text
    resultOf spec .failed (failure.results.getD []) (some failure.fault.text)

/-- `_write_spec_manifest` -/
def writeSpecManifest : Code Unit := do
  let digest ← ofChecked spec.digest
  let dict ← ofChecked spec.toDict
  ask (.writeManifest (.obj [("schema_version", .str spec.schema), ("run_id", .str spec.runId),
    ("spec_digest", .str digest), ("spec", dict)]))

/-- The fields of a stored manifest that a spec has to match. -/
def matchManifest (manifest : Json) (digest : String) : Checked Unit := do
  check (isDict manifest) "stored RunSpec manifest must be an object"
  check ((manifest.get? "run_id").bind str? = some spec.runId) "stored RunSpec manifest run_id mismatch"
  check ((manifest.get? "schema_version").bind str? = some spec.schema) "stored RunSpec schema mismatch"
  check ((manifest.get? "spec_digest").bind str? = some digest)
    "stored RunSpec digest does not match requested spec"

/-- `_validate_stored_spec_manifest` -/
def validateStoredSpecManifest : Code Unit := do
  let stored ← ask .readManifest
  match stored with
  | none => fail (.contract "stored run is missing its RunSpec manifest")
  | some manifest => do
    let digest ← ofChecked spec.digest
    ofChecked (matchManifest spec manifest digest)

def nodeIds : List String := spec.nodes.map NodeSpec.nodeId

/-- The run exists: it has to be a run of this spec. -/
def adopt (snapshot : RunSnapshot) : Code RunSnapshot :=
  if snapshot.nodes.map Prod.fst ≠ nodeIds spec then
    fail (.contract "stored run nodes do not match the RunSpec")
  else do
    validateStoredSpecManifest spec
    return snapshot

def create : Code RunSnapshot := do
  let outcome ← ask (.createRun (nodeIds spec) "runtime:create")
  let snapshot ← expect snapshotOf outcome
  writeSpecManifest spec
  return snapshot

/-- `_load_or_create` -/
def loadOrCreate (resume : Bool) : Code RunSnapshot := do
  let outcome ← ask (.load .backend)
  match outcome with
  | .ok snapshot => adopt spec snapshot
  | .error e => if e.kind = .runNotFound ∧ resume = false then create spec else fail (.store e)

def missingHandlers (handlers : List String) : List NodeSpec → Code (List String)
  | [] => .ret []
  | node :: nodes =>
    if handlers.contains node.nodeId then missingHandlers handlers nodes
    else do
      let persisted ← ask (.hasResult node.nodeId)
      let missing ← missingHandlers handlers nodes
      return if persisted then missing else node.nodeId :: missing

/-- What one call of `execute` is given besides the spec. -/
structure Execution where
  handlers : List String
  resume : Bool
  workers : Workers

def completedResult : Code RunResult := do
  let results ← loadResults spec.topologicalOrder
  resultOf spec .completed results none

/-- `execute` once the run is there. -/
def proceed (workers : Workers) (snapshot : RunSnapshot) : Code RunResult :=
  match snapshot.state with
  | .completed => completedResult spec
  | .awaitingApproval => interruptedResult spec [] none
  | .cancelled => cancelledResult spec []
  | .running => guarded spec workers
  | _ => do
    operate .backend (.start "runtime:start")
    guarded spec workers

/-- `execute` -/
def execute (e : Execution) : Code RunResult := do
  let missing ← missingHandlers e.handlers spec.topologicalOrder
  if missing ≠ [] then
    fail (.contract ("missing node handlers: [" ++ ", ".intercalate (missing.map pyRepr) ++ "]"))
  else do
    let snapshot ← loadOrCreate spec e.resume
    proceed spec e.workers snapshot

end Runs

/-! The world the backend runs in. -/

/-- The files of one run: the store's, the manifest, and the persisted results. -/
structure World where
  dir : RunDir
  manifest : Option Json
  results : List (String × NodeResult)

def World.absent : World := ⟨.absent, none, []⟩

/-- What the surroundings contribute to one request. -/
structure Oracle where
  clock : Clock
  environment : EnvironmentSnapshot
  git : GitSnapshot
  response : Except HandlerError NodeResult

def World.perform [Sha256] (runId : String) (oracle : Oracle) (w : World) :
    (request : Request) → World × request.Reply
  | .load _ =>
    let loaded := DurableRuntime.load runId w.dir
    ({ w with dir := loaded.1 }, loaded.2)
  | .events => (w, DurableRuntime.events runId w.dir)
  | .createRun nodeIds key =>
    let called := Call.perform runId oracle.clock w.dir
      (.create ⟨nodeIds, none, none, oracle.environment, oracle.git, key⟩)
    ({ w with dir := called.1 }, called.2)
  | .operate _ op =>
    let called := Call.perform runId oracle.clock w.dir (.run op)
    ({ w with dir := called.1 }, called.2)
  | .hasResult nodeId => (w, (w.results.lookup nodeId).isSome)
  | .readResult nodeId => (w, w.results.lookup nodeId)
  | .writeResult result => ({ w with results := Dict.setItem result.nodeId result w.results }, ())
  | .readManifest => (w, w.manifest)
  | .writeManifest manifest => ({ w with manifest := some manifest }, ())
  | .invoke _ => (w, oracle.response)

/-- Calls of `execute` for one spec, and operators who call the run store. -/
@[reducible] def runtime [Sha256] (spec : RunSpec) (fuel : Nat) : Semantics backend where
  World := World
  Oracle := Oracle
  Start := Execution
  Result := RunResult
  Act := Call × Clock
  perform := fun oracle request w => w.perform spec.runId oracle request
  main := execute spec
  body := runNodeWithRetries fuel
  outside := fun act w => { w with dir := (act.1.perform spec.runId act.2 w.dir).1 }

end Onmc.Runtime
