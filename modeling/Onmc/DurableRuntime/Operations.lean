import Onmc.DurableRuntime.Store

/-! The public operations of the store. Each checks its arguments, loads the run under its lock,
and either returns for a repeated idempotency key or appends one event. -/
namespace Onmc.DurableRuntime

variable [Sha256]

inductive Value where
  | snapshot (s : RunSnapshot)
  | lease (lease : Lease)
  | retry (retry : RetryMetadata)

/-- What an operation settles on once it has read the run. -/
inductive Verdict where
  | done (value : Value)
  | append (change : Change)

/-- The private methods behind the public operations, with their arguments. -/
inductive Command where
  | transitionRun (target : RunState) (reason approvedBy : Option String)
  | transitionNode (nodeId : String) (target : NodeState) (reason approvedBy : Option String)
  | acquireLease (nodeId owner : String) (ttlSeconds : Num)
  | heartbeat (nodeId token : String) (ttlSeconds : Num)
  | releaseLease (nodeId token : String)
  | expireLeases
  | recordRetry (nodeId : String) (classification : RetryClass) (reason : String)
      (baseDelay maxDelay : Num)

inductive Operation where
  | start (key : String)
  | pause (reason key : String)
  | wait (reason key : String)
  | requestApproval (reason key : String)
  | approve (approvedBy key : String)
  | resume (key : String)
  | complete (key : String)
  | fail (reason key : String)
  | cancel (reason key : String)
  | startNode (nodeId key : String)
  | pauseNode (nodeId reason key : String)
  | waitNode (nodeId reason key : String)
  | requestNodeApproval (nodeId reason key : String)
  | approveNode (nodeId approvedBy key : String)
  | resumeNode (nodeId key : String)
  | completeNode (nodeId key : String)
  | failNode (nodeId reason key : String)
  | cancelNode (nodeId reason key : String)
  | acquireLease (nodeId owner : String) (ttlSeconds : Num) (key : String)
  | heartbeat (nodeId token : String) (ttlSeconds : Num) (key : String)
  | releaseLease (nodeId token key : String)
  | expireLeases (key : String)
  | recordRetry (nodeId : String) (classification : RetryClass) (reason : String)
      (baseDelay maxDelay : Num) (key : String)

namespace Operation

def key : Operation → String
  | start k | pause _ k | wait _ k | requestApproval _ k | approve _ k | resume k | complete k
  | fail _ k | cancel _ k | startNode _ k | pauseNode _ _ k | waitNode _ _ k
  | requestNodeApproval _ _ k | approveNode _ _ k | resumeNode _ k | completeNode _ k
  | failNode _ _ k | cancelNode _ _ k | acquireLease _ _ _ k | heartbeat _ _ _ k
  | releaseLease _ _ k | expireLeases k | recordRetry _ _ _ _ _ k => k

def command : Operation → Command
  | start _ => .transitionRun .running none none
  | pause reason _ => .transitionRun .paused (some reason) none
  | wait reason _ => .transitionRun .waiting (some reason) none
  | requestApproval reason _ => .transitionRun .awaitingApproval (some reason) none
  | approve approvedBy _ => .transitionRun .running none (some approvedBy)
  | resume _ => .transitionRun .running none none
  | complete _ => .transitionRun .completed none none
  | fail reason _ => .transitionRun .failed (some reason) none
  | cancel reason _ => .transitionRun .cancelled (some reason) none
  | startNode nodeId _ => .transitionNode nodeId .running none none
  | pauseNode nodeId reason _ => .transitionNode nodeId .paused (some reason) none
  | waitNode nodeId reason _ => .transitionNode nodeId .waiting (some reason) none
  | requestNodeApproval nodeId reason _ => .transitionNode nodeId .awaitingApproval (some reason) none
  | approveNode nodeId approvedBy _ => .transitionNode nodeId .running none (some approvedBy)
  | resumeNode nodeId _ => .transitionNode nodeId .running none none
  | completeNode nodeId _ => .transitionNode nodeId .succeeded none none
  | failNode nodeId reason _ => .transitionNode nodeId .failed (some reason) none
  | cancelNode nodeId reason _ => .transitionNode nodeId .cancelled (some reason) none
  | acquireLease nodeId owner ttlSeconds _ => .acquireLease nodeId owner ttlSeconds
  | heartbeat nodeId token ttlSeconds _ => .heartbeat nodeId token ttlSeconds
  | releaseLease nodeId token _ => .releaseLease nodeId token
  | expireLeases _ => .expireLeases
  | recordRetry nodeId classification reason baseDelay maxDelay _ =>
    .recordRetry nodeId classification reason baseDelay maxDelay

def validateTtl (ttlSeconds : Num) : Outcome Unit :=
  raiseIf (ttlSeconds.le (.int 0)) .valueError "ttl_seconds must be positive"

/-- The checks an operation makes before it takes the lock. -/
def validate : Operation → Outcome Unit
  | approve approvedBy _ | approveNode _ approvedBy _ =>
    raiseIf (approvedBy = "") .valueError "approved_by must not be empty"
  | acquireLease _ owner ttlSeconds _ =>
    do
      raiseIf (owner = "") .valueError "owner must not be empty"
      validateTtl ttlSeconds
  | heartbeat _ _ ttlSeconds _ => validateTtl ttlSeconds
  | recordRetry _ _ _ baseDelay maxDelay _ =>
    raiseIf (baseDelay.lt (.int 0) ∨ maxDelay.lt baseDelay) .valueError
      "retry delays must satisfy 0 <= base <= max"
  | _ => .ok ()

end Operation

def checkIdempotency (snapshot : RunSnapshot) (key fingerprint : String) : Outcome Bool :=
  if key = "" then emptyKey
  else match snapshot.idempotency.lookup key with
  | none => .ok false
  | some existing =>
    if existing ≠ fingerprint then
      raise .idempotencyConflict
        ("idempotency key " ++ pyRepr key ++ " was used for another operation")
    else .ok true

/-- `_node` -/
def findNode (snapshot : RunSnapshot) (nodeId : String) : Outcome NodeSnapshot :=
  match snapshot.nodes.lookup nodeId with
  | some node => .ok node
  | none => raise .keyError (pyRepr ("unknown node " ++ pyRepr nodeId))

/-- The days that `timedelta(seconds=...)` is limited to. -/
def maxDays : Int := 999999999

/-- `now + timedelta(seconds=seconds)` -/
def later (now : DateTime) (seconds : Num) : Outcome DateTime :=
  match seconds.decimal? with
  | none =>
    if seconds = .nan then raise .valueError "cannot convert float NaN to integer"
    else raise .overflowError "cannot convert float infinity to integer"
  | some d =>
    let days := DateTime.microsOf d / 86400000000
    if days < -maxDays ∨ maxDays < days then
      raise .overflowError ("days=" ++ toString days ++ "; must have magnitude <= 999999999")
    else match now.addSeconds seconds with
    | some t => .ok t
    | none => raise .overflowError "date value out of range"

def transitionRun (s : RunSnapshot) (target : RunState) (reason approvedBy : Option String)
    (key : String) : Outcome Verdict := do
  let change : Change := .runTransition s.state target reason approvedBy
  if ← checkIdempotency s key change.fingerprint then return .done (.snapshot s)
  raiseIf (target ∉ runTransitions s.state) .invalidTransition
    ("run cannot transition from " ++ s.state.value ++ " to " ++ target.value)
  raiseIf (approvedBy ≠ none ∧ s.state ≠ .awaitingApproval) .invalidTransition
    "run is not awaiting approval"
  return .append change

def transitionNode (s : RunSnapshot) (nodeId : String) (target : NodeState)
    (reason approvedBy : Option String) (key : String) : Outcome Verdict := do
  let node ← findNode s nodeId
  let change : Change := .nodeTransition nodeId node.state target reason approvedBy
  if ← checkIdempotency s key change.fingerprint then return .done (.snapshot s)
  raiseIf (target ∉ nodeTransitions node.state) .invalidTransition
    ("node " ++ pyRepr nodeId ++ " cannot transition from " ++ node.state.value ++ " to " ++
      target.value)
  raiseIf (approvedBy ≠ none ∧ node.state ≠ .awaitingApproval) .invalidTransition
    ("node " ++ pyRepr nodeId ++ " is not awaiting approval")
  return .append change

/-- What a repeated lease operation returns: the lease the node has now. -/
def repeatedLease (s : RunSnapshot) (nodeId message : String) : Outcome Verdict := do
  let node ← nodeAt s.nodes nodeId
  match node.lease with
  | none => raise .leaseExpired message
  | some lease => return .done (.lease lease)

/-- `f"{run_id}\0{node_id}\0{owner}\0{sequence}\0{idempotency_key}"` -/
def tokenMaterial (runId nodeId owner : String) (sequence : Nat) (key : String) : String :=
  let sep := String.ofList [Char.ofNat 0]
  runId ++ sep ++ nodeId ++ sep ++ owner ++ sep ++ toString sequence ++ sep ++ key

def acquireFingerprint (nodeId owner : String) (ttlSeconds : Num) : String :=
  operationHash .leaseAcquired
    (.obj [("node_id", .str nodeId), ("owner", .str owner), ("ttl_seconds", .num ttlSeconds)])

def checkFree (nodeId : String) (now : DateTime) : Option Lease → Outcome Unit
  | none => .ok ()
  | some held => raiseIf (now.micros < held.expiresAt.micros) .leaseConflict
      ("node " ++ pyRepr nodeId ++ " is leased by " ++ pyRepr held.owner)

def acquireLease (runId : String) (s : RunSnapshot) (nodeId owner : String) (ttlSeconds : Num)
    (key : String) (clock : Clock) : Outcome Verdict := do
  if ← checkIdempotency s key (acquireFingerprint nodeId owner ttlSeconds) then
    repeatedLease s nodeId "the idempotent lease result is no longer active"
  else
    let node ← findNode s nodeId
    let now ← clock.now
    checkFree nodeId now node.lease
    let token := Sha256.hexdigest (tokenMaterial runId nodeId owner (s.lastSequence + 1) key)
    let expiresAt ← later now ttlSeconds
    return .append (.leaseAcquired nodeId ⟨owner, token, now, now, expiresAt⟩ ttlSeconds)

def heartbeatFingerprint (nodeId token : String) (ttlSeconds : Num) : String :=
  operationHash .leaseHeartbeat
    (.obj [("node_id", .str nodeId), ("token", .str token), ("ttl_seconds", .num ttlSeconds)])

def hasExpired (nodeId : String) : String := "lease for node " ++ pyRepr nodeId ++ " has expired"

def heartbeat (s : RunSnapshot) (nodeId token : String) (ttlSeconds : Num) (key : String)
    (clock : Clock) : Outcome Verdict := do
  if ← checkIdempotency s key (heartbeatFingerprint nodeId token ttlSeconds) then
    repeatedLease s nodeId "the idempotent heartbeat lease is no longer active"
  else
    let node ← findNode s nodeId
    let now ← clock.now
    match node.lease with
    | none => raise .leaseExpired (hasExpired nodeId)
    | some lease =>
      raiseIf (lease.expiresAt.micros ≤ now.micros) .leaseExpired (hasExpired nodeId)
      raiseIf (lease.token ≠ token) .leaseConflict "lease token does not match"
      let expiresAt ← later now ttlSeconds
      return .append (.leaseHeartbeat nodeId token now expiresAt ttlSeconds)

def releaseLease (s : RunSnapshot) (nodeId token key : String) (clock : Clock) : Outcome Verdict := do
  let change : Change := .leaseReleased nodeId token
  if ← checkIdempotency s key change.fingerprint then return .done (.snapshot s)
  let node ← findNode s nodeId
  match node.lease with
  | none => raise .leaseExpired (hasExpired nodeId)
  | some lease =>
    let now ← clock.now
    raiseIf (lease.expiresAt.micros ≤ now.micros) .leaseExpired (hasExpired nodeId)
    raiseIf (lease.token ≠ token) .leaseConflict "lease token does not match"
    return .append change

/-- `_append_checked`, up to the append; `result` is what a repeat returns. -/
def appendChecked (s : RunSnapshot) (change : Change) (key : String) (result : Outcome Value) :
    Outcome Verdict := do
  if ← checkIdempotency s key change.fingerprint then return .done (← result)
  return .append change

def expired (now : DateTime) (node : NodeSnapshot) : Bool :=
  match node.lease with
  | none => false
  | some lease => decide (lease.expiresAt.micros ≤ now.micros)

def expireLeases (s : RunSnapshot) (key : String) (clock : Clock) : Outcome Verdict := do
  let now ← clock.now
  let nodeIds := (Dict.keys (s.nodes.filter (fun item => expired now item.2))).insertionSort (· ≤ ·)
  appendChecked s (.leasesExpired nodeIds now) key (.ok (.snapshot s))

def retryOf (snapshot : RunSnapshot) (nodeId : String) : Outcome Value := do
  let node ← nodeAt snapshot.nodes nodeId
  match node.retry with
  | none => corrupt "retry event did not produce retry metadata"
  | some retry => return .retry retry

/-- The delay before the next attempt, nothing for a permanent failure. -/
def backoff (classification : RetryClass) (baseDelay maxDelay : Num) (attempts : Nat) :
    Outcome (Option Num) :=
  if classification = .permanent then .ok none
  else match baseDelay.timesPowTwo attempts with
  | some delay => .ok (some (maxDelay.min delay))
  | none => raise .overflowError "int too large to convert to float"

def notBeforeTime (now : DateTime) : Option Num → Outcome (Option DateTime)
  | some seconds => (later now seconds).map some
  | none => .ok none

def recordRetry (s : RunSnapshot) (nodeId : String) (classification : RetryClass) (reason : String)
    (baseDelay maxDelay : Num) (key : String) (clock : Clock) : Outcome Verdict := do
  let node ← findNode s nodeId
  let backoffSeconds ← backoff classification baseDelay maxDelay node.attempts
  let now ← clock.now
  let notBefore ← notBeforeTime now backoffSeconds
  let retry : RetryMetadata :=
    ⟨node.attempts + 1, classification, decide (classification ≠ .permanent), backoffSeconds,
      notBefore, reason⟩
  appendChecked s (.retryRecorded nodeId retry baseDelay maxDelay) key (retryOf s nodeId)

def Command.verdict (runId key : String) (clock : Clock) (s : RunSnapshot) :
    Command → Outcome Verdict
  | .transitionRun target reason approvedBy => DurableRuntime.transitionRun s target reason approvedBy key
  | .transitionNode nodeId target reason approvedBy =>
    DurableRuntime.transitionNode s nodeId target reason approvedBy key
  | .acquireLease nodeId owner ttlSeconds =>
    DurableRuntime.acquireLease runId s nodeId owner ttlSeconds key clock
  | .heartbeat nodeId token ttlSeconds => DurableRuntime.heartbeat s nodeId token ttlSeconds key clock
  | .releaseLease nodeId token => DurableRuntime.releaseLease s nodeId token key clock
  | .expireLeases => DurableRuntime.expireLeases s key clock
  | .recordRetry nodeId classification reason baseDelay maxDelay =>
    DurableRuntime.recordRetry s nodeId classification reason baseDelay maxDelay key clock

/-- What an operation returns from the snapshot it has just written. -/
def Command.result (updated : RunSnapshot) : Command → Outcome Value
  | .acquireLease nodeId _ _ => do
    match (← nodeAt updated.nodes nodeId).lease with
    | none => corrupt "lease acquisition event did not produce a lease"
    | some lease => return .lease lease
  | .heartbeat nodeId _ _ => do
    match (← nodeAt updated.nodes nodeId).lease with
    | none => corrupt "heartbeat event removed its lease"
    | some lease => return .lease lease
  | .recordRetry nodeId _ _ _ _ => retryOf updated nodeId
  | _ => .ok (.snapshot updated)

/-- One call of an operation, from the files it finds to the files it leaves. -/
def Operation.call (runId : String) (op : Operation) (clock : Clock) (dir : RunDir) :
    RunDir × Outcome Value :=
  match op.validate with
  | .error e => (dir, .error e)
  | .ok () =>
    if dir.created = false then (dir, raise .runNotFound (missing runId))
    else match loadUnlocked runId dir with
    | (dir, .error e) => (dir, .error e)
    | (dir, .ok snapshot) =>
      match op.command.verdict runId op.key clock snapshot with
      | .error e => (dir, .error e)
      | .ok (.done value) => (dir, .ok value)
      | .ok (.append change) =>
        match appendUnlocked runId (some snapshot) change op.key clock.stamp dir with
        | (dir, .error e) => (dir, .error e)
        | (dir, .ok updated) => (dir, op.command.result updated)

/-! Creating and reading a run. -/

def isAlnum (c : Char) : Bool := ('a' ≤ c && c ≤ 'z') || ('A' ≤ c && c ≤ 'Z') || ('0' ≤ c && c ≤ '9')

/-- `_SAFE_ID`: `^[A-Za-z0-9][A-Za-z0-9._-]*$` -/
def safeId (text : String) : Bool :=
  match text.toList with
  | [] => false
  | c :: cs => isAlnum c && cs.all (fun c => isAlnum c || c == '.' || c == '_' || c == '-')

def validateId (value kind : String) : Outcome Unit :=
  if safeId value then .ok () else raise .valueError (kind ++ "_id contains unsafe characters")

def validateIds : List String → Outcome Unit
  | [] => .ok ()
  | nodeId :: nodeIds => do
    validateId nodeId "node"
    validateIds nodeIds

/-- The arguments of `create_run`, with what the capture functions would report. -/
structure Creation where
  nodeIds : List String
  environment : Option EnvironmentSnapshot
  git : Option GitSnapshot
  capturedEnvironment : EnvironmentSnapshot
  capturedGit : GitSnapshot
  key : String

def Creation.validate (runId : String) (creation : Creation) : Outcome Unit := do
  validateId runId "run"
  raiseIf (creation.key = "") .valueError "idempotency_key must not be empty"
  raiseIf (¬ creation.nodeIds.Nodup) .valueError "node_ids must be unique"
  validateIds creation.nodeIds

/-- `create_run` -/
def Creation.call (runId : String) (creation : Creation) (clock : Clock) (dir : RunDir) :
    RunDir × Outcome Value :=
  match creation.validate runId with
  | .error e => (dir, .error e)
  | .ok () =>
    let dir := { dir with created := true }
    if dir.events = none then
      let change : Change := .runCreated creation.nodeIds
        (creation.environment.getD creation.capturedEnvironment)
        (creation.git.getD creation.capturedGit)
      let (dir, outcome) := appendUnlocked runId none change creation.key clock.stamp dir
      (dir, outcome.map .snapshot)
    else match loadUnlocked runId dir with
    | (dir, .error e) => (dir, .error e)
    | (dir, .ok existing) =>
      let change : Change := .runCreated creation.nodeIds
        (creation.environment.getD existing.environment) (creation.git.getD existing.git)
      match checkIdempotency existing creation.key change.fingerprint with
      | .error e => (dir, .error e)
      | .ok true => (dir, .ok (.snapshot existing))
      | .ok false => (dir, raise .runAlreadyExists ("run " ++ pyRepr runId ++ " already exists"))

/-- `load` -/
def load (runId : String) (dir : RunDir) : RunDir × Outcome RunSnapshot :=
  match validateId runId "run" with
  | .error e => (dir, .error e)
  | .ok () => if dir.created = false then (dir, raise .runNotFound (missing runId)) else loadUnlocked runId dir

/-- `events` -/
def events (runId : String) (dir : RunDir) : Outcome (List Event) := do
  validateId runId "run"
  raiseIf (dir.created = false) .runNotFound (missing runId)
  readEvents runId dir

end Onmc.DurableRuntime
