import Mathlib.Data.List.Sort
import Onmc.DurableRuntime.Models
import Onmc.EventLog

/-! Append-only event store and exact-replay state machine: the files of one run, the
operations that write them, and the replay that reads them back. Every operation runs
under the run's lock, so it is a function of the files it finds. -/
namespace Onmc.DurableRuntime
open Json (dumps loads)

variable [Sha256]

/-- The files of a run's directory. -/
structure RunDir where
  created : Bool
  events : Option String
  checkpoint : Option String

def RunDir.absent : RunDir := ⟨false, none, none⟩

/-- What `_now()` yields at the two places an operation may ask for the time: first for its own
decision, then for the event it appends. -/
structure Clock where
  now : Outcome DateTime
  stamp : Outcome DateTime

def zeroHash : String := "0000000000000000000000000000000000000000000000000000000000000000"

def hashOf (value : Json) : String := Sha256.hexdigest (dumps value)

def runTransitions : RunState → List RunState
  | .created => [.running, .cancelled]
  | .running => [.paused, .waiting, .awaitingApproval, .completed, .failed, .cancelled]
  | .paused => [.running, .cancelled]
  | .waiting => [.running, .awaitingApproval, .cancelled]
  | .awaitingApproval => [.running, .failed, .cancelled]
  | .completed | .failed | .cancelled => []

def nodeTransitions : NodeState → List NodeState
  | .pending => [.running, .cancelled]
  | .running => [.paused, .waiting, .awaitingApproval, .succeeded, .failed, .cancelled]
  | .paused => [.running, .cancelled]
  | .waiting => [.running, .awaitingApproval, .cancelled]
  | .awaitingApproval => [.running, .failed, .cancelled]
  | .succeeded | .failed | .cancelled => []

/-- `repr` of a string in an error message. Escapes of unprintable characters past ASCII are not
reproduced. -/
def pyRepr (s : String) : String :=
  let quote := if s.toList.contains '\'' && !s.toList.contains '"' then '"' else '\''
  let escape (c : Char) : List Char :=
    if c = '\\' then ['\\', '\\']
    else if c = quote then ['\\', quote]
    else if c = '\n' then ['\\', 'n']
    else if c = '\r' then ['\\', 'r']
    else if c = '\t' then ['\\', 't']
    else if c.toNat < 32 ∨ c.toNat = 127 then
      ['\\', 'x', Json.hexDigit (c.toNat / 16), Json.hexDigit (c.toNat % 16)]
    else [c]
  String.ofList (quote :: (s.toList.flatMap escape ++ [quote]))

def raise (kind : ErrorKind) (message : String) : Outcome α := .error ⟨kind, message⟩

def corrupt (message : String) : Outcome α := raise .corruptRun message

/-- `if condition: raise ...` -/
def raiseIf (condition : Prop) [Decidable condition] (kind : ErrorKind) (message : String) :
    Outcome Unit :=
  if condition then raise kind message else .ok ()

def corruptIf (condition : Prop) [Decidable condition] (message : String) : Outcome Unit :=
  raiseIf condition .corruptRun message

/-! The dicts written to disk. -/

def environmentToDict (env : EnvironmentSnapshot) : Json :=
  .obj [("python_version", .str env.pythonVersion), ("platform", .str env.platform),
    ("executable", .str env.executable), ("cwd", .str env.cwd)]

def gitToDict (git : GitSnapshot) : Json :=
  .obj [("root", .ofOption .str git.root), ("head", .ofOption .str git.head),
    ("branch", .ofOption .str git.branch), ("dirty", .ofOption .bool git.dirty)]

def leaseToDict (lease : Lease) : Json :=
  .obj [("owner", .str lease.owner), ("token", .str lease.token),
    ("acquired_at", .str lease.acquiredAt.iso), ("heartbeat_at", .str lease.heartbeatAt.iso),
    ("expires_at", .str lease.expiresAt.iso)]

def retryToDict (retry : RetryMetadata) : Json :=
  .obj [("attempt", .num (.int retry.attempt)), ("classification", .str retry.classification.value),
    ("retryable", .bool retry.retryable), ("backoff_seconds", .ofOption .num retry.backoffSeconds),
    ("not_before", .ofOption (fun t => .str t.iso) retry.notBefore), ("reason", .str retry.reason)]

def nodeToDict (node : NodeSnapshot) : Json :=
  .obj [("node_id", .str node.nodeId), ("state", .str node.state.value),
    ("lease", .ofOption leaseToDict node.lease), ("attempts", .num (.int node.attempts)),
    ("retry", .ofOption retryToDict node.retry),
    ("retry_history", .arr (node.retryHistory.map retryToDict))]

def approvalToDict (approval : Approval) : Json :=
  .obj [("approved_by", .str approval.approvedBy), ("approved_at", .str approval.approvedAt.iso)]

/-- `sorted(d.items())` -/
def sortedItems (items : List (String × α)) : List (String × α) :=
  items.insertionSort (fun a b => a.1 ≤ b.1)

def snapshotToDict (s : RunSnapshot) : Json :=
  .obj [("run_id", .str s.runId), ("state", .str s.state.value),
    ("nodes", .obj (Dict.mapValues (fun _ node => nodeToDict node) (sortedItems s.nodes))),
    ("environment", environmentToDict s.environment), ("git", gitToDict s.git),
    ("created_at", .str s.createdAt.iso), ("updated_at", .str s.updatedAt.iso),
    ("last_sequence", .num (.int s.lastSequence)), ("last_hash", .str s.lastHash),
    ("approvals", .arr (s.approvals.map approvalToDict)),
    ("idempotency", .obj (Dict.mapValues (fun _ fingerprint => .str fingerprint)
      (sortedItems s.idempotency)))]

/-- What one event records, with everything its payload holds. -/
inductive Change where
  | runCreated (nodeIds : List String) (environment : EnvironmentSnapshot) (git : GitSnapshot)
  | runTransition (source target : RunState) (reason approvedBy : Option String)
  | nodeTransition (nodeId : String) (source target : NodeState) (reason approvedBy : Option String)
  | leaseAcquired (nodeId : String) (lease : Lease) (ttlSeconds : Num)
  | leaseHeartbeat (nodeId token : String) (heartbeatAt expiresAt : DateTime) (ttlSeconds : Num)
  | leaseReleased (nodeId token : String)
  | leasesExpired (nodeIds : List String) (expiredAt : DateTime)
  | retryRecorded (nodeId : String) (retry : RetryMetadata) (baseDelay maxDelay : Num)

namespace Change

def kind : Change → EventKind
  | runCreated .. => .runCreated
  | runTransition .. => .runTransition
  | nodeTransition .. => .nodeTransition
  | leaseAcquired .. => .leaseAcquired
  | leaseHeartbeat .. => .leaseHeartbeat
  | leaseReleased .. => .leaseReleased
  | leasesExpired .. => .leasesExpired
  | retryRecorded .. => .retryRecorded

/-- The key `approved_by` is only present when an approver was given. -/
def approvedByField : Option String → List (String × Json)
  | none => []
  | some approver => [("approved_by", .str approver)]

/-- The payload dicts of the operations. -/
def payload : Change → Json
  | runCreated nodeIds environment git =>
    .obj [("node_ids", .arr (nodeIds.map .str)), ("environment", environmentToDict environment),
      ("git", gitToDict git)]
  | runTransition source target reason approvedBy =>
    .obj ([("from", .str source.value), ("to", .str target.value),
      ("reason", .ofOption .str reason)] ++ approvedByField approvedBy)
  | nodeTransition nodeId source target reason approvedBy =>
    .obj ([("node_id", .str nodeId), ("from", .str source.value), ("to", .str target.value),
      ("reason", .ofOption .str reason)] ++ approvedByField approvedBy)
  | leaseAcquired nodeId lease ttlSeconds =>
    .obj [("node_id", .str nodeId), ("owner", .str lease.owner), ("token", .str lease.token),
      ("acquired_at", .str lease.acquiredAt.iso), ("heartbeat_at", .str lease.heartbeatAt.iso),
      ("expires_at", .str lease.expiresAt.iso), ("ttl_seconds", .num ttlSeconds)]
  | leaseHeartbeat nodeId token heartbeatAt expiresAt ttlSeconds =>
    .obj [("node_id", .str nodeId), ("token", .str token), ("heartbeat_at", .str heartbeatAt.iso),
      ("expires_at", .str expiresAt.iso), ("ttl_seconds", .num ttlSeconds)]
  | leaseReleased nodeId token => .obj [("node_id", .str nodeId), ("token", .str token)]
  | leasesExpired nodeIds expiredAt =>
    .obj [("node_ids", .arr (nodeIds.map .str)), ("expired_at", .str expiredAt.iso)]
  | retryRecorded nodeId retry baseDelay maxDelay =>
    .obj [("node_id", .str nodeId), ("attempt", .num (.int retry.attempt)),
      ("classification", .str retry.classification.value), ("retryable", .bool retry.retryable),
      ("backoff_seconds", .ofOption .num retry.backoffSeconds),
      ("not_before", .ofOption (fun t => .str t.iso) retry.notBefore), ("reason", .str retry.reason),
      ("base_delay_seconds", .num baseDelay), ("max_delay_seconds", .num maxDelay)]

end Change

/-- Derived state documents the event but is not part of caller command identity. -/
def derivedKeys : EventKind → List String
  | .runTransition | .nodeTransition => ["from"]
  | .leaseAcquired => ["token", "acquired_at", "heartbeat_at", "expires_at"]
  | .leaseHeartbeat => ["heartbeat_at", "expires_at"]
  | .leasesExpired => ["node_ids", "expired_at"]
  | .retryRecorded => ["attempt", "retryable", "backoff_seconds", "not_before"]
  | .runCreated | .leaseReleased => []

def commandPayload (kind : EventKind) (payload : Json) : Json :=
  (derivedKeys kind).foldl (fun p key => p.without key) payload

def operationHash (kind : EventKind) (payload : Json) : String :=
  hashOf (.obj [("event_type", .str kind.value), ("payload", commandPayload kind payload)])

/-- The identity of the command that made a change. -/
def Change.fingerprint (change : Change) : String := operationHash change.kind change.payload

/-! Reading events back. -/

/-- `int(value)`. Strings are read as plain decimal digits. -/
def intOf : Json → Option Int
  | .num (.int n) => some n
  | .num (.float d) => some (d.coef.tdiv (10 ^ d.scale))
  | .bool b => some (if b then 1 else 0)
  | .str s =>
    if s.toList ≠ [] ∧ s.toList.all Char.isDigit then some (Nat.ofDigitChars 10 s.toList 0) else none
  | _ => none

/-- `str(value)` of a scalar. -/
def textOf : Json → Option String
  | .null => some "None"
  | .bool b => some (if b then "True" else "False")
  | .num n => some (String.ofList (Json.renderNum n))
  | .str s => some s
  | _ => none

/-- `_datetime(value)`: a value that is not a string has no `replace`. -/
def datetimeOf : Json → Outcome DateTime
  | .str s => match DateTime.ofIso s with
    | some t => .ok t
    | none => raise .valueError ("Invalid isoformat string: " ++ pyRepr s)
  | _ => raise .attributeError "object has no attribute 'replace'"

/-- `d[key]` -/
def item (value : Json) (key : String) : Outcome Json :=
  match value.get? key with
  | some v => .ok v
  | none => raise .keyError (pyRepr key)

/-- A value of the wrong type, where Python fails on it sooner or later. -/
def typed (value : Option α) : Outcome α :=
  match value with
  | some a => .ok a
  | none => raise .typeError "unexpected type"

/-- `except (KeyError, TypeError, ValueError) as exc: raise CorruptRunError(message) from exc` -/
def caught (message : String) (outcome : Outcome α) : Outcome α :=
  match outcome with
  | .ok a => .ok a
  | .error e =>
    if e.kind = .keyError ∨ e.kind = .typeError ∨ e.kind = .valueError then corrupt message
    else .error e

def isDict : Json → Bool
  | .obj _ => true
  | _ => false

/-- `_event_from_dict` -/
def eventFromDict (raw : Json) : Outcome Event := caught "invalid event schema" do
  let sequence ← typed (intOf (← item raw "sequence"))
  let eventId ← typed (textOf (← item raw "event_id"))
  let runId ← typed (textOf (← item raw "run_id"))
  let eventType ← typed (textOf (← item raw "event_type"))
  let occurredAt ← datetimeOf (← item raw "occurred_at")
  let payload ← item raw "payload"
  raiseIf (isDict payload = false) .typeError "payload is not a dict"
  let previousHash ← typed (textOf (← item raw "previous_hash"))
  let hash ← typed (textOf (← item raw "hash"))
  let idempotencyKey ← typed (textOf (← item raw "idempotency_key"))
  let operationHash ← typed (textOf (← item raw "operation_hash"))
  return ⟨sequence.toNat, eventId, runId, eventType, occurredAt, payload, previousHash, hash,
    idempotencyKey, operationHash⟩

def str? : Json → Option String
  | .str s => some s
  | _ => none

def bool? : Json → Option Bool
  | .bool b => some b
  | _ => none

/-- A value of class `int`, to which `bool` belongs. -/
def int? : Json → Option Int
  | .num (.int n) => some n
  | .bool b => some (if b then 1 else 0)
  | _ => none

def num? : Json → Option Num
  | .num n => some n
  | _ => none

/-- A list whose items are all strings. -/
def strs? : Json → Option (List String)
  | .arr items => items.mapM str?
  | _ => none

/-- A value that may also be `None`. -/
def nullable (read : Json → Option α) : Json → Option (Option α)
  | .null => some none
  | v => (read v).map some

/-- `Dataclass(**value)` takes a dict, and no key but its fields. -/
def onlyFields (names : List String) : Json → Outcome Unit
  | .obj fields =>
    raiseIf (fields.all (fun field => decide (field.1 ∈ names)) = false) .typeError
      "got an unexpected keyword argument"
  | _ => raise .typeError "argument after ** must be a mapping"

/-- `EnvironmentSnapshot(**payload["environment"])` -/
def environmentFromDict (raw : Json) : Outcome EnvironmentSnapshot := do
  onlyFields ["python_version", "platform", "executable", "cwd"] raw
  let pythonVersion ← typed (str? (← item raw "python_version"))
  let platform ← typed (str? (← item raw "platform"))
  let executable ← typed (str? (← item raw "executable"))
  let cwd ← typed (str? (← item raw "cwd"))
  return ⟨pythonVersion, platform, executable, cwd⟩

/-- `GitSnapshot(**payload["git"])` -/
def gitFromDict (raw : Json) : Outcome GitSnapshot := do
  onlyFields ["root", "head", "branch", "dirty"] raw
  let root ← typed (nullable str? (← item raw "root"))
  let head ← typed (nullable str? (← item raw "head"))
  let branch ← typed (nullable str? (← item raw "branch"))
  let dirty ← typed (nullable bool? (← item raw "dirty"))
  return ⟨root, head, branch, dirty⟩

def createdNodes (nodeIds : List String) : List (String × NodeSnapshot) :=
  nodeIds.foldl (fun nodes nodeId => Dict.setItem nodeId (.fresh nodeId) nodes) []

/-- `_apply` of the first event. -/
def applyFirst (event : Event) : Outcome RunSnapshot := do
  corruptIf (event.eventType ≠ EventKind.runCreated.value) "first event must create the run"
  let (nodes, environment, git) ← caught "invalid run creation payload" do
    let nodeIds ← typed (strs? (← item event.payload "node_ids"))
    let environment ← environmentFromDict (← item event.payload "environment")
    let git ← gitFromDict (← item event.payload "git")
    return (createdNodes nodeIds, environment, git)
  return {
    runId := event.runId, state := .created, nodes, environment, git,
    createdAt := event.occurredAt, updatedAt := event.occurredAt,
    lastSequence := event.sequence, lastHash := event.hash, approvals := [],
    idempotency := [(event.idempotencyKey, event.operationHash)] }

/-- `Enum(value)` -/
def member (ofValue? : String → Option α) (enum : String) (value : Json) : Outcome α := do
  let text ← typed (str? value)
  match ofValue? text with
  | some a => return a
  | none => raise .valueError (pyRepr text ++ " is not a valid " ++ enum)

/-- The part of a snapshot that an event's payload changes. -/
structure Progress where
  state : RunState
  nodes : List (String × NodeSnapshot)
  approvals : List Approval

/-- `nodes[node_id]` -/
def nodeAt (nodes : List (String × NodeSnapshot)) (nodeId : String) : Outcome NodeSnapshot :=
  match nodes.lookup nodeId with
  | some node => .ok node
  | none => raise .keyError (pyRepr nodeId)

def cancelUnfinished (nodes : List (String × NodeSnapshot)) : List (String × NodeSnapshot) :=
  Dict.mapValues (fun _ node => if node.state.terminal then node else { node with state := .cancelled })
    nodes

/-- `payload.get("approved_by")`, when it is truthy. -/
def approverOf (payload : Json) : Option String :=
  match payload.get? "approved_by" with
  | some (.str approver) => if approver = "" then none else some approver
  | _ => none

def applyRunTransition (p : Progress) (payload : Json) (occurredAt : DateTime) : Outcome Progress := do
  let source ← member RunState.ofValue? "RunState" (← item payload "from")
  let target ← member RunState.ofValue? "RunState" (← item payload "to")
  corruptIf (source ≠ p.state ∨ target ∉ runTransitions p.state)
    "invalid run transition in event log"
  let approvals := match approverOf payload with
    | some approver => p.approvals ++ [⟨approver, occurredAt⟩]
    | none => p.approvals
  return ⟨target, if target = .cancelled then cancelUnfinished p.nodes else p.nodes, approvals⟩

def applyNodeTransition (p : Progress) (payload : Json) : Outcome Progress := do
  let nodeId ← typed (str? (← item payload "node_id"))
  let source ← member NodeState.ofValue? "NodeState" (← item payload "from")
  let target ← member NodeState.ofValue? "NodeState" (← item payload "to")
  let node ← nodeAt p.nodes nodeId
  corruptIf (source ≠ node.state ∨ target ∉ nodeTransitions node.state)
    "invalid node transition in event log"
  return { p with nodes := Dict.setItem nodeId { node with state := target } p.nodes }

def applyLeaseAcquired (p : Progress) (payload : Json) : Outcome Progress := do
  let nodeId ← typed (str? (← item payload "node_id"))
  let owner ← typed (str? (← item payload "owner"))
  let token ← typed (str? (← item payload "token"))
  let acquiredAt ← datetimeOf (← item payload "acquired_at")
  let heartbeatAt ← datetimeOf (← item payload "heartbeat_at")
  let expiresAt ← datetimeOf (← item payload "expires_at")
  let node ← nodeAt p.nodes nodeId
  let lease : Lease := ⟨owner, token, acquiredAt, heartbeatAt, expiresAt⟩
  return { p with nodes := Dict.setItem nodeId { node with lease := some lease } p.nodes }

def applyLeaseHeartbeat (p : Progress) (payload : Json) : Outcome Progress := do
  let nodeId ← typed (str? (← item payload "node_id"))
  let node ← nodeAt p.nodes nodeId
  match node.lease with
  | none => corrupt "heartbeat has no preceding lease"
  | some activeLease =>
    let heartbeatAt ← datetimeOf (← item payload "heartbeat_at")
    let expiresAt ← datetimeOf (← item payload "expires_at")
    let lease : Lease := { activeLease with heartbeatAt, expiresAt }
    return { p with nodes := Dict.setItem nodeId { node with lease := some lease } p.nodes }

def applyLeaseReleased (p : Progress) (payload : Json) : Outcome Progress := do
  let nodeId ← typed (str? (← item payload "node_id"))
  let node ← nodeAt p.nodes nodeId
  match node.lease with
  | none => corrupt "lease release does not match an active lease"
  | some activeLease =>
    corruptIf (str? (← item payload "token") ≠ some activeLease.token)
      "lease release does not match an active lease"
    return { p with nodes := Dict.setItem nodeId { node with lease := none } p.nodes }

/-- The loop over `payload["node_ids"]`. -/
def expireNodes : List String → List (String × NodeSnapshot) → Outcome (List (String × NodeSnapshot))
  | [], nodes => .ok nodes
  | nodeId :: nodeIds, nodes => do
    let node ← nodeAt nodes nodeId
    expireNodes nodeIds (Dict.setItem nodeId { node with lease := none } nodes)

def applyLeasesExpired (p : Progress) (payload : Json) : Outcome Progress := do
  let nodeIds ← typed (strs? (← item payload "node_ids"))
  return { p with nodes := ← expireNodes nodeIds p.nodes }

/-- `_datetime(value) if value else None` -/
def notBeforeOf : Json → Outcome (Option DateTime)
  | .null | .str "" => .ok none
  | value => (datetimeOf value).map some

def applyRetryRecorded (p : Progress) (payload : Json) : Outcome Progress := do
  let nodeId ← typed (str? (← item payload "node_id"))
  let attempt ← typed (intOf (← item payload "attempt"))
  let classification ← member RetryClass.ofValue? "RetryClass" (← item payload "classification")
  let retryable ← typed (bool? (← item payload "retryable"))
  let backoffSeconds ← typed (nullable num? (← item payload "backoff_seconds"))
  let notBefore ← notBeforeOf (← item payload "not_before")
  let reason ← typed (str? (← item payload "reason"))
  let retry : RetryMetadata :=
    ⟨attempt.toNat, classification, retryable, backoffSeconds, notBefore, reason⟩
  let node ← nodeAt p.nodes nodeId
  let node := { node with
    attempts := retry.attempt, retry := some retry, retryHistory := node.retryHistory ++ [retry] }
  return { p with nodes := Dict.setItem nodeId node p.nodes }

def applyPayload (p : Progress) (event : Event) : Outcome Progress :=
  match EventKind.ofValue? event.eventType with
  | some .runTransition => applyRunTransition p event.payload event.occurredAt
  | some .nodeTransition => applyNodeTransition p event.payload
  | some .leaseAcquired => applyLeaseAcquired p event.payload
  | some .leaseHeartbeat => applyLeaseHeartbeat p event.payload
  | some .leaseReleased => applyLeaseReleased p event.payload
  | some .leasesExpired => applyLeasesExpired p event.payload
  | some .retryRecorded => applyRetryRecorded p event.payload
  | some .runCreated | none => corrupt ("unknown event type " ++ pyRepr event.eventType)

def checkRecorded (snapshot : RunSnapshot) (event : Event) : Outcome Unit :=
  match snapshot.idempotency.lookup event.idempotencyKey with
  | some existing =>
    corruptIf (existing ≠ event.operationHash) "conflicting idempotency keys in event log"
  | none => .ok ()

/-- `_apply` of an event that extends a snapshot. -/
def applyNext (snapshot : RunSnapshot) (event : Event) : Outcome RunSnapshot := do
  corruptIf (event.previousHash ≠ snapshot.lastHash) "event does not extend current state"
  let p ← caught ("invalid " ++ event.eventType ++ " payload")
    (applyPayload ⟨snapshot.state, snapshot.nodes, snapshot.approvals⟩ event)
  checkRecorded snapshot event
  return { snapshot with
    state := p.state, nodes := p.nodes, approvals := p.approvals, updatedAt := event.occurredAt,
    lastSequence := event.sequence, lastHash := event.hash,
    idempotency := Dict.setItem event.idempotencyKey event.operationHash snapshot.idempotency }

/-- `_apply` -/
def apply (snapshot : Option RunSnapshot) (event : Event) : Outcome RunSnapshot :=
  match snapshot with
  | none => applyFirst event
  | some snapshot => applyNext snapshot event

/-! The log and the checkpoint. -/

/-- `bytes.splitlines()`, with the text of the line read so far. -/
def splitLinesFrom (line : List Char) : List Char → List String
  | [] => if line.isEmpty then [] else [String.ofList line]
  | '\r' :: '\n' :: cs => String.ofList line :: splitLinesFrom [] cs
  | c :: cs =>
    if c = '\n' ∨ c = '\r' then String.ofList line :: splitLinesFrom [] cs
    else splitLinesFrom (line ++ [c]) cs

def splitLines (text : String) : List String := splitLinesFrom [] text.toList

def atLine (message : String) (index : Nat) : String := message ++ " at line " ++ toString index

def orCorrupt (value : Option α) (message : String) : Outcome α :=
  match value with
  | some a => .ok a
  | none => corrupt message

/-- One round of the loop in `_read_events`. -/
def readLine (runId : String) (index : Nat) (previousHash line : String) : Outcome Event := do
  let raw ← orCorrupt (loads line) (atLine "invalid event JSON" index)
  corruptIf (isDict raw = false) (atLine "invalid event schema" index)
  let event ← eventFromDict raw
  corruptIf (event.sequence ≠ index ∨ event.runId ≠ runId)
    (atLine "invalid event sequence or run id" index)
  corruptIf (event.previousHash ≠ previousHash) (atLine "broken hash chain" index)
  corruptIf (event.hash ≠ hashOf (raw.without "hash")) (atLine "event hash mismatch" index)
  return event

def readLines (runId : String) : Nat → String → List String → Outcome (List Event)
  | _, _, [] => .ok []
  | index, previousHash, line :: lines => do
    let event ← readLine runId index previousHash line
    let events ← readLines runId (index + 1) event.hash lines
    return event :: events

/-- `_read_events` -/
def readEvents (runId : String) (dir : RunDir) : Outcome (List Event) :=
  match dir.events with
  | none => .ok []
  | some text => readLines runId 1 zeroHash (splitLines text)

def checkpointBody (snapshot : RunSnapshot) : List (String × Json) :=
  [("schema_version", .num (.int 1)), ("snapshot", snapshotToDict snapshot)]

/-- `_write_checkpoint` -/
def writeCheckpoint (snapshot : RunSnapshot) (dir : RunDir) : RunDir :=
  let body := checkpointBody snapshot
  let document := body ++ [("checkpoint_hash", .str (hashOf (.obj body)))]
  { dir with checkpoint := some (dumps (.obj document) ++ "\n") }

/-- `_read_checkpoint` -/
def readCheckpoint (text : String) : Outcome Json := do
  let document ← orCorrupt (loads text) "invalid checkpoint JSON"
  corruptIf ((document.get? "schema_version").bind int? ≠ some 1) "invalid checkpoint schema"
  corruptIf ((document.get? "checkpoint_hash").bind str? ≠
    some (hashOf (document.without "checkpoint_hash"))) "checkpoint hash mismatch"
  corruptIf ((document.get? "snapshot").map isDict ≠ some true) "invalid checkpoint snapshot"
  return document

/-- The sequence number of a checkpoint that agrees with the snapshots of the log. -/
def checkedSequence (snapshots : List RunSnapshot) (text : String) : Outcome Nat := do
  let document ← readCheckpoint text
  let stored := (document.get? "snapshot").getD .null
  match (stored.get? "last_sequence").bind int? with
  | none => corrupt "checkpoint sequence is invalid"
  | some sequence =>
    corruptIf (sequence < 1 ∨ snapshots.length < sequence) "checkpoint sequence is invalid"
    match snapshots[sequence.toNat - 1]? with
    | none => corrupt "checkpoint sequence is invalid"
    | some expected =>
      corruptIf (Json.same stored (snapshotToDict expected) = false)
        "checkpoint does not match the event log"
      return sequence.toNat

def missing (runId : String) : String := "run " ++ pyRepr runId ++ " does not exist"

/-- The part of `_load_unlocked` that only reads: the snapshots of the whole log and the sequence
number of the checkpoint, when there is one. -/
def readRun (runId : String) (dir : RunDir) : Outcome (List RunSnapshot × Option Nat) := do
  let events ← readEvents runId dir
  let snapshots ← EventLog.states apply none events
  raiseIf (snapshots = []) .runNotFound (missing runId)
  match dir.checkpoint with
  | none => return (snapshots, none)
  | some text => return (snapshots, some (← checkedSequence snapshots text))

/-- `_load_unlocked`: a missing or stale checkpoint is written anew. -/
def loadUnlocked (runId : String) (dir : RunDir) : RunDir × Outcome RunSnapshot :=
  match readRun runId dir with
  | .error e => (dir, .error e)
  | .ok (snapshots, sequence) =>
    match snapshots.getLast? with
    | none => (dir, raise .runNotFound (missing runId))
    | some snapshot =>
      (if sequence = some snapshots.length then dir else writeCheckpoint snapshot dir, .ok snapshot)

def nextSequence : Option RunSnapshot → Nat
  | none => 1
  | some s => s.lastSequence + 1

def previousHashOf : Option RunSnapshot → String
  | none => zeroHash
  | some s => s.lastHash

/-- The event dict of a change, without and with its hash. -/
def eventBody (runId : String) (snapshot : Option RunSnapshot) (change : Change) (key : String)
    (occurredAt : DateTime) : List (String × Json) :=
  let sequence := nextSequence snapshot
  [("sequence", .num (.int sequence)), ("event_id", .str (runId ++ ":" ++ toString sequence)),
    ("run_id", .str runId), ("event_type", .str change.kind.value),
    ("occurred_at", .str occurredAt.iso), ("payload", change.payload),
    ("previous_hash", .str (previousHashOf snapshot)), ("idempotency_key", .str key),
    ("operation_hash", .str change.fingerprint)]

def rawEvent (runId : String) (snapshot : Option RunSnapshot) (change : Change) (key : String)
    (occurredAt : DateTime) : Json :=
  let body := eventBody runId snapshot change key occurredAt
  .obj (body ++ [("hash", .str (hashOf (.obj body)))])

def emptyKey : Outcome α := raise .valueError "idempotency_key must not be empty"

/-- `_append_unlocked`: the line is on disk before the event is applied. -/
def appendUnlocked (runId : String) (snapshot : Option RunSnapshot) (change : Change) (key : String)
    (stamp : Outcome DateTime) (dir : RunDir) : RunDir × Outcome RunSnapshot :=
  if key = "" then (dir, emptyKey)
  else match stamp with
  | .error e => (dir, .error e)
  | .ok occurredAt =>
    let raw := rawEvent runId snapshot change key occurredAt
    let dir := { dir with events := some (dir.events.getD "" ++ dumps raw ++ "\n") }
    match eventFromDict raw >>= apply snapshot with
    | .error e => (dir, .error e)
    | .ok updated => (writeCheckpoint updated dir, .ok updated)

end Onmc.DurableRuntime
