import Onmc.Calendar
import Onmc.Dict
import Onmc.Sha256

/-! Typed values used by the local durable runtime. -/
namespace Onmc

/-- `hashlib.sha256(text.encode()).hexdigest()`. Nothing below depends on which digest it is. -/
class Sha256 where
  hexdigest : String → String

@[reducible] def Sha256.standard : Sha256 := ⟨sha256⟩

namespace DurableRuntime

inductive RunState where
  | created | running | paused | waiting | awaitingApproval | completed | failed | cancelled
deriving DecidableEq

def RunState.value : RunState → String
  | created => "created"
  | running => "running"
  | paused => "paused"
  | waiting => "waiting"
  | awaitingApproval => "awaiting_approval"
  | completed => "completed"
  | failed => "failed"
  | cancelled => "cancelled"

/-- `RunState(text)`, nothing where Python raises `ValueError`. -/
def RunState.ofValue? (text : String) : Option RunState :=
  [created, running, paused, waiting, awaitingApproval, completed, failed, cancelled].find?
    (fun s => s.value = text)

@[simp] theorem RunState.ofValue?_value (s : RunState) : ofValue? s.value = some s := by
  cases s <;> decide

theorem RunState.value_inj {s t : RunState} (h : s.value = t.value) : s = t := by
  have read := congrArg RunState.ofValue? h
  simpa using read

inductive NodeState where
  | pending | running | paused | waiting | awaitingApproval | succeeded | failed | cancelled
deriving DecidableEq

def NodeState.value : NodeState → String
  | pending => "pending"
  | running => "running"
  | paused => "paused"
  | waiting => "waiting"
  | awaitingApproval => "awaiting_approval"
  | succeeded => "succeeded"
  | failed => "failed"
  | cancelled => "cancelled"

def NodeState.ofValue? (text : String) : Option NodeState :=
  [pending, running, paused, waiting, awaitingApproval, succeeded, failed, cancelled].find?
    (fun s => s.value = text)

@[simp] theorem NodeState.ofValue?_value (s : NodeState) : ofValue? s.value = some s := by
  cases s <;> decide

theorem NodeState.value_inj {s t : NodeState} (h : s.value = t.value) : s = t := by
  have read := congrArg NodeState.ofValue? h
  simpa using read

def NodeState.terminal (s : NodeState) : Bool := s = succeeded ∨ s = failed ∨ s = cancelled

inductive RetryClass where
  | transient | rateLimit | resource | permanent | unknown
deriving DecidableEq

def RetryClass.value : RetryClass → String
  | transient => "transient"
  | rateLimit => "rate_limit"
  | resource => "resource"
  | permanent => "permanent"
  | unknown => "unknown"

def RetryClass.ofValue? (text : String) : Option RetryClass :=
  [transient, rateLimit, resource, permanent, unknown].find? (fun c => c.value = text)

@[simp] theorem RetryClass.ofValue?_value (c : RetryClass) : ofValue? c.value = some c := by
  cases c <;> decide

theorem RetryClass.value_inj {c d : RetryClass} (h : c.value = d.value) : c = d := by
  have read := congrArg RetryClass.ofValue? h
  simpa using read

structure EnvironmentSnapshot where
  pythonVersion : String
  platform : String
  executable : String
  cwd : String
deriving DecidableEq

structure GitSnapshot where
  root : Option String
  head : Option String
  branch : Option String
  dirty : Option Bool
deriving DecidableEq

structure Lease where
  owner : String
  token : String
  acquiredAt : DateTime
  heartbeatAt : DateTime
  expiresAt : DateTime
deriving DecidableEq

structure RetryMetadata where
  attempt : Nat
  classification : RetryClass
  retryable : Bool
  backoffSeconds : Option Num
  notBefore : Option DateTime
  reason : String
deriving DecidableEq

structure Approval where
  approvedBy : String
  approvedAt : DateTime
deriving DecidableEq

structure NodeSnapshot where
  nodeId : String
  state : NodeState
  lease : Option Lease
  attempts : Nat
  retry : Option RetryMetadata
  retryHistory : List RetryMetadata
deriving DecidableEq

/-- `NodeSnapshot(node_id=...)` with the dataclass defaults. -/
def NodeSnapshot.fresh (nodeId : String) : NodeSnapshot := ⟨nodeId, .pending, none, 0, none, []⟩

structure RunSnapshot where
  runId : String
  state : RunState
  nodes : List (String × NodeSnapshot)
  environment : EnvironmentSnapshot
  git : GitSnapshot
  createdAt : DateTime
  updatedAt : DateTime
  lastSequence : Nat
  lastHash : String
  approvals : List Approval
  idempotency : List (String × String)
deriving DecidableEq

/-- The kinds of event the store writes, the string literals of the source. -/
inductive EventKind where
  | runCreated | runTransition | nodeTransition | leaseAcquired | leaseHeartbeat | leaseReleased
  | leasesExpired | retryRecorded
deriving DecidableEq

def EventKind.value : EventKind → String
  | runCreated => "run_created"
  | runTransition => "run_transition"
  | nodeTransition => "node_transition"
  | leaseAcquired => "lease_acquired"
  | leaseHeartbeat => "lease_heartbeat"
  | leaseReleased => "lease_released"
  | leasesExpired => "leases_expired"
  | retryRecorded => "retry_recorded"

def EventKind.ofValue? (text : String) : Option EventKind :=
  [runCreated, runTransition, nodeTransition, leaseAcquired, leaseHeartbeat, leaseReleased,
    leasesExpired, retryRecorded].find? (fun k => k.value = text)

@[simp] theorem EventKind.ofValue?_value (k : EventKind) : ofValue? k.value = some k := by
  cases k <;> decide

theorem EventKind.value_inj {k k' : EventKind} (h : k.value = k'.value) : k = k' := by
  have := congrArg EventKind.ofValue? h
  simpa using this

structure Event where
  sequence : Nat
  eventId : String
  runId : String
  eventType : String
  occurredAt : DateTime
  payload : Json
  previousHash : String
  hash : String
  idempotencyKey : String
  operationHash : String

/-- The exceptions the store raises: Python's own, then the subclasses of
`DurableRuntimeError`. -/
inductive ErrorKind where
  | valueError | keyError | typeError | attributeError | overflowError
  | runNotFound | runAlreadyExists | invalidTransition | idempotencyConflict | leaseConflict
  | leaseExpired | corruptRun
deriving DecidableEq

structure Raised where
  kind : ErrorKind
  message : String
deriving DecidableEq

/-- What a call yields: a value, or the exception it raises. -/
abbrev Outcome (α : Type) := Except Raised α

/-- `DurableRuntimeError` and its subclasses. -/
def ErrorKind.domain : ErrorKind → Bool
  | runNotFound | runAlreadyExists | invalidTransition | idempotencyConflict | leaseConflict
  | leaseExpired | corruptRun => true
  | _ => false

end DurableRuntime
end Onmc
