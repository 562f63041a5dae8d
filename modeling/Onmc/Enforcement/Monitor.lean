import Onmc.ToolBroker.Broker
import Onmc.ToolBroker.Redaction

/-! The reference monitor: it asks the broker about every effect, screens the network, escalates what
asks for approval, and writes down each verdict. -/
namespace Onmc.Enforcement

open Onmc.ToolBroker
open Onmc.ToolBroker.Redaction (redactSecrets)

/-- Where a value comes from, from the most to the least trusted. -/
inductive TaintLabel where
  | user | repo | memory | remote | tool
  deriving DecidableEq

def TaintLabel.value : TaintLabel → String
  | .user => "user"
  | .repo => "repo"
  | .memory => "memory"
  | .remote => "remote"
  | .tool => "tool"

/-- The members in the order of their values. -/
def TaintLabel.byValue : List TaintLabel := [.memory, .remote, .repo, .tool, .user]

/-- An opaque reference to a credential. -/
structure SecretHandle where
  value : String
  handleId : String
  matcher : String
  deriving DecidableEq

/-- A declared operation with side effects; `provenance` is a set of labels. -/
structure Effect where
  action : Action
  provenance : TaintLabel → Bool
  secretHandles : List SecretHandle
  requiresApproval : Bool

structure DecisionRecord where
  effectKind : String
  outcome : String
  reason : String
  enforced : Bool
  provenance : List String
  resource : String
  matchedRuleIds : List String
  deriving DecidableEq

/-- `_OUTCOME` -/
def outcomeText : DecisionEffect → String
  | .allow => "allow"
  | .deny => "deny"
  | .requireApproval => "escalate"

/-- What the broker's clock returns. -/
inductive Clock where
  | aware (now : DateTime)
  | naive

/-- What a call meets outside the monitor: the clock, and what writing the broker's audit log raises. -/
structure World where
  clock : Clock
  auditFailure : Option String

variable [Platform]

structure ReferenceMonitor where
  broker : Broker
  enforced : Bool
  egressRules : List (Made NetworkRule.postInit)
  subject : Option String
  tokens : List String
  secretValues : List String
  trace : List DecisionRecord

/-- The broker's `decide`, with what it raises. -/
def brokerDecides (broker : Broker) (w : World) (action : Action) (tokens : List String)
    (subject : Option String) : Except String Decision :=
  match w.clock with
  | .naive => .error "broker clock must return a timezone-aware datetime"
  | .aware now =>
    match w.auditFailure with
    | some e => .error e
    | none => .ok (broker.decide action tokens subject now)

/-- The text of an action before secrets are scrubbed from it. -/
def rawSummary (action : Action) : String :=
  let raw :=
    match action.actionType with
    | .command => PyText.join " " action.argv
    | .filesystem => action.path.getD ""
    | .network =>
      match action.port with
      | some port => action.host.getD "" ++ ":" ++ toString port
      | none => action.host.getD ""
    | _ => action.resource
  PyText.strip (action.operation ++ " " ++ raw)

/-- `_summarize` -/
def summarize [WordChars] (action : Action) (secretValues : List String) : String :=
  redactSecrets secretValues (rawSummary action)

namespace ReferenceMonitor

/-- `_egress_allowed` -/
def egressAllowed (m : ReferenceMonitor) (host : Option String) (port : Option Int) : Bool :=
  match host with
  | none => false
  | some host => m.egressRules.any (fun rule => rule.value.matches host port)

/-- The two layers over the broker's decision. -/
def layered (m : ReferenceMonitor) (effect : Effect) (decision : Decision) : Decision :=
  let action := effect.action
  let decision :=
    if action.actionType = .network ∧ decision.effect ≠ .deny ∧
        m.egressAllowed action.host action.port = false then
      ⟨.deny, "egress_not_allowlisted", [], [], none⟩
    else decision
  if effect.requiresApproval = true ∧ decision.effect = .allow then
    ⟨.requireApproval, "elevation_requires_approval", [], [], none⟩
  else decision

/-- What `guard` returns. -/
def verdict (m : ReferenceMonitor) (w : World) (effect : Effect) : Except String Decision :=
  (brokerDecides m.broker w effect.action m.tokens m.subject).map (m.layered effect)

variable [WordChars]

/-- The record of a decision. -/
def recordOf (m : ReferenceMonitor) (effect : Effect) (decision : Decision) : DecisionRecord where
  effectKind := effect.action.actionType.value
  outcome := outcomeText decision.effect
  reason := decision.reasonCode
  enforced := m.enforced
  provenance := (TaintLabel.byValue.filter effect.provenance).map TaintLabel.value
  resource := summarize effect.action m.secretValues
  matchedRuleIds := decision.matchedRuleIds

/-- `_record` -/
def record (m : ReferenceMonitor) (effect : Effect) (decision : Decision) : ReferenceMonitor :=
  { m with trace := m.trace ++ [m.recordOf effect decision] }

/-- `guard`: the monitor after it, and what it returns or raises. -/
def guard (m : ReferenceMonitor) (w : World) (effect : Effect) : ReferenceMonitor × Except String Decision :=
  match m.verdict w effect with
  | .error e => (m, .error e)
  | .ok decision => (m.record effect decision, .ok decision)

structure EnforcementResult where
  decision : Decision
  performed : Bool
  advisory : Bool
  deriving DecidableEq

/-- What a call leaves: the monitor, whether the executor was invoked, and the result. -/
structure Outcome where
  monitor : ReferenceMonitor
  invoked : Bool
  result : Except String EnforcementResult

/-- `enforce`; `execute` is what the executor returns or raises if it is invoked. -/
def enforce (m : ReferenceMonitor) (w : World) (effect : Effect) (execute : Except String Unit) : Outcome :=
  match m.guard w effect with
  | (after, .error e) => ⟨after, false, .error e⟩
  | (after, .ok decision) =>
    if m.enforced then
      if decision.effect = .allow then
        ⟨after, true, execute.map (fun _ => ⟨decision, true, false⟩)⟩
      else ⟨after, false, .ok ⟨decision, false, false⟩⟩
    else ⟨after, true, execute.map (fun _ => ⟨decision, true, true⟩)⟩

end ReferenceMonitor

/-- One call on a monitor. -/
inductive Call where
  | guard (w : World) (effect : Effect)
  | enforce (w : World) (effect : Effect) (execute : Except String Unit)

def Call.world : Call → World
  | .guard w _ => w
  | .enforce w _ _ => w

def Call.effect : Call → Effect
  | .guard _ effect => effect
  | .enforce _ effect _ => effect

def Call.enforces : Call → Bool
  | .guard _ _ => false
  | .enforce _ _ _ => true

namespace ReferenceMonitor

variable [WordChars]

/-- The monitor after a call, and whether the call invoked the executor. -/
def perform (m : ReferenceMonitor) : Call → ReferenceMonitor × Bool
  | .guard w effect => ((m.guard w effect).1, false)
  | .enforce w effect execute =>
    let outcome := m.enforce w effect execute
    (outcome.monitor, outcome.invoked)

/-- The monitor after calls one after another. -/
def run (m : ReferenceMonitor) (calls : List Call) : ReferenceMonitor :=
  calls.foldl (fun m call => (m.perform call).1) m

end ReferenceMonitor

end Onmc.Enforcement
