import Onmc.Enforcement.Monitor

/-! What the reference monitor keeps, call after call: who gets to run, what the verdict depends on,
and what is written down. -/
namespace Onmc.Enforcement

open Onmc.ToolBroker

variable [Platform]

namespace ReferenceMonitor

/-- The monitor without what it has written down so far. -/
def withTrace (m : ReferenceMonitor) (trace : List DecisionRecord) : ReferenceMonitor := { m with trace := trace }

@[simp] theorem withTrace_trace (m : ReferenceMonitor) (trace : List DecisionRecord) :
    (m.withTrace trace).trace = trace := rfl

@[simp] theorem withTrace_verdict (m : ReferenceMonitor) (trace : List DecisionRecord) (w : World) (effect : Effect) :
    (m.withTrace trace).verdict w effect = m.verdict w effect := rfl

/-- The network layer has nothing against the action. -/
def Permits (m : ReferenceMonitor) (action : Action) : Prop :=
  action.actionType = .network → m.egressAllowed action.host action.port = true

/-- The layers allow what the broker allows, the network permits and needs no approval. -/
theorem layered_allow (m : ReferenceMonitor) (effect : Effect) (decision : Decision) :
    (m.layered effect decision).effect = .allow ↔
      decision.effect = .allow ∧ m.Permits effect.action ∧ effect.requiresApproval = false := by
  unfold layered Permits
  by_cases network : effect.action.actionType = .network <;>
    by_cases permitted : m.egressAllowed effect.action.host effect.action.port = true <;>
    by_cases approval : effect.requiresApproval = true <;>
    cases verdict : decision.effect <;> simp_all

theorem layered_deny (m : ReferenceMonitor) (effect : Effect) {decision : Decision}
    (denied : decision.effect = .deny) : m.layered effect decision = decision := by
  simp [layered, denied]

variable [WordChars]

@[simp] theorem withTrace_recordOf (m : ReferenceMonitor) (trace : List DecisionRecord) (effect : Effect)
    (decision : Decision) : (m.withTrace trace).recordOf effect decision = m.recordOf effect decision := rfl

/-- What a call writes down: one record, unless the broker raises. -/
def recorded (m : ReferenceMonitor) (call : Call) : List DecisionRecord :=
  match m.verdict call.world call.effect with
  | .ok decision => [m.recordOf call.effect decision]
  | .error _ => []

/-- Whether the call invokes the executor. -/
def invokes (m : ReferenceMonitor) (call : Call) : Bool :=
  match m.verdict call.world call.effect with
  | .ok decision => call.enforces && (!m.enforced || decision.effect = .allow)
  | .error _ => false

/-- All that a call does, also where the executor raises. -/
theorem perform_eq (m : ReferenceMonitor) (call : Call) :
    m.perform call = (m.withTrace (m.trace ++ m.recorded call), m.invokes call) := by
  cases call with
  | guard w effect =>
    cases verdict : m.verdict w effect with
    | error e =>
      simp only [perform, guard, recorded, invokes, Call.world, Call.effect, verdict, List.append_nil]
      rfl
    | ok decision => simp [perform, guard, recorded, invokes, Call.world, Call.effect, Call.enforces, verdict,
        record, withTrace]
  | enforce w effect execute =>
    cases verdict : m.verdict w effect with
    | error e =>
      simp only [perform, enforce, guard, recorded, invokes, Call.world, Call.effect, verdict, List.append_nil]
      rfl
    | ok decision =>
      simp only [perform, enforce, guard, recorded, invokes, Call.world, Call.effect, Call.enforces, verdict]
      cases m.enforced with
      | false => simp [record, withTrace]
      | true => by_cases allowed : decision.effect = .allow <;> simp [allowed, record, withTrace]

/-- A run writes down what its calls do, in order, and leaves the rest of the monitor alone. -/
theorem run_eq (m : ReferenceMonitor) (calls : List Call) :
    m.run calls = m.withTrace (m.trace ++ calls.flatMap m.recorded) := by
  induction calls generalizing m with
  | nil => simp [run, withTrace]
  | cons call calls ih =>
    have step : m.run (call :: calls) = (m.perform call).1.run calls := rfl
    rw [step, perform_eq, ih]
    have same : (m.withTrace (m.trace ++ m.recorded call)).recorded = m.recorded := rfl
    rw [same, List.flatMap_cons, withTrace_trace, List.append_assoc]
    rfl

/-- Every verdict of a run, and whether the executor was invoked. -/
def outcomes (m : ReferenceMonitor) : List Call → List (Except String Decision × Bool)
  | [] => []
  | call :: calls =>
    (m.verdict call.world call.effect, (m.perform call).2) :: outcomes (m.perform call).1 calls

theorem outcomes_eq (m : ReferenceMonitor) (calls : List Call) :
    m.outcomes calls = calls.map (fun call => (m.verdict call.world call.effect, m.invokes call)) := by
  suffices ∀ trace, (m.withTrace trace).outcomes calls =
      calls.map (fun call => (m.verdict call.world call.effect, m.invokes call)) from this m.trace
  induction calls with
  | nil => exact fun _ => rfl
  | cons call calls ih =>
    intro trace
    rw [outcomes, perform_eq, List.map_cons]
    exact congrArg _ (ih _)

end ReferenceMonitor

/-- Two calls that differ at most in provenance labels and secret handles. -/
structure Alike (call other : Call) : Prop where
  world : call.world = other.world
  action : call.effect.action = other.effect.action
  approval : call.effect.requiresApproval = other.effect.requiresApproval
  enforces : call.enforces = other.enforces

theorem Alike.verdict {call other : Call} (alike : Alike call other) (m : ReferenceMonitor) :
    m.verdict call.world call.effect = m.verdict other.world other.effect := by
  have layers : m.layered call.effect = m.layered other.effect := by
    funext decision
    simp only [ReferenceMonitor.layered, alike.action, alike.approval]
  simp only [ReferenceMonitor.verdict, alike.world, alike.action, layers]

variable [WordChars]

/-- What a call of the monitor keeps. -/
structure Keeps (m : ReferenceMonitor) (call : Call) : Prop where
  /-- In enforced mode the executor runs exactly when every layer agrees. -/
  invoked : m.enforced = true → ((m.perform call).2 = true ↔ call.enforces = true ∧ ∃ decision,
    brokerDecides m.broker call.world call.effect.action m.tokens m.subject = .ok decision ∧
      decision.effect = .allow ∧ m.Permits call.effect.action ∧ call.effect.requiresApproval = false)
  /-- A deny of the broker stays one. -/
  denied : ∀ decision, brokerDecides m.broker call.world call.effect.action m.tokens m.subject = .ok decision →
    decision.effect = .deny → m.verdict call.world call.effect = .ok decision ∧
      (m.enforced = true → (m.perform call).2 = false)
  /-- Every verdict adds one record, whatever the executor does. -/
  recorded : ∀ decision, m.verdict call.world call.effect = .ok decision →
    (m.perform call).1.trace = m.trace ++ [m.recordOf call.effect decision]
  /-- No secret of the monitor that the marker does not spell is in the record's text. -/
  redacted : ∀ decision, ∀ secret ∈ m.secretValues, Masking.Apart secret.toList Redaction.redacted →
    ¬secret.toList <:+: (m.recordOf call.effect decision).resource.toList
  /-- Where the broker raises, so does the call, and nothing has happened. -/
  raised : ∀ e, brokerDecides m.broker call.world call.effect.action m.tokens m.subject = .error e →
    m.verdict call.world call.effect = .error e ∧ m.perform call = (m, false)

theorem keeps (m : ReferenceMonitor) (call : Call) : Keeps m call := by
  have performed := m.perform_eq call
  have verdict : m.verdict call.world call.effect =
      (brokerDecides m.broker call.world call.effect.action m.tokens m.subject).map (m.layered call.effect) := rfl
  have invoked : m.enforced = true → ((m.perform call).2 = true ↔ call.enforces = true ∧ ∃ decision,
      brokerDecides m.broker call.world call.effect.action m.tokens m.subject = .ok decision ∧
        decision.effect = .allow ∧ m.Permits call.effect.action ∧ call.effect.requiresApproval = false) := by
    intro enforced
    rw [performed]
    simp only [ReferenceMonitor.invokes, verdict, enforced]
    cases brokerDecides m.broker call.world call.effect.action m.tokens m.subject with
    | error e => simp [Except.map]
    | ok decision => simp [Except.map, m.layered_allow call.effect decision]
  refine ⟨invoked, ?_, ?_, ?_, ?_⟩
  · intro decision decided denied
    refine ⟨?_, ?_⟩
    · rw [verdict, decided, Except.map, m.layered_deny call.effect denied]
    · intro enforced
      rw [← Bool.not_eq_true, invoked enforced]
      rintro ⟨-, other, again, allowed, -⟩
      rw [decided] at again
      rw [← Except.ok.inj again, denied] at allowed
      cases allowed
  · intro decision decided
    rw [performed]
    simp [ReferenceMonitor.recorded, decided]
  · intro decision secret known apart
    exact Redaction.not_infix_redactSecrets known apart _
  · intro e raised
    have failed : m.verdict call.world call.effect = .error e := by
      rw [verdict, raised]
      rfl
    refine ⟨failed, ?_⟩
    rw [performed]
    simp only [ReferenceMonitor.recorded, ReferenceMonitor.invokes, failed, List.append_nil]
    rfl

/-- Over any run of guard and enforce calls: each call keeps what it is asked to, the verdicts do not
depend on labels or secret handles, and the trace is one record for each verdict, in order. -/
theorem monitor_keeps (m : ReferenceMonitor) :
    (∀ before call, Keeps (m.run before) call) ∧
    (∀ calls others, List.Forall₂ Alike calls others → m.outcomes calls = m.outcomes others) ∧
    ∀ calls, (m.run calls).trace = m.trace ++ calls.flatMap m.recorded := by
  refine ⟨fun before call => keeps _ call, ?_, ?_⟩
  · intro calls others alike
    rw [m.outcomes_eq, m.outcomes_eq]
    induction alike with
    | nil => rfl
    | cons first _ ih =>
      have invokes := first.verdict m
      rw [List.map_cons, List.map_cons, ih]
      simp only [ReferenceMonitor.invokes, invokes, first.enforces]
  · intro calls
    rw [m.run_eq]
    rfl

end Onmc.Enforcement

/-! A broker whose clock has no time zone. -/
namespace Onmc.Enforcement

open Onmc.ToolBroker

attribute [local instance] bareMachine WordChars.ascii

def silentMonitor : ReferenceMonitor := ⟨⟨⟨[], List.nodup_nil⟩, sampleAuthority⟩, true, [], none, [], [], []⟩

def listing : Effect :=
  ⟨⟨.command, "execute", "", ["ls"], none, none, none, none, false, []⟩, fun _ => false, [], false⟩

/-- The broker raises before it decides, so that the call leaves no record. -/
theorem naive_clock_unrecorded : (silentMonitor.guard ⟨.naive, none⟩ listing).1.trace.length ≠
    silentMonitor.trace.length + 1 := by
  have raised := (keeps silentMonitor (.guard ⟨.naive, none⟩ listing)).raised _ rfl
  have same : (silentMonitor.guard ⟨.naive, none⟩ listing).1 = silentMonitor := congrArg Prod.fst raised.2
  rw [same]
  exact Nat.ne_of_lt (Nat.lt_succ_self _)

end Onmc.Enforcement
