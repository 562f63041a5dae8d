import Onmc.DurableRuntime.Replay

/-! What one call does to the ledger: it is refused, it repeats a recorded command, or it
records one entry. The store's files follow these steps. -/
namespace Onmc.DurableRuntime

/-- The value an operation returns, read off the snapshot it leaves. -/
def Command.Reports (s : RunSnapshot) (value : Value) : Command → Prop
  | acquireLease nodeId _ _ | heartbeat nodeId _ _ =>
    ∃ node lease, s.nodes.lookup nodeId = some node ∧ node.lease = some lease ∧ value = .lease lease
  | recordRetry nodeId _ _ _ _ =>
    ∃ node retry, s.nodes.lookup nodeId = some node ∧ node.retry = some retry ∧ value = .retry retry
  | _ => value = .snapshot s

theorem retryOf_ok {s : RunSnapshot} {nodeId : String} {value : Value} (h : retryOf s nodeId = .ok value) :
    ∃ node retry, s.nodes.lookup nodeId = some node ∧ node.retry = some retry ∧ value = .retry retry := by
  obtain ⟨node, hn, h⟩ := Except.bind_ok.mp h
  split at h
  · cases h
  · rename_i retry hr
    cases h
    exact ⟨node, retry, nodeAt_ok hn, hr, rfl⟩

/-- What the method returns after its append is read off the new snapshot. -/
theorem result_reports {command : Command} {s : RunSnapshot} {value : Value}
    (h : command.result s = .ok value) : command.Reports s value := by
  cases command with
  | acquireLease nodeId owner ttlSeconds =>
    obtain ⟨node, hn, h⟩ := Except.bind_ok.mp h
    split at h
    · cases h
    · rename_i lease hl
      cases h
      exact ⟨node, lease, nodeAt_ok hn, hl, rfl⟩
  | heartbeat nodeId token ttlSeconds =>
    obtain ⟨node, hn, h⟩ := Except.bind_ok.mp h
    split at h
    · cases h
    · rename_i lease hl
      cases h
      exact ⟨node, lease, nodeAt_ok hn, hl, rfl⟩
  | recordRetry => exact retryOf_ok h
  | _ =>
    cases h
    rfl

variable [Sha256]

theorem done_reports {runId key : String} {clock : Clock} {s : RunSnapshot} {command : Command}
    {value : Value} (h : command.verdict runId key clock s = .ok (.done value)) :
    command.Reports s value := by
  cases command with
  | transitionRun target reason approvedBy =>
    rcases transitionRun_ok h with ⟨hv, _⟩ | ⟨hv, _⟩
    · cases hv
      rfl
    · cases hv
  | transitionNode nodeId target reason approvedBy =>
    obtain ⟨node, _, ⟨hv, _⟩ | ⟨hv, _⟩⟩ := transitionNode_ok h
    · cases hv
      rfl
    · cases hv
  | acquireLease nodeId owner ttlSeconds =>
    obtain ⟨node, hn, ⟨lease, hv, hl, _⟩ | ⟨_, _, _, _, _, _, hv⟩⟩ := acquireLease_ok h
    · cases hv
      exact ⟨node, lease, hn, hl, rfl⟩
    · cases hv
  | heartbeat nodeId token ttlSeconds =>
    obtain ⟨node, lease, hn, hl, ⟨hv, _⟩ | ⟨_, _, _, _, _, _, _, hv⟩⟩ := heartbeat_ok h
    · cases hv
      exact ⟨node, lease, hn, hl, rfl⟩
    · cases hv
  | releaseLease nodeId token =>
    rcases releaseLease_ok h with ⟨hv, _⟩ | ⟨_, _, _, _, _, _, hv⟩
    · cases hv
      rfl
    · cases hv
  | expireLeases =>
    rcases expireLeases_ok h with hv | ⟨_, _, hv, _⟩
    · cases hv
      rfl
    · cases hv
  | recordRetry nodeId classification reason baseDelay maxDelay =>
    obtain ⟨node, _, _, hn, _, ⟨retry, hv, hr, _⟩ | ⟨hv, _⟩⟩ := recordRetry_ok h
    · cases hv
      exact ⟨node, retry, hn, hr, rfl⟩
    · cases hv

/-- Reading the result back cannot fail: the change has just put it there. -/
theorem result_total {runId key : String} {clock : Clock} {s : RunSnapshot} {command : Command}
    {change : Change} (h : command.verdict runId key clock s = .ok (.append change)) (entry : Entry)
    (he : entry.change = change) : ∃ value, command.result (s.advance runId entry) = .ok value := by
  subst he
  cases command with
  | acquireLease nodeId owner ttlSeconds =>
    obtain ⟨node, hn, ⟨lease, hv, _⟩ | ⟨now, expiresAt, _, _, _, _, hv⟩⟩ := acquireLease_ok h
    · cases hv
    · have change := Verdict.append.inj hv
      have found : (s.advance runId entry).nodes.lookup nodeId = some { node with
          lease := some ⟨owner, s.nextToken runId nodeId owner key, now, now, expiresAt⟩ } := by
        simp [RunSnapshot.advance, change, Change.effect, RunSnapshot.progress, hn]
      simp [Command.result, nodeAt_some found, pure, Except.pure]
  | heartbeat nodeId token ttlSeconds =>
    obtain ⟨node, lease, hn, hl, ⟨hv, _⟩ | ⟨now, expiresAt, _, _, _, _, _, hv⟩⟩ := heartbeat_ok h
    · cases hv
    · have change := Verdict.append.inj hv
      have found : (s.advance runId entry).nodes.lookup nodeId = some (node.renewed now expiresAt) := by
        simp [RunSnapshot.advance, change, Change.effect, RunSnapshot.progress, hn]
      simp [Command.result, nodeAt_some found, NodeSnapshot.renewed, hl, pure, Except.pure]
  | recordRetry nodeId classification reason baseDelay maxDelay =>
    obtain ⟨node, backoffSeconds, notBefore, hn, _, ⟨retry, hv, _⟩ | ⟨hv, _⟩⟩ := recordRetry_ok h
    · cases hv
    · have change := Verdict.append.inj hv
      have found : (s.advance runId entry).nodes.lookup nodeId = some (node.retried
          ⟨node.attempts + 1, classification, decide (classification ≠ .permanent), backoffSeconds,
            notBefore, reason⟩) := by
        simp [RunSnapshot.advance, change, Change.effect, RunSnapshot.progress, hn]
      simp [Command.result, retryOf, nodeAt_some found, NodeSnapshot.retried, pure, Except.pure]
  | _ => exact ⟨_, rfl⟩

/-- One call of an operation on the snapshot alone. -/
def Operation.step (runId : String) (op : Operation) (clock : Clock) (s : RunSnapshot) :
    RunSnapshot × Outcome Value :=
  match op.validate with
  | .error e => (s, .error e)
  | .ok () =>
    match op.command.verdict runId op.key clock s with
    | .error e => (s, .error e)
    | .ok (.done value) => (s, .ok value)
    | .ok (.append change) =>
      match clock.stamp with
      | .error e => (s, .error e)
      | .ok occurredAt =>
        let updated := s.advance runId ⟨change, op.key, occurredAt⟩
        (updated, op.command.result updated)

/-- What a step can do to the snapshot: nothing, or one recorded change. -/
theorem step_cases {runId : String} {op : Operation} {clock : Clock} {s s' : RunSnapshot}
    {outcome : Outcome Value} (h : op.step runId clock s = (s', outcome)) :
    s' = s ∨ ∃ change occurredAt, op.validate = .ok () ∧ clock.stamp = .ok occurredAt ∧
      op.command.verdict runId op.key clock s = .ok (.append change) ∧
      s' = s.advance runId ⟨change, op.key, occurredAt⟩ := by
  unfold Operation.step at h
  split at h
  · cases h
    exact .inl rfl
  · rename_i valid
    split at h
    · cases h
      exact .inl rfl
    · cases h
      exact .inl rfl
    · rename_i change decided
      split at h
      · cases h
        exact .inl rfl
      · rename_i occurredAt stamped
        cases h
        exact .inr ⟨change, occurredAt, valid, stamped, decided, rfl⟩

/-- Only the transition methods write transitions, each its own. -/
theorem verdict_runTransition {runId key : String} {clock : Clock} {s : RunSnapshot} {command : Command}
    {source target : RunState} {reason approvedBy : Option String}
    (h : command.verdict runId key clock s = .ok (.append (.runTransition source target reason approvedBy))) :
    command = .transitionRun target reason approvedBy ∧ source = s.state ∧
      target ∈ runTransitions s.state ∧ (approvedBy ≠ none → s.state = .awaitingApproval) := by
  cases command with
  | transitionRun target' reason' approvedBy' =>
    rcases transitionRun_ok h with ⟨hv, _⟩ | ⟨hv, _, allowed, approved⟩
    · cases hv
    · cases hv
      exact ⟨rfl, rfl, allowed, approved⟩
  | transitionNode nodeId target' reason' approvedBy' =>
    obtain ⟨node, _, ⟨hv, _⟩ | ⟨hv, _⟩⟩ := transitionNode_ok h <;> cases hv
  | acquireLease nodeId owner ttlSeconds =>
    obtain ⟨node, hn, ⟨lease, hv, _⟩ | ⟨now, expiresAt, _, _, _, _, hv⟩⟩ := acquireLease_ok h <;> cases hv
  | heartbeat nodeId token ttlSeconds =>
    obtain ⟨node, lease, hn, hl, ⟨hv, _⟩ | ⟨now, expiresAt, _, _, _, _, _, hv⟩⟩ := heartbeat_ok h <;> cases hv
  | releaseLease nodeId token =>
    rcases releaseLease_ok h with ⟨hv, _⟩ | ⟨node, lease, hn, hl, ht, _, hv⟩ <;> cases hv
  | expireLeases =>
    rcases expireLeases_ok h with hv | ⟨nodeIds, now, hv, _⟩ <;> cases hv
  | recordRetry nodeId classification reason' baseDelay maxDelay =>
    obtain ⟨node, _, _, hn, _, ⟨retry, hv, _⟩ | ⟨hv, _⟩⟩ := recordRetry_ok h <;> cases hv

theorem verdict_nodeTransition {runId key : String} {clock : Clock} {s : RunSnapshot} {command : Command}
    {nodeId : String} {source target : NodeState} {reason approvedBy : Option String}
    (h : command.verdict runId key clock s =
      .ok (.append (.nodeTransition nodeId source target reason approvedBy))) :
    command = .transitionNode nodeId target reason approvedBy ∧
      ∃ node, s.nodes.lookup nodeId = some node ∧ source = node.state ∧
        target ∈ nodeTransitions node.state ∧ (approvedBy ≠ none → node.state = .awaitingApproval) := by
  cases command with
  | transitionRun target' reason' approvedBy' =>
    rcases transitionRun_ok h with ⟨hv, _⟩ | ⟨hv, _⟩ <;> cases hv
  | transitionNode nodeId target' reason' approvedBy' =>
    obtain ⟨node, hn, ⟨hv, _⟩ | ⟨hv, _, allowed, approved⟩⟩ := transitionNode_ok h
    · cases hv
    · cases hv
      exact ⟨rfl, node, hn, rfl, allowed, approved⟩
  | acquireLease nodeId owner ttlSeconds =>
    obtain ⟨node, hn, ⟨lease, hv, _⟩ | ⟨now, expiresAt, _, _, _, _, hv⟩⟩ := acquireLease_ok h <;> cases hv
  | heartbeat nodeId token ttlSeconds =>
    obtain ⟨node, lease, hn, hl, ⟨hv, _⟩ | ⟨now, expiresAt, _, _, _, _, _, hv⟩⟩ := heartbeat_ok h <;> cases hv
  | releaseLease nodeId token =>
    rcases releaseLease_ok h with ⟨hv, _⟩ | ⟨node, lease, hn, hl, ht, _, hv⟩ <;> cases hv
  | expireLeases =>
    rcases expireLeases_ok h with hv | ⟨nodeIds, now, hv, _⟩ <;> cases hv
  | recordRetry nodeId classification reason' baseDelay maxDelay =>
    obtain ⟨node, _, _, hn, _, ⟨retry, hv, _⟩ | ⟨hv, _⟩⟩ := recordRetry_ok h <;> cases hv

/-- Why an operation raises: its arguments, the run's state, or the clock. -/
def Refuses (runId : String) (s : RunSnapshot) (op : Operation) (clock : Clock) (e : Raised) : Prop :=
  op.validate = .error e ∨
  (op.validate = .ok () ∧ op.command.verdict runId op.key clock s = .error e) ∨
  (op.validate = .ok () ∧ clock.stamp = .error e ∧
    ∃ change, op.command.verdict runId op.key clock s = .ok (.append change))

/-- One call of an operation, seen from the ledger. -/
inductive Acts {runId : String} (l : RunLedger runId) (op : Operation) (clock : Clock) :
    RunLedger runId → Outcome Value → Prop
  | refused (e : Raised) (why : Refuses runId l.state op clock e) : Acts l op clock l (.error e)
  | repeated (value : Value) (valid : op.validate = .ok ())
      (decided : op.command.verdict runId op.key clock l.state = .ok (.done value)) :
      Acts l op clock l (.ok value)
  | recorded (change : Change) (occurredAt : DateTime) (value : Value) (valid : op.validate = .ok ())
      (decided : op.command.verdict runId op.key clock l.state = .ok (.append change))
      (stamped : clock.stamp = .ok occurredAt)
      (result : op.command.result (l.state.advance runId ⟨change, op.key, occurredAt⟩) = .ok value) :
      Acts l op clock
        (record l ⟨change, op.key, occurredAt⟩ (verdict_fits decided).1 (verdict_fits decided).2) (.ok value)

/-- A step of the ledger is a step of its snapshot. -/
theorem acts_step {runId : String} {l l' : RunLedger runId} {op : Operation} {clock : Clock}
    {outcome : Outcome Value} (h : Acts l op clock l' outcome) :
    op.step runId clock l.state = (l'.state, outcome) := by
  cases h with
  | refused e why =>
    rcases why with hv | ⟨hv, hd⟩ | ⟨hv, hs, change, hd⟩
    · simp only [Operation.step, hv]
    · simp only [Operation.step, hv, hd]
    · simp only [Operation.step, hv, hd, hs]
  | repeated value valid decided => simp only [Operation.step, valid, decided]
  | recorded change occurredAt value valid decided stamped result =>
    simp only [Operation.step, valid, decided, stamped, result, record_state]

theorem acts_valid {runId : String} {l l' : RunLedger runId} {op : Operation} {clock : Clock}
    {value : Value} (h : Acts l op clock l' (.ok value)) : op.validate = .ok () := by
  cases h with
  | repeated _ valid => exact valid
  | recorded _ _ _ valid => exact valid

/-- A repeat leaves the ledger alone. -/
theorem acts_done {runId : String} {l l' : RunLedger runId} {op : Operation} {clock : Clock}
    {outcome : Outcome Value} (h : Acts l op clock l' outcome) (valid : op.validate = .ok ())
    {value : Value} (decided : op.command.verdict runId op.key clock l.state = .ok (.done value)) :
    l' = l ∧ outcome = .ok value := by
  cases h with
  | refused e why =>
    rcases why with hv | ⟨_, hd⟩ | ⟨_, _, change, hd⟩
    · cases valid.symm.trans hv
    · cases decided.symm.trans hd
    · cases decided.symm.trans hd
  | repeated value' valid' decided' =>
    cases decided.symm.trans decided'
    exact ⟨rfl, rfl⟩
  | recorded change occurredAt value' valid' decided' =>
    cases decided.symm.trans decided'

theorem appendUnlocked_unstamped {runId : String} {s : RunSnapshot} {change : Change} {key : String}
    {dir : RunDir} {e : Raised} (h : key ≠ "") :
    appendUnlocked runId (some s) change key (.error e) dir = (dir, .error e) := by
  simp only [appendUnlocked, if_neg h]

/-- The store refines the ledger: a call on files that hold a ledger is a step of the ledger. It
leaves the files of the result, or leaves them alone when its arguments are refused. -/
theorem call_acts {runId : String} {dir : RunDir} {l : RunLedger runId} (h : Holds runId dir l)
    (op : Operation) (clock : Clock) :
    ∃ l', Acts l op clock l' (op.call runId clock dir).2 ∧
      ((op.call runId clock dir).1 = filesOf l' ∨ ((op.call runId clock dir).1 = dir ∧ l' = l)) := by
  cases hvalid : op.validate with
  | error e =>
    have call : op.call runId clock dir = (dir, .error e) := by
      simp only [Operation.call, hvalid]
    rw [call]
    exact ⟨l, .refused e (.inl hvalid), .inr ⟨rfl, rfl⟩⟩
  | ok u =>
    cases hverdict : op.command.verdict runId op.key clock l.state with
    | error e =>
      have call : op.call runId clock dir = (filesOf l, .error e) := by
        simp [Operation.call, hvalid, h.created, h.loadUnlocked, hverdict]
      rw [call]
      exact ⟨l, .refused e (.inr (.inl ⟨hvalid, hverdict⟩)), .inl rfl⟩
    | ok verdict =>
      cases verdict with
      | done value =>
        have call : op.call runId clock dir = (filesOf l, .ok value) := by
          simp [Operation.call, hvalid, h.created, h.loadUnlocked, hverdict]
        rw [call]
        exact ⟨l, .repeated value hvalid hverdict, .inl rfl⟩
      | append change =>
        have new := (verdict_fits hverdict).2
        cases hstamp : clock.stamp with
        | error e =>
          have call : op.call runId clock dir = (filesOf l, .error e) := by
            simp [Operation.call, hvalid, h.created, h.loadUnlocked, hverdict, hstamp,
              appendUnlocked_unstamped new.1]
          rw [call]
          exact ⟨l, .refused e (.inr (.inr ⟨hvalid, hstamp, change, hverdict⟩)), .inl rfl⟩
        | ok occurredAt =>
          obtain ⟨value, hvalue⟩ := result_total hverdict ⟨change, op.key, occurredAt⟩ rfl
          have written := appendUnlocked_record l ⟨change, op.key, occurredAt⟩
            (verdict_fits hverdict).1 new
          simp only at written
          have call : op.call runId clock dir = (filesOf (record l ⟨change, op.key, occurredAt⟩
              (verdict_fits hverdict).1 new), .ok value) := by
            simp [Operation.call, hvalid, h.created, h.loadUnlocked, hverdict, hstamp, written, hvalue]
          rw [call]
          exact ⟨_, .recorded change occurredAt value hvalid hverdict hstamp hvalue, .inl rfl⟩

end Onmc.DurableRuntime
