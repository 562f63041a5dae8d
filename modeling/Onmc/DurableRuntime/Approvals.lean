import Onmc.DurableRuntime.Leases

/-! The approval gate. `start` and `resume` share their target state with `approve`, and only the
latter asks where the run stands: a run or a node that awaits approval can be started or resumed
past the gate. Without such calls every passage is an approval. -/
namespace Onmc.DurableRuntime

/-- Does an event move the run out of its approval gate? -/
def passesRun (event : Event) : Bool :=
  event.eventType = EventKind.runTransition.value ∧
    (event.payload.get? "from").bind str? = some RunState.awaitingApproval.value ∧
    (event.payload.get? "to").bind str? = some RunState.running.value

def passesNode (nodeId : String) (event : Event) : Bool :=
  event.eventType = EventKind.nodeTransition.value ∧
    (event.payload.get? "node_id").bind str? = some nodeId ∧
    (event.payload.get? "from").bind str? = some NodeState.awaitingApproval.value ∧
    (event.payload.get? "to").bind str? = some NodeState.running.value

/-- Does an event record an approval of the node? -/
def approvesNode (nodeId : String) (event : Event) : Bool :=
  event.eventType = EventKind.nodeTransition.value ∧
    (event.payload.get? "node_id").bind str? = some nodeId ∧ (approverOf event.payload).isSome

namespace Change

def passesRun : Change → Bool
  | runTransition source target _ _ => source = .awaitingApproval ∧ target = .running
  | _ => false

def approvesRun : Change → Bool
  | runTransition _ _ _ approvedBy => (approver approvedBy).isSome
  | _ => false

def passesNode (nodeId : String) : Change → Bool
  | nodeTransition moved source target _ _ =>
    moved = nodeId ∧ source = .awaitingApproval ∧ target = .running
  | _ => false

def approvesNode (nodeId : String) : Change → Bool
  | nodeTransition moved _ _ _ approvedBy => moved = nodeId ∧ (approver approvedBy).isSome
  | _ => false

end Change

variable [Sha256]

theorem passesRun_event (runId : String) (snapshot : Option RunSnapshot) (entry : Entry) :
    passesRun (entry.event runId snapshot).sorted = entry.change.passesRun := by
  obtain ⟨change, key, occurredAt⟩ := entry
  cases change with
  | runTransition source target reason approvedBy =>
    have from_ : ((Change.runTransition source target reason approvedBy).payload.canonical.get? "from").bind
        str? = some source.value := by
      rw [Json.get?_canonical]
      simp [Change.payload, Json.get?]
    have to_ : ((Change.runTransition source target reason approvedBy).payload.canonical.get? "to").bind
        str? = some target.value := by
      rw [Json.get?_canonical]
      simp [Change.payload, Json.get?, List.lookup_cons]
    have source_ : source.value = RunState.awaitingApproval.value ↔ source = .awaitingApproval :=
      ⟨RunState.value_inj, congrArg _⟩
    have target_ : target.value = RunState.running.value ↔ target = .running :=
      ⟨RunState.value_inj, congrArg _⟩
    simp only [passesRun, Event.sorted, Entry.event, Change.kind, true_and, from_, to_, Option.some.injEq,
      source_, target_, Change.passesRun]
  | _ => simp [passesRun, Event.sorted, Entry.event, Change.kind, EventKind.value, Change.passesRun]

omit [Sha256] in
theorem node_fields (nodeId : String) (source target : NodeState) (reason approvedBy : Option String) :
    let payload := (Change.nodeTransition nodeId source target reason approvedBy).payload.canonical
    (payload.get? "node_id").bind str? = some nodeId ∧ (payload.get? "from").bind str? = some source.value ∧
      (payload.get? "to").bind str? = some target.value ∧ approverOf payload = approver approvedBy := by
  refine ⟨?_, ?_, ?_, ?_⟩
  · rw [Json.get?_canonical]
    simp [Change.payload, Json.get?]
  · rw [Json.get?_canonical]
    simp [Change.payload, Json.get?, List.lookup_cons]
  · rw [Json.get?_canonical]
    simp [Change.payload, Json.get?, List.lookup_cons]
  · rw [approverOf_canonical]
    exact approverOf_field _ approvedBy rfl

theorem passesNode_event (nodeId runId : String) (snapshot : Option RunSnapshot) (entry : Entry) :
    passesNode nodeId (entry.event runId snapshot).sorted = entry.change.passesNode nodeId := by
  obtain ⟨change, key, occurredAt⟩ := entry
  cases change with
  | nodeTransition moved source target reason approvedBy =>
    obtain ⟨node, from_, to_, _⟩ := node_fields moved source target reason approvedBy
    have source_ : source.value = NodeState.awaitingApproval.value ↔ source = .awaitingApproval :=
      ⟨NodeState.value_inj, congrArg _⟩
    have target_ : target.value = NodeState.running.value ↔ target = .running :=
      ⟨NodeState.value_inj, congrArg _⟩
    simp only [passesNode, Event.sorted, Entry.event, Change.kind, true_and, node, from_, to_,
      Option.some.injEq, source_, target_, Change.passesNode]
  | _ => simp [passesNode, Event.sorted, Entry.event, Change.kind, EventKind.value, Change.passesNode]

theorem approvesNode_event (nodeId runId : String) (snapshot : Option RunSnapshot) (entry : Entry) :
    approvesNode nodeId (entry.event runId snapshot).sorted = entry.change.approvesNode nodeId := by
  obtain ⟨change, key, occurredAt⟩ := entry
  cases change with
  | nodeTransition moved source target reason approvedBy =>
    obtain ⟨node, _, _, by_⟩ := node_fields moved source target reason approvedBy
    simp only [approvesNode, Event.sorted, Entry.event, Change.kind, true_and, node, by_,
      Option.some.injEq, Change.approvesNode]
  | _ => simp [approvesNode, Event.sorted, Entry.event, Change.kind, EventKind.value, Change.approvesNode]

/-- A test of events that is a test of their entries counts alike in the log and the ledger. -/
theorem countP_log {runId : String} {snapshot : Option RunSnapshot} {entries : List Entry}
    {visited : List RunSnapshot} (len : visited.length = entries.length) (test : Event → Bool)
    (mirror : Change → Bool)
    (same : ∀ snapshot entry, test (Entry.event runId snapshot entry).sorted = mirror entry.change) :
    ((logEvents runId snapshot entries visited).map Event.sorted).countP test =
      (entries.map Entry.change).countP mirror := by
  induction entries generalizing snapshot visited with
  | nil =>
    cases visited with
    | nil => rfl
    | cons s visited => cases len
  | cons entry entries ih =>
    cases visited with
    | nil => cases len
    | cons s visited =>
      have tail := @ih (some s) visited (Nat.succ.inj len)
      simp only [logEvents, List.map_cons, List.countP_cons, same, tail]

/-! One call. -/

/-- Only an approval moves the run, or a node, out of its gate. -/
structure OnlyApprovals (runId : String) (dir : RunDir) (op : Operation) (clock : Clock) : Prop where
  run : ∀ s s', (load runId dir).2 = .ok s → (load runId (op.call runId clock dir).1).2 = .ok s' →
    s.state = .awaitingApproval → s'.state = .running → ∃ approvedBy key, op = .approve approvedBy key
  node : ∀ s s' nodeId node node', (load runId dir).2 = .ok s →
    (load runId (op.call runId clock dir).1).2 = .ok s' → s.nodes.lookup nodeId = some node →
    s'.nodes.lookup nodeId = some node' → node.state = .awaitingApproval → node'.state = .running →
    ∃ approvedBy key, op = .approveNode nodeId approvedBy key

/-- A start or resume that takes effect on a run, or a node, that awaits approval. -/
def Bypasses (runId : String) (dir : RunDir) (clock : Clock) : Operation → Prop
  | .start key | .resume key => ∃ s occurredAt, (load runId dir).2 = .ok s ∧
      clock.stamp = .ok occurredAt ∧ s.Unused key ∧ s.state = .awaitingApproval
  | .startNode nodeId key | .resumeNode nodeId key => ∃ s occurredAt node, (load runId dir).2 = .ok s ∧
      clock.stamp = .ok occurredAt ∧ s.Unused key ∧ s.nodes.lookup nodeId = some node ∧
      node.state = .awaitingApproval
  | _ => False

/-- The same on the snapshot. -/
def RunSnapshot.Bypassed (s : RunSnapshot) (clock : Clock) : Operation → Prop
  | .start key | .resume key =>
      ∃ occurredAt, clock.stamp = .ok occurredAt ∧ s.Unused key ∧ s.state = .awaitingApproval
  | .startNode nodeId key | .resumeNode nodeId key => ∃ occurredAt node, clock.stamp = .ok occurredAt ∧
      s.Unused key ∧ s.nodes.lookup nodeId = some node ∧ node.state = .awaitingApproval
  | _ => False

omit [Sha256] in
/-- The public operations behind a run transition to RUNNING. -/
theorem command_running {op : Operation} {reason approvedBy : Option String}
    (h : op.command = .transitionRun .running reason approvedBy) :
    (∃ key, (op = .start key ∨ op = .resume key) ∧ approvedBy = none) ∨
      ∃ by_ key, op = .approve by_ key ∧ approvedBy = some by_ := by
  cases op with
  | start key =>
    cases h
    exact .inl ⟨key, .inl rfl, rfl⟩
  | resume key =>
    cases h
    exact .inl ⟨key, .inr rfl, rfl⟩
  | approve by_ key =>
    cases h
    exact .inr ⟨by_, key, rfl, rfl⟩
  | _ => cases h

omit [Sha256] in
theorem command_nodeRunning {op : Operation} {nodeId : String} {reason approvedBy : Option String}
    (h : op.command = .transitionNode nodeId .running reason approvedBy) :
    (∃ key, (op = .startNode nodeId key ∨ op = .resumeNode nodeId key) ∧ approvedBy = none) ∨
      ∃ by_ key, op = .approveNode nodeId by_ key ∧ approvedBy = some by_ := by
  cases op with
  | startNode moved key =>
    cases h
    exact .inl ⟨key, .inl rfl, rfl⟩
  | resumeNode moved key =>
    cases h
    exact .inl ⟨key, .inr rfl, rfl⟩
  | approveNode moved by_ key =>
    cases h
    exact .inr ⟨by_, key, rfl, rfl⟩
  | _ => cases h

omit [Sha256] in
/-- Only the two approvals name an approver, and they aim at RUNNING. -/
theorem command_approver {op : Operation} {target : RunState} {reason : Option String} {by_ : String}
    (h : op.command = .transitionRun target reason (some by_)) :
    target = .running ∧ ∃ key, op = .approve by_ key := by
  cases op with
  | approve approvedBy key =>
    cases h
    exact ⟨rfl, key, rfl⟩
  | _ => cases h

omit [Sha256] in
theorem command_nodeApprover {op : Operation} {nodeId : String} {target : NodeState} {reason : Option String}
    {by_ : String} (h : op.command = .transitionNode nodeId target reason (some by_)) :
    target = .running ∧ ∃ key, op = .approveNode nodeId by_ key := by
  cases op with
  | approveNode moved approvedBy key =>
    cases h
    exact ⟨rfl, key, rfl⟩
  | _ => cases h

/-- The run leaves its gate only through an approval or a bypass. -/
theorem step_run_gate {runId : String} {op : Operation} {clock : Clock} {s s' : RunSnapshot}
    {outcome : Outcome Value} (h : op.step runId clock s = (s', outcome))
    (awaiting : s.state = .awaitingApproval) (running : s'.state = .running) :
    (∃ approvedBy key, op = .approve approvedBy key) ∨ s.Bypassed clock op := by
  rcases step_cases h with rfl | ⟨change, occurredAt, valid, stamped, decided, rfl⟩
  · rw [awaiting] at running
    cases running
  · rcases effect_state occurredAt s.progress change with same | ⟨source, target, reason, by_, rfl, moved⟩
    · have kept : s.state = .running := same.symm.trans running
      rw [awaiting] at kept
      cases kept
    · have target_ : target = .running := moved.symm.trans running
      subst target_
      obtain ⟨command, _, _, _⟩ := verdict_runTransition decided
      have unused := (verdict_fits decided).2
      rcases command_running command with ⟨key, rfl | rfl, _⟩ | ⟨approvedBy, key, rfl, _⟩
      · exact .inr ⟨occurredAt, stamped, unused, awaiting⟩
      · exact .inr ⟨occurredAt, stamped, unused, awaiting⟩
      · exact .inl ⟨approvedBy, key, rfl⟩

theorem step_node_gate {runId : String} {op : Operation} {clock : Clock} {s s' : RunSnapshot}
    {outcome : Outcome Value} (h : op.step runId clock s = (s', outcome)) {nodeId : String}
    {node node' : NodeSnapshot} (found : s.nodes.lookup nodeId = some node)
    (found' : s'.nodes.lookup nodeId = some node') (awaiting : node.state = .awaitingApproval)
    (running : node'.state = .running) :
    (∃ approvedBy key, op = .approveNode nodeId approvedBy key) ∨ s.Bypassed clock op := by
  rcases step_cases h with rfl | ⟨change, occurredAt, valid, stamped, decided, rfl⟩
  · cases found.symm.trans found'
    rw [awaiting] at running
    cases running
  · obtain ⟨before, hb, same | ⟨source, target, reason, by_, rfl, moved⟩ | ⟨_, _, _, _, cancelled, _⟩⟩ :=
      effect_nodeState occurredAt s.progress change found'
    · cases found.symm.trans hb
      rw [running, awaiting] at same
      cases same
    · have target_ : target = .running := moved.symm.trans running
      subst target_
      obtain ⟨command, _⟩ := verdict_nodeTransition decided
      have unused := (verdict_fits decided).2
      rcases command_nodeRunning command with ⟨key, rfl | rfl, _⟩ | ⟨approvedBy, key, rfl, _⟩
      · exact .inr ⟨occurredAt, node, stamped, unused, found, awaiting⟩
      · exact .inr ⟨occurredAt, node, stamped, unused, found, awaiting⟩
      · exact .inl ⟨approvedBy, key, rfl⟩
    · rw [running] at cancelled
      cases cancelled

/-- Each recorded passage is an approval and each approval a passage, without a bypass. -/
theorem change_balanced {runId : String} {op : Operation} {clock : Clock} {s : RunSnapshot}
    {change : Change} {occurredAt : DateTime} (valid : op.validate = .ok ())
    (stamped : clock.stamp = .ok occurredAt)
    (decided : op.command.verdict runId op.key clock s = .ok (.append change))
    (clear : ¬ s.Bypassed clock op) :
    change.passesRun = change.approvesRun ∧
      ∀ nodeId, change.passesNode nodeId = change.approvesNode nodeId := by
  have unused := (verdict_fits decided).2
  cases change with
  | runTransition source target reason approvedBy =>
    obtain ⟨command, rfl, _, approved⟩ := verdict_runTransition decided
    refine ⟨?_, fun _ => rfl⟩
    cases approvedBy with
    | none =>
      simp only [Change.passesRun, Change.approvesRun, approver, Option.isSome_none, decide_eq_false_iff_not]
      rintro ⟨awaiting, rfl⟩
      rcases command_running command with ⟨key, rfl | rfl, _⟩ | ⟨by_, key, rfl, named⟩
      · exact clear ⟨occurredAt, stamped, unused, awaiting⟩
      · exact clear ⟨occurredAt, stamped, unused, awaiting⟩
      · cases named
    | some by_ =>
      obtain ⟨rfl, key, rfl⟩ := command_approver command
      have named : ¬ by_ = "" := raiseIf_ok.mp valid
      simp [Change.passesRun, Change.approvesRun, approver, named, approved (by simp)]
  | nodeTransition moved source target reason approvedBy =>
    obtain ⟨command, node, found, rfl, _, approved⟩ := verdict_nodeTransition decided
    refine ⟨rfl, ?_⟩
    intro nodeId
    cases approvedBy with
    | none =>
      simp only [Change.passesNode, Change.approvesNode, approver, Option.isSome_none, Bool.false_eq_true,
        and_false, decide_false, decide_eq_false_iff_not]
      rintro ⟨_, awaiting, rfl⟩
      rcases command_nodeRunning command with ⟨key, rfl | rfl, _⟩ | ⟨by_, key, rfl, named⟩
      · exact clear ⟨occurredAt, node, stamped, unused, found, awaiting⟩
      · exact clear ⟨occurredAt, node, stamped, unused, found, awaiting⟩
      · cases named
    | some by_ =>
      obtain ⟨rfl, key, rfl⟩ := command_nodeApprover command
      have named : ¬ by_ = "" := raiseIf_ok.mp valid
      simp [Change.passesNode, Change.approvesNode, approver, named, approved (by simp)]
  | _ => exact ⟨rfl, fun _ => rfl⟩

/-- A bypass takes effect. -/
theorem bypassed_step (runId : String) {op : Operation} {clock : Clock} {s : RunSnapshot}
    (h : s.Bypassed clock op) :
    (∃ key, (op = .start key ∨ op = .resume key) ∧ s.state = .awaitingApproval ∧
      (op.step runId clock s).1.state = .running) ∨
    (∃ nodeId key node node', (op = .startNode nodeId key ∨ op = .resumeNode nodeId key) ∧
      s.nodes.lookup nodeId = some node ∧ node.state = .awaitingApproval ∧
      (op.step runId clock s).1.nodes.lookup nodeId = some node' ∧ node'.state = .running) := by
  have run : ∀ key, s.Unused key → s.state = .awaitingApproval →
      transitionRun s .running none none key = .ok (.append (.runTransition s.state .running none none)) := by
    intro key unused awaiting
    exact transitionRun_append unused (by simp [awaiting, runTransitions]) (by simp)
  have node : ∀ nodeId node key, s.nodes.lookup nodeId = some node → s.Unused key →
      node.state = .awaitingApproval → transitionNode s nodeId .running none none key =
        .ok (.append (.nodeTransition nodeId node.state .running none none)) := by
    intro nodeId node key found unused awaiting
    exact transitionNode_append found unused (by simp [awaiting, nodeTransitions]) (by simp)
  cases op with
  | start key =>
    obtain ⟨occurredAt, stamped, unused, awaiting⟩ := h
    refine .inl ⟨key, .inl rfl, awaiting, ?_⟩
    simp [Operation.step, Operation.validate, Operation.command, Operation.key, Command.verdict,
      run key unused awaiting, stamped, RunSnapshot.advance, Change.effect]
  | resume key =>
    obtain ⟨occurredAt, stamped, unused, awaiting⟩ := h
    refine .inl ⟨key, .inr rfl, awaiting, ?_⟩
    simp [Operation.step, Operation.validate, Operation.command, Operation.key, Command.verdict,
      run key unused awaiting, stamped, RunSnapshot.advance, Change.effect]
  | startNode nodeId key =>
    obtain ⟨occurredAt, before, stamped, unused, found, awaiting⟩ := h
    refine .inr ⟨nodeId, key, before, { before with state := .running }, .inl rfl, found, awaiting, ?_, rfl⟩
    simp [Operation.step, Operation.validate, Operation.command, Operation.key, Command.verdict,
      node nodeId before key found unused awaiting, stamped, RunSnapshot.advance, Change.effect,
      RunSnapshot.progress, found]
  | resumeNode nodeId key =>
    obtain ⟨occurredAt, before, stamped, unused, found, awaiting⟩ := h
    refine .inr ⟨nodeId, key, before, { before with state := .running }, .inr rfl, found, awaiting, ?_, rfl⟩
    simp [Operation.step, Operation.validate, Operation.command, Operation.key, Command.verdict,
      node nodeId before key found unused awaiting, stamped, RunSnapshot.advance, Change.effect,
      RunSnapshot.progress, found]
  | _ => cases h

theorem bypasses_files {runId : String} {l : RunLedger runId} (safe : safeId runId = true) (clock : Clock)
    (op : Operation) : Bypasses runId (filesOf l) clock op ↔ l.state.Bypassed clock op := by
  have loaded : (load runId (filesOf l)).2 = .ok l.state := by rw [load_files l safe]
  cases op with
  | start key => simp [Bypasses, RunSnapshot.Bypassed, loaded]
  | resume key => simp [Bypasses, RunSnapshot.Bypassed, loaded]
  | startNode nodeId key => simp [Bypasses, RunSnapshot.Bypassed, loaded]
  | resumeNode nodeId key => simp [Bypasses, RunSnapshot.Bypassed, loaded]
  | _ => rfl

theorem onlyApprovals_iff {runId : String} {dir : RunDir} {ledger : Option (RunLedger runId)}
    (h : Tracks runId dir ledger) (op : Operation) (clock : Clock) :
    OnlyApprovals runId dir op clock ↔ ¬ Bypasses runId dir clock op := by
  cases ledger with
  | none =>
    obtain ⟨e, he⟩ := load_empty runId h.1
    have unloaded : ∀ s, (load runId dir).2 ≠ .ok s := by
      intro s hs
      rw [he] at hs
      cases hs
    constructor
    · intro _ bypass
      cases op with
      | start key => exact unloaded _ bypass.choose_spec.choose_spec.1
      | resume key => exact unloaded _ bypass.choose_spec.choose_spec.1
      | startNode nodeId key => exact unloaded _ bypass.choose_spec.choose_spec.choose_spec.1
      | resumeNode nodeId key => exact unloaded _ bypass.choose_spec.choose_spec.choose_spec.1
      | _ => exact bypass
    · intro _
      exact ⟨fun s _ hs => absurd hs (unloaded s), fun s _ _ _ _ hs => absurd hs (unloaded s)⟩
  | some l =>
    obtain ⟨safe, rfl, reached⟩ := h
    obtain ⟨l', acts, files⟩ := call_acts (filesOf_holds l) op clock
    have files : (op.call runId clock (filesOf l)).1 = filesOf l' := by
      rcases files with files | ⟨files, rfl⟩
      · exact files
      · exact files
    have loaded : (load runId (filesOf l)).2 = .ok l.state := by rw [load_files l safe]
    have loaded' : (load runId (op.call runId clock (filesOf l)).1).2 = .ok l'.state := by
      rw [files, load_files l' safe]
    have stepped := acts_step acts
    rw [bypasses_files safe]
    constructor
    · intro only bypass
      rcases bypassed_step runId bypass with ⟨key, ho, awaiting, running⟩ |
        ⟨nodeId, key, node, node', ho, found, awaiting, found', running⟩
      · rw [stepped] at running
        obtain ⟨by_, key', he⟩ := only.run _ _ loaded loaded' awaiting running
        rcases ho with rfl | rfl <;> cases he
      · rw [stepped] at found'
        obtain ⟨by_, key', he⟩ := only.node _ _ nodeId node node' loaded loaded' found found' awaiting running
        rcases ho with rfl | rfl <;> cases he
    · intro clear
      constructor
      · intro s s' hs hs' awaiting running
        rw [loaded] at hs
        rw [loaded'] at hs'
        cases hs
        cases hs'
        exact (step_run_gate stepped awaiting running).resolve_right clear
      · intro s s' nodeId node node' hs hs' found found' awaiting running
        rw [loaded] at hs
        rw [loaded'] at hs'
        cases hs
        cases hs'
        exact (step_node_gate stepped found found' awaiting running).resolve_right clear

/-! Whole runs. -/

/-- As many passages as approvals, for the run and for each node. -/
def Counted (runId : String) (dir : RunDir) : Prop :=
  ∀ s log, (load runId dir).2 = .ok s → readEvents runId dir = .ok log →
    log.countP passesRun = s.approvals.length ∧
      ∀ nodeId, log.countP (passesNode nodeId) = log.countP (approvesNode nodeId)

def Balanced {runId : String} (l : RunLedger runId) : Prop :=
  ∀ change ∈ l.entries.map Entry.change,
    change.passesRun = change.approvesRun ∧ ∀ nodeId, change.passesNode nodeId = change.approvesNode nodeId

omit [Sha256] in
theorem effect_approvals (occurredAt : DateTime) (p : Progress) (change : Change) :
    (change.effect occurredAt p).approvals.length =
      p.approvals.length + if change.approvesRun then 1 else 0 := by
  cases change with
  | runTransition source target reason approvedBy =>
    simp only [Change.effect, Change.approvesRun]
    split
    case h_1 by_ named => simp [named]
    case h_2 unnamed => simp [unnamed]
  | _ => simp [Change.effect, Change.approvesRun]

theorem reached_approvals {runId : String} {l : RunLedger runId} (h : Reached l) :
    l.state.approvals.length = (l.entries.map Entry.change).countP Change.approvesRun := by
  induction h with
  | founded creation occurredAt valid => rfl
  | acted l l' op clock outcome reached acts ih =>
    cases acts with
    | refused => exact ih
    | repeated => exact ih
    | recorded change occurredAt value valid decided =>
      rw [record_state]
      have counted := effect_approvals occurredAt l.state.progress change
      have entries : (record l ⟨change, op.key, occurredAt⟩ (verdict_fits decided).1
          (verdict_fits decided).2).entries = l.entries ++ [⟨change, op.key, occurredAt⟩] := rfl
      simp only [entries, List.map_append, List.countP_append, ← ih]
      simp only [RunSnapshot.advance, List.map_cons, List.map_nil, List.countP_cons, List.countP_nil,
        Nat.zero_add]
      exact counted

theorem balanced_counted {runId : String} {l : RunLedger runId} (safe : safeId runId = true)
    (reached : Reached l) (h : Balanced l) : Counted runId (filesOf l) := by
  intro s log hs hr
  rw [load_files l safe] at hs
  rw [(filesOf_holds l).readEvents] at hr
  cases hs
  cases hr
  constructor
  · rw [countP_log l.length_visited _ _ (passesRun_event runId), reached_approvals reached]
    exact List.countP_congr (fun change hc => by rw [(h change hc).1])
  · intro nodeId
    rw [countP_log l.length_visited _ _ (passesNode_event nodeId runId),
      countP_log l.length_visited _ _ (approvesNode_event nodeId runId)]
    exact List.countP_congr (fun change hc => by rw [(h change hc).2 nodeId])

/-- Balance is kept by every call that does not bypass the gate. -/
theorem perform_balanced (runId : String) (calls : List (Call × Clock))
    (clear : ∀ before op clock after, calls = before ++ (.run op, clock) :: after →
      ¬ Bypasses runId (perform runId .absent before).1 clock op) :
    ∃ ledger, Tracks runId (perform runId .absent calls).1 ledger ∧ ∀ l, ledger = some l → Balanced l := by
  induction calls using List.reverseRecOn with
  | nil =>
    refine ⟨none, ⟨rfl, rfl⟩, ?_⟩
    intro l hl
    cases hl
  | append_singleton before step ih =>
    obtain ⟨call, clock⟩ := step
    obtain ⟨ledger, tracked, balanced⟩ := ih (by
      intro early op clock' after here
      exact clear early op clock' (after ++ [(call, clock)]) (by simp [here]))
    obtain ⟨after, acts, tracked'⟩ := perform_call tracked call clock
    rw [perform_concat]
    refine ⟨after, tracked', ?_⟩
    intro l hl
    subst hl
    generalize (call.perform runId clock (perform runId .absent before).1).2 = outcome at acts
    cases acts with
    | founded creation clock occurredAt valid stamped =>
      intro change hc
      have only : change = .runCreated creation.nodeIds
          (creation.environment.getD creation.capturedEnvironment)
          (creation.git.getD creation.capturedGit) := List.mem_singleton.mp hc
      subst only
      exact ⟨rfl, fun _ => rfl⟩
    | «exists» => exact balanced _ rfl
    | loaded => exact balanced _ rfl
    | acted l₀ l' op clock outcome acts =>
      have was := balanced l₀ rfl
      have here := clear before op clock [] rfl
      rw [tracked.2.1, bypasses_files tracked.1] at here
      cases acts with
      | refused => exact was
      | repeated => exact was
      | recorded change occurredAt value valid decided stamped result =>
        intro other hc
        have hc : other ∈ l₀.entries.map Entry.change ∨ other = change := by
          simpa [record] using hc
        rcases hc with hc | rfl
        · exact was other hc
        · exact change_balanced valid stamped decided here

/-- In a run, approvals are the only way past the gates, and as many as the passages, exactly when
no start or resume is applied to a run or a node that awaits approval. -/
theorem gate_iff (runId : String) (calls : List (Call × Clock)) :
    ((∀ before op clock after, calls = before ++ (.run op, clock) :: after →
        OnlyApprovals runId (perform runId .absent before).1 op clock) ∧
      ∀ before after, calls = before ++ after → Counted runId (perform runId .absent before).1) ↔
    ∀ before op clock after, calls = before ++ (.run op, clock) :: after →
      ¬ Bypasses runId (perform runId .absent before).1 clock op := by
  have step : ∀ before op clock, OnlyApprovals runId (perform runId .absent before).1 op clock ↔
      ¬ Bypasses runId (perform runId .absent before).1 clock op := by
    intro before op clock
    have start : Tracks runId .absent none := ⟨rfl, rfl⟩
    obtain ⟨ledger, tracked, _⟩ := perform_tracks start before
    exact onlyApprovals_iff tracked op clock
  constructor
  · rintro ⟨only, _⟩ before op clock after here
    exact (step before op clock).mp (only before op clock after here)
  · intro clear
    constructor
    · intro before op clock after here
      exact (step before op clock).mpr (clear before op clock after here)
    · intro before after here
      obtain ⟨ledger, tracked, balanced⟩ := perform_balanced runId before (by
        intro early op clock rest split
        exact clear early op clock (rest ++ after) (by simp [here, split]))
      cases ledger with
      | none =>
        obtain ⟨e, he⟩ := load_empty runId tracked.1
        intro s log hs
        rw [he] at hs
        cases hs
      | some l =>
        rw [tracked.2.1]
        exact balanced_counted tracked.1 tracked.2.2 (balanced l rfl)

/-! A run that asks for approval, and a resume that does not wait for it. -/

def approvalRequested : List (Operation × Clock) :=
  [(.start "start", .reading 0 DateTime.zero_inDay),
    (.requestApproval "review" "request", .reading 1 DateTime.one_inDay)]

omit [Sha256] in
/-- The run leaves its gate with nobody's approval. -/
theorem resume_passes_gate :
    ¬ @OnlyApprovals .standard "run" (@perform .standard "run" .absent
        ((.create buildCreation, .reading 0 (by decide)) ::
          approvalRequested.map (fun step => (.run step.1, step.2)))).1
      (.resume "resume") (.reading 2 (by decide)) := by
  let _ := Sha256.standard
  obtain ⟨l, tracked, state, _⟩ := perform_founded "run" buildCreation
    ⟨0, by decide⟩ (.ok ⟨0, by decide⟩) (by decide) approvalRequested
  have awaiting : (stepAll "run" (founded "run" buildCreation ⟨0, by decide⟩).state
      approvalRequested).state = .awaitingApproval := by
    decide +kernel
  have unused : (stepAll "run" (founded "run" buildCreation ⟨0, by decide⟩).state
      approvalRequested).idempotency.lookup "resume" = none := by
    decide +kernel
  intro only
  refine (onlyApprovals_iff tracked _ _).mp only ?_
  rw [tracked.2.1, bypasses_files tracked.1]
  rw [← state] at awaiting unused
  exact ⟨⟨2000000, by decide⟩, rfl, ⟨by decide, unused⟩, awaiting⟩

end Onmc.DurableRuntime
