import Mathlib.Data.Fintype.EquivFin
import Onmc.DurableRuntime.Runs

/-! Runs that have ended. No operation moves the run out of its last state, and a cancelled run has
closed every node; but a run that completes or fails leaves its nodes where they are, and a node
that had not finished can still be moved. -/
namespace Onmc.DurableRuntime

def RunState.terminal (s : RunState) : Bool := s = completed ∨ s = failed ∨ s = cancelled

namespace RunSnapshot

/-- Every node has finished. -/
def Settled (s : RunSnapshot) : Prop :=
  ∀ nodeId node, s.nodes.lookup nodeId = some node → node.state.terminal = true

def stateOf (s : RunSnapshot) (nodeId : String) : Option NodeState :=
  (s.nodes.lookup nodeId).map NodeSnapshot.state

/-- The run and its nodes stand where they stood. -/
structure SameStates (s t : RunSnapshot) : Prop where
  run : t.state = s.state
  nodes : ∀ nodeId, t.stateOf nodeId = s.stateOf nodeId

theorem SameStates.refl (s : RunSnapshot) : s.SameStates s := ⟨rfl, fun _ => rfl⟩

theorem SameStates.trans {s t u : RunSnapshot} (first : s.SameStates t) (second : t.SameStates u) :
    s.SameStates u :=
  ⟨second.run.trans first.run, fun nodeId => (second.nodes nodeId).trans (first.nodes nodeId)⟩

theorem settled_iff {s : RunSnapshot} :
    s.Settled ↔ ∀ nodeId state, s.stateOf nodeId = some state → state.terminal = true := by
  constructor
  · intro settled nodeId state found
    obtain ⟨node, hn, rfl⟩ := Option.map_eq_some_iff.mp found
    exact settled nodeId node hn
  · intro settled nodeId node found
    apply settled nodeId
    simp [stateOf, found]

theorem SameStates.settled {s t : RunSnapshot} (same : s.SameStates t) (settled : s.Settled) : t.Settled := by
  apply settled_iff.mpr
  intro nodeId state found
  rw [same.nodes] at found
  exact settled_iff.mp settled nodeId state found

end RunSnapshot

theorem runTransitions_terminal {s : RunState} (terminal : s.terminal = true) : runTransitions s = [] := by
  cases s <;> first | rfl | cases terminal

theorem nodeTransitions_terminal {s : NodeState} (terminal : s.terminal = true) : nodeTransitions s = [] := by
  cases s <;> first | rfl | cases terminal

/-- A node that has not finished can be cancelled, whatever the run. -/
theorem cancelled_mem {s : NodeState} (unfinished : s.terminal = false) :
    NodeState.cancelled ∈ nodeTransitions s := by
  cases s <;> first | decide | cases unfinished

theorem stateOf_updateNode {nodeId j : String} {f : NodeSnapshot → NodeSnapshot}
    (same : ∀ node : NodeSnapshot, (f node).state = node.state) (nodes : List (String × NodeSnapshot)) :
    ((updateNode nodeId f nodes).lookup j).map NodeSnapshot.state =
      (nodes.lookup j).map NodeSnapshot.state := by
  rw [lookup_updateNode]
  split
  · rw [Option.map_map]
    exact congrArg (fun g => (nodes.lookup j).map g) (funext same)
  · rfl

/-- A change of an ended run whose nodes have finished: leases and retries, nothing else. -/
theorem effect_frozen {s : RunSnapshot} {change : Change} (occurredAt : DateTime)
    (terminal : s.state.terminal = true) (settled : s.Settled) (fits : change.Fits s.progress) :
    (change.effect occurredAt s.progress).state = s.state ∧ ∀ nodeId,
      ((change.effect occurredAt s.progress).nodes.lookup nodeId).map NodeSnapshot.state = s.stateOf nodeId := by
  cases change with
  | runCreated => exact fits.elim
  | runTransition source target reason approvedBy =>
    have none_left := runTransitions_terminal terminal
    have allowed : target ∈ runTransitions s.state := fits.2
    rw [none_left] at allowed
    cases allowed
  | nodeTransition nodeId source target reason approvedBy =>
    obtain ⟨node, found, _, allowed⟩ := fits
    rw [nodeTransitions_terminal (settled nodeId node found)] at allowed
    cases allowed
  | leasesExpired nodeIds expiredAt =>
    refine ⟨rfl, fun nodeId => ?_⟩
    simp only [Change.effect, lookup_releaseAll, RunSnapshot.stateOf]
    split
    · rw [Option.map_map]
      rfl
    · rfl
  | leaseAcquired | leaseHeartbeat | leaseReleased | retryRecorded =>
    exact ⟨rfl, fun nodeId => stateOf_updateNode (by intro _; rfl) s.nodes⟩

variable [Sha256]

theorem acts_frozen {runId : String} {l l' : RunLedger runId} {op : Operation} {clock : Clock}
    {outcome : Outcome Value} (acts : Acts l op clock l' outcome) (terminal : l.state.state.terminal = true)
    (settled : l.state.Settled) : l.state.SameStates l'.state := by
  cases acts with
  | refused => exact .refl _
  | repeated => exact .refl _
  | recorded change occurredAt value valid decided =>
    rw [record_state]
    obtain ⟨run, nodes⟩ := effect_frozen occurredAt terminal settled (verdict_fits decided).1
    exact ⟨run, nodes⟩

/-- A run that ended with every node finished stays as it is under every further call. -/
theorem perform_frozen {runId : String} {dir : RunDir} {l : RunLedger runId} (h : Tracks runId dir (some l))
    (terminal : l.state.state.terminal = true) (settled : l.state.Settled) (calls : List (Call × Clock)) :
    ∃ l', Tracks runId (perform runId dir calls).1 (some l') ∧ l.state.SameStates l'.state := by
  induction calls generalizing dir l with
  | nil => exact ⟨l, h, .refl _⟩
  | cons step calls ih =>
    obtain ⟨call, clock⟩ := step
    obtain ⟨after, acts, tracked⟩ := perform_call h call clock
    have kept : ∃ middle, after = some middle ∧ l.state.SameStates middle.state := by
      generalize (call.perform runId clock dir).2 = outcome at acts
      cases acts with
      | «exists» => exact ⟨l, rfl, .refl _⟩
      | loaded => exact ⟨l, rfl, .refl _⟩
      | acted _ l' op _ outcome acts => exact ⟨l', rfl, acts_frozen acts terminal settled⟩
    obtain ⟨middle, rfl, same⟩ := kept
    have still : middle.state.state.terminal = true := by rw [same.run, terminal]
    obtain ⟨l', files, further⟩ := ih tracked still (same.settled settled)
    exact ⟨l', files, same.trans further⟩

omit [Sha256] in
/-- Cancelling closes the nodes that are still open. -/
theorem cancelUnfinished_settled {nodes : List (String × NodeSnapshot)} {nodeId : String} {node : NodeSnapshot}
    (found : (cancelUnfinished nodes).lookup nodeId = some node) : node.state.terminal = true := by
  simp only [cancelUnfinished, Dict.lookup_mapValues, Option.map_eq_some_iff] at found
  obtain ⟨before, _, rfl⟩ := found
  split
  · assumption
  · rfl

theorem reached_cancelled {runId : String} {l : RunLedger runId} (h : Reached l)
    (cancelled : l.state.state = .cancelled) : l.state.Settled := by
  induction h with
  | founded => cases cancelled
  | acted l l' op clock outcome reached acts ih =>
    by_cases was : l.state.state = .cancelled
    · have terminal : l.state.state.terminal = true := by rw [was]; rfl
      exact (acts_frozen acts terminal (ih was)).settled (ih was)
    · cases acts with
      | refused => exact absurd cancelled was
      | repeated => exact absurd cancelled was
      | recorded change occurredAt value valid decided =>
        rw [record_state] at cancelled ⊢
        intro nodeId node found
        rcases effect_state occurredAt l.state.progress change with same | ⟨_, target, _, _, rfl, reaches⟩
        · exact absurd (same.symm.trans cancelled) was
        · have closing : target = .cancelled := reaches.symm.trans cancelled
          subst closing
          exact cancelUnfinished_settled found

theorem perform_append (runId : String) (dir : RunDir) (calls later : List (Call × Clock)) :
    (perform runId dir (calls ++ later)).1 = (perform runId (perform runId dir calls).1 later).1 := by
  induction calls generalizing dir with
  | nil => rfl
  | cons step calls ih => exact ih _

/-- What is expected of the run that some calls leave, once it has ended. -/
structure EndsFrozen (runId : String) (calls : List (Call × Clock)) : Prop where
  frozen : ∀ s, (load runId (perform runId .absent calls).1).2 = .ok s → s.state.terminal = true →
    ∀ later, ∃ t, (load runId (perform runId .absent (calls ++ later)).1).2 = .ok t ∧ s.SameStates t
  cancelled : ∀ s, (load runId (perform runId .absent calls).1).2 = .ok s → s.state = .cancelled → s.Settled

omit [Sha256] in
/-- There is always another key. -/
theorem exists_unused (s : RunSnapshot) : ∃ key, s.Unused key := by
  have many : Infinite String := by
    apply Infinite.of_injective (fun n : Nat => String.ofList (List.replicate n 'k'))
    intro n m same
    simpa using congrArg String.length same
  obtain ⟨key, free⟩ := Infinite.exists_notMem_finset ("" :: s.idempotency.map Prod.fst).toFinset
  rw [List.mem_toFinset, List.mem_cons, not_or] at free
  refine ⟨key, free.1, ?_⟩
  apply List.lookup_eq_none_iff.mpr
  rintro ⟨other, hash⟩ member
  have differs : key ≠ other := fun same => free.2 (same ▸ List.mem_map_of_mem member)
  simpa using differs

/-- A node that has not finished is moved by whoever asks for it. -/
theorem unsettled_moves {runId : String} {dir : RunDir} {l : RunLedger runId} (h : Tracks runId dir (some l))
    {nodeId : String} {node : NodeSnapshot} (found : l.state.nodes.lookup nodeId = some node)
    (unfinished : node.state.terminal = false) :
    ∃ later l', Tracks runId (perform runId dir later).1 (some l') ∧ ¬ l.state.SameStates l'.state := by
  obtain ⟨key, unused⟩ := exists_unused l.state
  let now : DateTime := ⟨0, by decide⟩
  let clock : Clock := ⟨.ok now, .ok now⟩
  let op : Operation := .cancelNode nodeId "stopped" key
  have decided : op.command.verdict runId key clock l.state =
      .ok (.append (.nodeTransition nodeId node.state .cancelled (some "stopped") none)) := by
    simp [op, Operation.command, Command.verdict, transitionNode, findNode, found, checkIdempotency, unused.1, unused.2,
      raiseIf_false, cancelled_mem unfinished, pure, Except.pure]
  obtain ⟨after, acts, tracked⟩ := perform_call h (.run op) clock
  generalize (Call.perform runId clock dir (.run op)).2 = outcome at acts
  cases acts with
  | acted _ l' _ _ outcome acts =>
    refine ⟨[(.run op, clock)], l', tracked, ?_⟩
    intro same
    have stepped := acts_step acts
    have moved := same.nodes nodeId
    have state : l'.state.stateOf nodeId = some .cancelled := by
      have decided : op.command.verdict runId op.key clock l.state = _ := decided
      simp only [Operation.step, op, Operation.validate] at stepped
      simp only [op] at decided
      rw [decided] at stepped
      have l'state := (Prod.mk.inj stepped).1
      rw [← l'state]
      simp [RunSnapshot.stateOf, RunSnapshot.advance, Change.effect, RunSnapshot.progress, found]
    rw [state] at moved
    simp only [RunSnapshot.stateOf, found, Option.map_some, Option.some.injEq] at moved
    rw [← moved] at unfinished
    cases unfinished

theorem unsettled_not_frozen {runId : String} {calls : List (Call × Clock)} {l : RunLedger runId}
    (tracked : Tracks runId (perform runId .absent calls).1 (some l)) (terminal : l.state.state.terminal = true)
    {nodeId : String} {node : NodeSnapshot} (found : l.state.nodes.lookup nodeId = some node)
    (unfinished : node.state.terminal = false) : ¬ EndsFrozen runId calls := by
  intro ends
  have loaded : (load runId (perform runId .absent calls).1).2 = .ok l.state := by
    rw [tracked.2.1, load_files l tracked.1]
  obtain ⟨later, l', further, moved⟩ := unsettled_moves tracked found unfinished
  obtain ⟨t, reloaded, frozen⟩ := ends.frozen l.state loaded terminal later
  rw [perform_append, further.2.1, load_files l' further.1] at reloaded
  cases reloaded
  exact moved frozen

/-- A run that has ended is frozen exactly when it did not complete or fail with a node that had not
finished. -/
theorem endsFrozen_iff (runId : String) (calls : List (Call × Clock)) :
    EndsFrozen runId calls ↔ ∀ s, (load runId (perform runId .absent calls).1).2 = .ok s →
      s.state = .completed ∨ s.state = .failed → s.Settled := by
  have start : Tracks runId .absent none := ⟨rfl, rfl⟩
  obtain ⟨ledger, tracked, _⟩ := perform_tracks start calls
  cases ledger with
  | none =>
    obtain ⟨e, missing⟩ := load_empty runId tracked.1
    have unloadable : ∀ s, (load runId (perform runId .absent calls).1).2 ≠ .ok s := by
      intro s loaded
      rw [missing] at loaded
      cases loaded
    exact ⟨fun _ s loaded => absurd loaded (unloadable s), fun _ =>
      ⟨fun s loaded => absurd loaded (unloadable s), fun s loaded => absurd loaded (unloadable s)⟩⟩
  | some l =>
    have loaded : (load runId (perform runId .absent calls).1).2 = .ok l.state := by
      rw [tracked.2.1, load_files l tracked.1]
    constructor
    · intro ends s same ended
      cases loaded.symm.trans same
      have terminal : l.state.state.terminal = true := by
        rcases ended with ended | ended <;> rw [ended] <;> rfl
      intro nodeId node found
      by_contra unfinished
      exact unsettled_not_frozen tracked terminal found (by simpa using unfinished) ends
    · intro settled
      have closed : l.state.state.terminal = true → l.state.Settled := by
        intro terminal
        by_cases cancelled : l.state.state = .cancelled
        · exact reached_cancelled tracked.2.2 cancelled
        · apply settled l.state loaded
          simp only [RunState.terminal, Bool.decide_or, Bool.or_eq_true, decide_eq_true_eq] at terminal
          tauto
      constructor
      · intro s same terminal later
        cases loaded.symm.trans same
        obtain ⟨l', further, frozen⟩ := perform_frozen tracked terminal (closed terminal) later
        refine ⟨l'.state, ?_, frozen⟩
        rw [perform_append, further.2.1, load_files l' further.1]
      · intro s same cancelled
        cases loaded.symm.trans same
        exact reached_cancelled tracked.2.2 cancelled

/-! A run that is completed before its node has started. -/

def completedEarly : List (Operation × Clock) :=
  [(.start "start", .reading 0 (by decide)), (.complete "complete", .reading 1 (by decide))]

omit [Sha256] in
theorem completedEarly_moves :
    ¬ @EndsFrozen .standard "run" ((.create buildCreation, .reading 0 (by decide)) ::
      completedEarly.map (fun step => (.run step.1, step.2))) := by
  let _ := Sha256.standard
  obtain ⟨l, tracked, state, _⟩ := perform_founded "run" buildCreation
    ⟨0, by decide⟩ (.ok ⟨0, by decide⟩) (by decide) completedEarly
  have ended : (stepAll "run" (founded "run" buildCreation ⟨0, by decide⟩).state
      completedEarly).state.terminal = true := by
    decide +kernel
  have waiting : (stepAll "run" (founded "run" buildCreation ⟨0, by decide⟩).state
      completedEarly).nodes.lookup "build" = some (.fresh "build") := by
    decide +kernel
  rw [← state] at ended waiting
  exact unsettled_not_frozen tracked ended waiting rfl

end Onmc.DurableRuntime
