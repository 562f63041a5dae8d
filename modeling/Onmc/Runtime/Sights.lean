import Onmc.DurableRuntime.Frozen
import Onmc.DurableRuntime.Leases
import Onmc.Runtime.NativeBackend

/-! What the thread that executes a run goes by, and what each of its requests does to that. -/
namespace Onmc.Runtime

open DurableRuntime

/-- The persisted results, and where the run and its nodes stand. -/
structure Sight where
  results : List (String × NodeResult)
  run : Option RunState
  node : String → Option NodeState

namespace Sight

/-- A snapshot shows where the run stands. -/
structure Shows (v : Sight) (s : RunSnapshot) : Prop where
  run : v.run = some s.state
  node : ∀ nodeId, v.node nodeId = s.stateOf nodeId

/-- What a command can do: its own transition, or nothing; cancelling a run cancels its nodes. -/
structure Moves (v v' : Sight) (command : Command) : Prop where
  results : v'.results = v.results
  run : v'.run = v.run ∨ ∃ target reason approvedBy, command = .transitionRun target reason approvedBy ∧
    v'.run = some target
  node : ∀ nodeId state, v'.node nodeId = some state → v.node nodeId = some state ∨ state = .cancelled ∨
    ∃ reason approvedBy, command = .transitionNode nodeId state reason approvedBy
  final : ∀ nodeId state, v.node nodeId = some state → state.terminal = true → v'.node nodeId = some state

theorem Moves.refl (v : Sight) (command : Command) : v.Moves v command :=
  ⟨rfl, .inl rfl, fun _ _ same => .inl same, fun _ _ same _ => same⟩

/-- A run that has been created and has not been started. -/
structure Starts (v : Sight) : Prop where
  run : v.run = some .created
  node : ∀ nodeId state, v.node nodeId = some state → state = .pending

/-- What a request does, and what its reply says. -/
def Effect (v : Sight) (request : Request) (v' : Sight) (reply : request.Reply) : Prop :=
  match request, reply with
  | .load _, reply => v' = v ∧ ∀ s, reply = .ok s → v.Shows s
  | .createRun _ _, reply => v'.results = v.results ∧ (v' = v ∨ v'.Starts) ∧
      ∀ s, reply = .ok (.snapshot s) → v'.Shows s
  | .operate _ op, _ => v.Moves v' op.command
  | .hasResult nodeId, reply => v' = v ∧ reply = (v.results.lookup nodeId).isSome
  | .readResult nodeId, reply => v' = v ∧ reply = v.results.lookup nodeId
  | .writeResult result, _ => v' = { v with results := Dict.setItem result.nodeId result v.results }
  | .events, _ | .readManifest, _ | .writeManifest _, _ | .invoke _, _ => v' = v

end Sight

/-- Commands that move neither the run nor a node. -/
inductive Still : Command → Prop
  | acquireLease (nodeId owner : String) (ttlSeconds : Num) : Still (.acquireLease nodeId owner ttlSeconds)
  | releaseLease (nodeId token : String) : Still (.releaseLease nodeId token)
  | recordRetry (nodeId : String) (classification : RetryClass) (reason : String) (baseDelay maxDelay : Num) :
      Still (.recordRetry nodeId classification reason baseDelay maxDelay)

/-- Requests that nobody sees who goes by a sight. -/
inductive Request.Unseen : Request → Prop
  | load (caller : Caller) : Unseen (.load caller)
  | events : Unseen .events
  | operate (caller : Caller) (op : Operation) (still : Still op.command) : Unseen (.operate caller op)
  | invoke (node : NodeSpec) : Unseen (.invoke node)

/-- A node that has finished stays as it is. -/
theorem effect_final {p : Progress} {change : Change} (occurredAt : DateTime) (fits : change.Fits p) {nodeId : String}
    {node : NodeSnapshot} (found : p.nodes.lookup nodeId = some node) (terminal : node.state.terminal = true) :
    ((change.effect occurredAt p).nodes.lookup nodeId).map NodeSnapshot.state = some node.state := by
  have same : ((p.nodes.lookup nodeId).map NodeSnapshot.state) = some node.state := by rw [found]; rfl
  cases change with
  | runCreated => exact fits.elim
  | runTransition source target reason approvedBy =>
    simp only [Change.effect]
    split
    · simp [cancelUnfinished, Dict.lookup_mapValues, found, terminal]
    · exact same
  | nodeTransition moved source target reason approvedBy =>
    obtain ⟨other, here, _, allowed⟩ := fits
    have apart : nodeId ≠ moved := by
      rintro rfl
      rw [found] at here
      cases here
      rw [nodeTransitions_terminal terminal] at allowed
      cases allowed
    simp [Change.effect, lookup_updateNode, apart, found]
  | leasesExpired nodeIds expiredAt =>
    simp only [Change.effect, lookup_releaseAll]
    split
    · simp [found, NodeSnapshot.released]
    · exact same
  | leaseAcquired | leaseHeartbeat | leaseReleased | retryRecorded =>
    exact (stateOf_updateNode (by intro _; rfl) p.nodes).trans same

variable [Sha256] {runId : String}

def loaded (runId : String) (dir : RunDir) : Option RunSnapshot := (DurableRuntime.load runId dir).2.toOption

def World.sight (runId : String) (w : World) : Sight where
  results := w.results
  run := (loaded runId w.dir).map RunSnapshot.state
  node := fun nodeId => (loaded runId w.dir).bind (fun s => s.stateOf nodeId)

/-- The store's files are those of a run. -/
def World.Tracked (runId : String) (w : World) : Prop := ∃ ledger, Tracks runId w.dir ledger

theorem tracked_absent : World.absent.Tracked runId := ⟨none, rfl, rfl⟩

theorem loaded_none {dir : RunDir} (h : Tracks runId dir none) : loaded runId dir = none := by
  obtain ⟨e, missing⟩ := load_empty runId h.1
  simp [loaded, missing, Except.toOption]

theorem loaded_some {dir : RunDir} {l : RunLedger runId} (h : Tracks runId dir (some l)) :
    loaded runId dir = some l.state := by
  obtain ⟨safe, rfl, _⟩ := h
  simp [loaded, load_files l safe, Except.toOption]

theorem shows_sight {w : World} {l : RunLedger runId} (h : Tracks runId w.dir (some l)) :
    (w.sight runId).Shows l.state where
  run := by simp [World.sight, loaded_some h]
  node := by simp [World.sight, loaded_some h]

theorem sight_starts {w : World} {creation : Creation} {occurredAt : DateTime}
    (h : Tracks runId w.dir (some (founded runId creation occurredAt))) : (w.sight runId).Starts where
  run := by simp [(shows_sight h).run, founded, RunSnapshot.start]
  node := by
    intro nodeId state found
    rw [(shows_sight h).node] at found
    obtain ⟨node, hn, rfl⟩ := Option.map_eq_some_iff.mp found
    simp only [founded, EventLog.Ledger.state_first, RunSnapshot.start] at hn
    rw [lookup_createdNodes _ hn]
    rfl

/-- What an operation does to the ledger is what its command can do. -/
theorem acts_moves {l l' : RunLedger runId} {op : Operation} {clock : Clock} {outcome : Outcome Value}
    (acts : Acts l op clock l' outcome) {v v' : Sight} (before : v.Shows l.state) (after : v'.Shows l'.state)
    (results : v'.results = v.results) : v.Moves v' op.command := by
  have same : l' = l → v.Moves v' op.command := by
    rintro rfl
    refine ⟨results, .inl (after.run.trans before.run.symm), ?_, ?_⟩
    · intro nodeId state found
      rw [after.node, ← before.node] at found
      exact .inl found
    · intro nodeId state found _
      rw [after.node, ← before.node]
      exact found
  cases acts with
  | refused => exact same rfl
  | repeated => exact same rfl
  | recorded change occurredAt value valid decided =>
    rw [record_state] at after
    refine ⟨results, ?_, ?_, ?_⟩
    · rcases effect_state occurredAt l.state.progress change with kept | ⟨source, target, reason, by_, rfl, reaches⟩
      · exact .inl (after.run.trans ((congrArg some kept).trans before.run.symm))
      · exact .inr ⟨target, reason, by_, (verdict_runTransition decided).1, after.run.trans (congrArg some reaches)⟩
    · intro nodeId state found
      rw [after.node] at found
      obtain ⟨node, hn, rfl⟩ := Option.map_eq_some_iff.mp found
      obtain ⟨was, hw, kept | ⟨source, target, reason, by_, rfl, reaches⟩ | ⟨_, _, _, _, reaches, _⟩⟩ :=
        effect_nodeState occurredAt l.state.progress change hn
      · refine .inl ?_
        rw [before.node]
        exact Option.map_eq_some_iff.mpr ⟨was, hw, kept.symm⟩
      · rw [reaches]
        exact .inr (.inr ⟨reason, by_, (verdict_nodeTransition decided).1⟩)
      · exact .inr (.inl reaches)
    · intro nodeId state found terminal
      rw [before.node] at found
      obtain ⟨node, hn, rfl⟩ := Option.map_eq_some_iff.mp found
      rw [after.node]
      exact effect_final occurredAt (verdict_fits decided).1 hn terminal

theorem sight_of_tracks {w w' : World} {ledger : Option (RunLedger runId)} (before : Tracks runId w.dir ledger)
    (after : Tracks runId w'.dir ledger) (results : w'.results = w.results) : w'.sight runId = w.sight runId := by
  cases ledger with
  | none => simp [World.sight, loaded_none before, loaded_none after, results]
  | some l => simp [World.sight, loaded_some before, loaded_some after, results]

theorem load_effect {w : World} (tracked : w.Tracked runId) :
    (DurableRuntime.load runId w.dir).1 = w.dir ∧
      ∀ s, (DurableRuntime.load runId w.dir).2 = .ok s → (w.sight runId).Shows s := by
  obtain ⟨ledger, tracks⟩ := tracked
  cases ledger with
  | none =>
    obtain ⟨e, missing⟩ := load_empty runId tracks.1
    simp [missing]
  | some l =>
    have shows_ := shows_sight tracks
    obtain ⟨safe, files, _⟩ := tracks
    have read := load_files l safe
    rw [← files] at read
    rw [read]
    refine ⟨rfl, ?_⟩
    rintro s ⟨⟩
    exact shows_

theorem operate_effect {w : World} (tracked : w.Tracked runId) (op : Operation) (clock : Clock) :
    let w' := { w with dir := ((DurableRuntime.Call.run op).perform runId clock w.dir).1 }
    w'.Tracked runId ∧ (w.sight runId).Moves (w'.sight runId) op.command := by
  obtain ⟨before, tracks⟩ := tracked
  obtain ⟨after, acts, tracks'⟩ := perform_call tracks (.run op) clock
  intro w'
  refine ⟨⟨after, tracks'⟩, ?_⟩
  generalize ((DurableRuntime.Call.run op).perform runId clock w.dir).2 = outcome at acts
  cases acts with
  | missing =>
    rw [show w'.sight runId = w.sight runId from sight_of_tracks tracks tracks' rfl]
    exact .refl _ _
  | acted l l' _ _ _ acts => exact acts_moves acts (shows_sight tracks) (shows_sight (w := w') tracks') rfl

theorem create_effect {w : World} (tracked : w.Tracked runId) (creation : Creation) (clock : Clock) :
    let called := (DurableRuntime.Call.create creation).perform runId clock w.dir
    let w' := { w with dir := called.1 }
    w'.Tracked runId ∧ (w'.sight runId = w.sight runId ∨ (w'.sight runId).Starts) ∧
      ∀ s, called.2 = .ok (.snapshot s) → (w'.sight runId).Shows s := by
  obtain ⟨before, tracks⟩ := tracked
  obtain ⟨after, acts, tracks'⟩ := perform_call tracks (.create creation) clock
  intro called w'
  refine ⟨⟨after, tracks'⟩, ?_⟩
  change CallActs before (.create creation) clock after called.2 at acts
  generalize called.2 = outcome at acts ⊢
  cases acts with
  | missing => exact ⟨.inl (sight_of_tracks tracks tracks' rfl), by rintro _ ⟨⟩⟩
  | founded _ _ occurredAt valid stamped =>
    refine ⟨.inr (sight_starts (w := w') tracks'), ?_⟩
    rintro s ⟨⟩
    exact shows_sight (w := w') tracks'
  | «exists» l _ _ _ same =>
    refine ⟨.inl (sight_of_tracks tracks tracks' rfl), ?_⟩
    intro s returned
    cases same _ returned
    exact shows_sight (w := w') tracks'

theorem World.perform_tracked {w : World} (tracked : w.Tracked runId) (oracle : Oracle) (request : Request) :
    (w.perform runId oracle request).1.Tracked runId := by
  cases request with
  | load caller =>
    have same := (load_effect tracked).1
    obtain ⟨ledger, tracks⟩ := tracked
    exact ⟨ledger, by simpa [World.perform, same] using tracks⟩
  | createRun nodeIds key => exact (create_effect tracked _ _).1
  | operate caller op => exact (operate_effect tracked op oracle.clock).1
  | _ => exact tracked

/-- What a request does to a run's files and what its reply says of them. -/
theorem World.perform_effect {w : World} (tracked : w.Tracked runId) (oracle : Oracle) (request : Request) :
    (w.sight runId).Effect request ((w.perform runId oracle request).1.sight runId)
      (w.perform runId oracle request).2 := by
  cases request with
  | load caller =>
    obtain ⟨same, reply⟩ := load_effect tracked
    refine ⟨?_, reply⟩
    simp [World.perform, World.sight, same]
  | createRun nodeIds key =>
    obtain ⟨_, change, reply⟩ := create_effect tracked ⟨nodeIds, none, none, oracle.environment, oracle.git, key⟩ oracle.clock
    exact ⟨rfl, change, reply⟩
  | operate caller op => exact (operate_effect tracked op oracle.clock).2
  | hasResult nodeId | readResult nodeId => exact ⟨rfl, rfl⟩
  | events | writeResult result | readManifest | writeManifest manifest | invoke node => exact rfl

theorem acts_still {l l' : RunLedger runId} {op : Operation} {clock : Clock} {outcome : Outcome Value}
    (acts : Acts l op clock l' outcome) (still : Still op.command) : l.state.SameStates l'.state := by
  cases acts with
  | refused => exact .refl _
  | repeated => exact .refl _
  | recorded change occurredAt value valid decided =>
    rw [record_state]
    generalize op.command = command at still decided
    cases still with
    | acquireLease nodeId owner ttlSeconds =>
      obtain ⟨node, hn, ⟨lease, hv, _⟩ | ⟨now, expiresAt, _, _, _, _, hv⟩⟩ := acquireLease_ok decided <;> cases hv
      exact ⟨rfl, fun j => stateOf_updateNode (by intro _; rfl) l.state.nodes⟩
    | releaseLease nodeId token =>
      rcases releaseLease_ok decided with ⟨hv, _⟩ | ⟨node, lease, hn, hl, ht, _, hv⟩ <;> cases hv
      exact ⟨rfl, fun j => stateOf_updateNode (by intro _; rfl) l.state.nodes⟩
    | recordRetry nodeId classification reason baseDelay maxDelay =>
      obtain ⟨node, _, _, _, _, ⟨_, hv, _⟩ | ⟨hv, _⟩⟩ := recordRetry_ok decided <;> cases hv
      exact ⟨rfl, fun j => stateOf_updateNode (by intro _; rfl) l.state.nodes⟩

theorem World.perform_unseen {w : World} (tracked : w.Tracked runId) (oracle : Oracle) {request : Request}
    (unseen : request.Unseen) : (w.perform runId oracle request).1.sight runId = w.sight runId := by
  cases unseen with
  | load caller => simp [World.perform, World.sight, (load_effect tracked).1]
  | operate caller op still =>
    obtain ⟨before, tracks⟩ := tracked
    obtain ⟨after, acts, tracks'⟩ := perform_call tracks (.run op) oracle.clock
    generalize ((DurableRuntime.Call.run op).perform runId oracle.clock w.dir).2 = outcome at acts
    cases acts with
    | missing => exact sight_of_tracks tracks tracks' rfl
    | acted l l' _ _ _ acts =>
      have same := acts_still acts still
      have nodes : (fun nodeId => l'.state.stateOf nodeId) = fun nodeId => l.state.stateOf nodeId :=
        funext same.nodes
      simp [World.sight, World.perform, loaded_some tracks, loaded_some tracks', same.run, nodes]
  | events | invoke node => rfl

end Onmc.Runtime
