import Onmc.DurableRuntime.Runs

/-! Leases as their callers see them. The node's lease belongs to the last acquisition the log
records for it; a call that repeats an older key is answered with that lease all the same. -/
namespace Onmc.DurableRuntime

/-- Owner and key of an event that acquires the node's lease. -/
def acquisition (nodeId : String) (event : Event) : Option (String × String) :=
  if event.eventType = EventKind.leaseAcquired.value ∧
      (event.payload.get? "node_id").bind str? = some nodeId then
    ((event.payload.get? "owner").bind str?).map (fun owner => (owner, event.idempotencyKey))
  else none

/-- Owner and key of the acquisition that gave the node its latest lease. -/
def holder (nodeId : String) (log : List Event) : Option (String × String) :=
  (log.filterMap (acquisition nodeId)).getLast?

def Entry.acquisition (nodeId : String) (entry : Entry) : Option (String × String) :=
  match entry.change with
  | .leaseAcquired leased lease _ => if leased = nodeId then some (lease.owner, entry.key) else none
  | _ => none

/-- A lease that was there before, perhaps renewed. -/
def Lease.Continues (lease : Lease) (after : Lease) : Prop :=
  after.owner = lease.owner ∧ after.token = lease.token

/-- Where a node's lease comes from after a change. -/
theorem lease_origin (change : Change) (occurredAt : DateTime) (p : Progress) {nodeId : String}
    {node : NodeSnapshot} (found : (change.effect occurredAt p).nodes.lookup nodeId = some node)
    {lease : Lease} (held : node.lease = some lease) :
    (∃ ttlSeconds, change = .leaseAcquired nodeId lease ttlSeconds) ∨
    ((∀ other ttlSeconds, change ≠ .leaseAcquired nodeId other ttlSeconds) ∧
      ∃ before earlier, p.nodes.lookup nodeId = some before ∧ before.lease = some earlier ∧
        earlier.Continues lease) := by
  cases change with
  | runCreated => exact .inr ⟨by simp, node, lease, found, held, rfl, rfl⟩
  | runTransition source target reason approvedBy =>
    refine .inr ⟨by simp, ?_⟩
    simp only [Change.effect] at found
    split at found
    · simp only [cancelUnfinished, Dict.lookup_mapValues, Option.map_eq_some_iff] at found
      obtain ⟨before, hb, rfl⟩ := found
      refine ⟨before, lease, hb, ?_, rfl, rfl⟩
      split at held
      · exact held
      · exact held
    · exact ⟨node, lease, found, held, rfl, rfl⟩
  | nodeTransition moved source target reason approvedBy =>
    refine .inr ⟨by simp, ?_⟩
    simp only [Change.effect, lookup_updateNode] at found
    split at found
    · obtain ⟨before, hb, rfl⟩ := Option.map_eq_some_iff.mp found
      exact ⟨before, lease, hb, held, rfl, rfl⟩
    · exact ⟨node, lease, found, held, rfl, rfl⟩
  | leaseAcquired leased given ttlSeconds =>
    simp only [Change.effect, lookup_updateNode] at found
    split at found
    · rename_i same
      obtain ⟨before, hb, rfl⟩ := Option.map_eq_some_iff.mp found
      cases held
      exact .inl ⟨ttlSeconds, same ▸ rfl⟩
    · rename_i other
      refine .inr ⟨?_, node, lease, found, held, rfl, rfl⟩
      intro l ttl h
      cases h
      exact other rfl
  | leaseHeartbeat renewed token heartbeatAt expiresAt ttlSeconds =>
    refine .inr ⟨by simp, ?_⟩
    simp only [Change.effect, lookup_updateNode] at found
    split at found
    · obtain ⟨before, hb, rfl⟩ := Option.map_eq_some_iff.mp found
      obtain ⟨earlier, he, rfl⟩ := Option.map_eq_some_iff.mp held
      exact ⟨before, earlier, hb, he, rfl, rfl⟩
    · exact ⟨node, lease, found, held, rfl, rfl⟩
  | leaseReleased released token =>
    refine .inr ⟨by simp, ?_⟩
    simp only [Change.effect, lookup_updateNode] at found
    split at found
    · obtain ⟨before, hb, rfl⟩ := Option.map_eq_some_iff.mp found
      cases held
    · exact ⟨node, lease, found, held, rfl, rfl⟩
  | leasesExpired nodeIds expiredAt =>
    refine .inr ⟨by simp, ?_⟩
    simp only [Change.effect, lookup_releaseAll] at found
    split at found
    · obtain ⟨before, hb, rfl⟩ := Option.map_eq_some_iff.mp found
      cases held
    · exact ⟨node, lease, found, held, rfl, rfl⟩
  | retryRecorded retried retry baseDelay maxDelay =>
    refine .inr ⟨by simp, ?_⟩
    simp only [Change.effect, lookup_updateNode] at found
    split at found
    · obtain ⟨before, hb, rfl⟩ := Option.map_eq_some_iff.mp found
      exact ⟨before, lease, hb, held, rfl, rfl⟩
    · exact ⟨node, lease, found, held, rfl, rfl⟩

variable [Sha256]

theorem acquisition_event (nodeId runId : String) (snapshot : Option RunSnapshot) (entry : Entry) :
    DurableRuntime.acquisition nodeId (entry.event runId snapshot).sorted = entry.acquisition nodeId := by
  obtain ⟨change, key, occurredAt⟩ := entry
  cases change with
  | leaseAcquired leased lease ttlSeconds =>
    have node : ((Change.leaseAcquired leased lease ttlSeconds).payload.canonical.get? "node_id").bind str? =
        some leased := by
      rw [Json.get?_canonical]
      simp [Change.payload, Json.get?]
    have owner : ((Change.leaseAcquired leased lease ttlSeconds).payload.canonical.get? "owner").bind str? =
        some lease.owner := by
      rw [Json.get?_canonical]
      simp [Change.payload, Json.get?, List.lookup_cons]
    simp only [DurableRuntime.acquisition, Event.sorted, Entry.event, Change.kind, true_and, node, owner,
      Option.some.injEq, Option.map_some, Entry.acquisition]
  | _ =>
    simp [DurableRuntime.acquisition, Event.sorted, Entry.event, Change.kind, EventKind.value,
      Entry.acquisition]

/-- The same, read off the entries. -/
def Entry.lastHolder (nodeId : String) (entries : List Entry) : Option (String × String) :=
  (entries.filterMap (Entry.acquisition nodeId)).getLast?

theorem holder_log {runId : String} {snapshot : Option RunSnapshot} {entries : List Entry}
    {visited : List RunSnapshot} (len : visited.length = entries.length) (nodeId : String) :
    holder nodeId ((logEvents runId snapshot entries visited).map Event.sorted) =
      Entry.lastHolder nodeId entries := by
  have same : ((logEvents runId snapshot entries visited).map Event.sorted).filterMap
      (DurableRuntime.acquisition nodeId) = entries.filterMap (Entry.acquisition nodeId) := by
    induction entries generalizing snapshot visited with
    | nil =>
      cases visited with
      | nil => rfl
      | cons s visited => cases len
    | cons entry entries ih =>
      cases visited with
      | nil => cases len
      | cons s visited =>
        have tail := @ih (some s) visited (Nat.succ.inj len)
        simp only [logEvents, List.map_cons, List.filterMap_cons, acquisition_event, tail]
  simp only [holder, same, Entry.lastHolder]

omit [Sha256] in
theorem lastHolder_concat (nodeId : String) (entries : List Entry) (entry : Entry) :
    Entry.lastHolder nodeId (entries ++ [entry]) =
      match entry.acquisition nodeId with
      | some by_ => some by_
      | none => Entry.lastHolder nodeId entries := by
  unfold Entry.lastHolder
  cases h : entry.acquisition nodeId with
  | none => simp [h]
  | some pair => simp [h]

/-- Every lease in the snapshot was given out by the node's last acquisition. -/
def Attributed {runId : String} (l : RunLedger runId) : Prop :=
  ∀ nodeId node lease, l.state.nodes.lookup nodeId = some node → node.lease = some lease →
    ∃ key, Entry.lastHolder nodeId l.entries = some (lease.owner, key)

omit [Sha256] in
theorem fresh_setItem {nodes : List (String × NodeSnapshot)} (nodeId : String)
    (h : ∀ j node, nodes.lookup j = some node → node = .fresh j) :
    ∀ j node, (Dict.setItem nodeId (.fresh nodeId) nodes).lookup j = some node → node = .fresh j := by
  intro j node found
  rw [Dict.lookup_setItem] at found
  split at found
  · rename_i same
    cases found
    rw [same]
  · exact h j node found

omit [Sha256] in
theorem lookup_createdNodes (nodeIds : List String) {nodeId : String} {node : NodeSnapshot}
    (h : (createdNodes nodeIds).lookup nodeId = some node) : node = .fresh nodeId := by
  have all : ∀ nodes : List (String × NodeSnapshot),
      (∀ j node, nodes.lookup j = some node → node = .fresh j) →
      ∀ j node, (nodeIds.foldl (fun nodes nodeId => Dict.setItem nodeId (.fresh nodeId) nodes) nodes).lookup
        j = some node → node = .fresh j := by
    clear h
    induction nodeIds with
    | nil => exact fun nodes hn => hn
    | cons first rest ih => exact fun nodes hn => ih _ (fresh_setItem first hn)
  exact all [] (by simp) nodeId node h

theorem attributed_record {runId : String} {l : RunLedger runId} (entry : Entry)
    (fits : entry.change.Fits l.state.progress) (unused : l.state.Unused entry.key) (h : Attributed l) :
    Attributed (record l entry fits unused) := by
  intro nodeId node lease found held
  rw [record_state] at found
  have entries : (record l entry fits unused).entries = l.entries ++ [entry] := rfl
  rw [entries, lastHolder_concat]
  rcases lease_origin entry.change entry.occurredAt l.state.progress found held with
    ⟨ttlSeconds, hc⟩ | ⟨other, before, earlier, hb, he, same⟩
  · have given : entry.acquisition nodeId = some (lease.owner, entry.key) := by
      simp only [Entry.acquisition, hc, if_true]
    rw [given]
    exact ⟨entry.key, rfl⟩
  · obtain ⟨key, hk⟩ := h nodeId before earlier hb he
    have none_given : entry.acquisition nodeId = none := by
      unfold Entry.acquisition
      split
      · rename_i leased given ttl hc
        split
        · rename_i hsame
          subst hsame
          exact absurd hc (other given ttl)
        · rfl
      · rfl
    rw [none_given, same.1]
    exact ⟨key, hk⟩

theorem reached_attributed {runId : String} {l : RunLedger runId} (h : Reached l) : Attributed l := by
  induction h with
  | founded creation occurredAt valid =>
    intro nodeId node lease found held
    have fresh := lookup_createdNodes creation.nodeIds found
    rw [fresh] at held
    cases held
  | acted l l' op clock outcome reached acts ih =>
    cases acts with
    | refused => exact ih
    | repeated => exact ih
    | recorded change occurredAt value valid decided => exact attributed_record _ _ _ ih

/-- What a caller may expect of a lease it is handed: an acquisition hands out a lease of its own
owner and key, a heartbeat the lease of its token. -/
def Sees (runId : String) (dir : RunDir) (op : Operation) (clock : Clock) : Prop :=
  ∀ lease, (op.call runId clock dir).2 = .ok (.lease lease) →
    match op with
    | .acquireLease nodeId owner _ key => lease.owner = owner ∧
        ∃ log, readEvents runId (op.call runId clock dir).1 = .ok log ∧
          holder nodeId log = some (owner, key)
    | .heartbeat _ token _ _ => lease.token = token
    | _ => True

/-- The call repeats a recorded key while the node is leased by a later acquisition. -/
def Overtaken (runId : String) (dir : RunDir) : Operation → Prop
  | .acquireLease nodeId owner ttlSeconds key => ∃ s log node lease,
      (load runId dir).2 = .ok s ∧ readEvents runId dir = .ok log ∧
      s.Repeats key (acquireFingerprint nodeId owner ttlSeconds) ∧
      s.nodes.lookup nodeId = some node ∧ node.lease = some lease ∧
      holder nodeId log ≠ some (owner, key)
  | .heartbeat nodeId token ttlSeconds key => ∃ s node lease,
      (load runId dir).2 = .ok s ∧ s.Repeats key (heartbeatFingerprint nodeId token ttlSeconds) ∧
      s.nodes.lookup nodeId = some node ∧ node.lease = some lease ∧ lease.token ≠ token
  | _ => False

theorem readEvents_files {runId : String} (l : RunLedger runId) (nodeId : String) :
    ∃ log, readEvents runId (filesOf l) = .ok log ∧ holder nodeId log = Entry.lastHolder nodeId l.entries :=
  ⟨_, (filesOf_holds l).readEvents, holder_log l.length_visited nodeId⟩

/-- A repeated acquisition is answered with the node's present lease. -/
theorem repeated_acquire {runId : String} {s : RunSnapshot} {nodeId owner key : String} {ttlSeconds : Num}
    {clock : Clock} {node : NodeSnapshot} {lease : Lease}
    (recorded : s.Repeats key (acquireFingerprint nodeId owner ttlSeconds))
    (found : s.nodes.lookup nodeId = some node) (held : node.lease = some lease) :
    acquireLease runId s nodeId owner ttlSeconds key clock = .ok (.done (.lease lease)) := by
  simp [acquireLease, checkIdempotency_repeats recorded, repeatedLease, nodeAt_some found, held, pure,
    Except.pure]

theorem repeated_heartbeat {s : RunSnapshot} {nodeId token key : String} {ttlSeconds : Num}
    {clock : Clock} {node : NodeSnapshot} {lease : Lease}
    (recorded : s.Repeats key (heartbeatFingerprint nodeId token ttlSeconds))
    (found : s.nodes.lookup nodeId = some node) (held : node.lease = some lease) :
    heartbeat s nodeId token ttlSeconds key clock = .ok (.done (.lease lease)) := by
  simp [heartbeat, checkIdempotency_repeats recorded, repeatedLease, nodeAt_some found, held, pure,
    Except.pure]

/-- An acquisition that is not overtaken hands out its own lease. -/
theorem acquire_sees {runId : String} {l l' : RunLedger runId} {nodeId owner key : String}
    {ttlSeconds : Num} {clock : Clock} {lease : Lease} (attributed : Attributed l)
    (acts : Acts l (.acquireLease nodeId owner ttlSeconds key) clock l' (.ok (.lease lease)))
    (clear : ∀ node, l.state.Repeats key (acquireFingerprint nodeId owner ttlSeconds) →
      l.state.nodes.lookup nodeId = some node → node.lease = some lease →
      Entry.lastHolder nodeId l.entries = some (owner, key)) :
    lease.owner = owner ∧ Entry.lastHolder nodeId l'.entries = some (owner, key) := by
  cases acts with
  | repeated value valid decided =>
    obtain ⟨node, hn, ⟨held, hv, hl, recorded⟩ | ⟨_, _, _, _, _, _, hv⟩⟩ := acquireLease_ok decided
    · cases hv
      have mine := clear node recorded hn hl
      obtain ⟨other, ho⟩ := attributed nodeId node lease hn hl
      have same := Option.some.inj (ho.symm.trans mine)
      exact ⟨(Prod.mk.inj same).1, mine⟩
    · cases hv
  | recorded change occurredAt value valid decided stamped result =>
    obtain ⟨node, hn, ⟨held, hv, _⟩ | ⟨now, expiresAt, _, _, _, _, hv⟩⟩ := acquireLease_ok decided
    · cases hv
    · cases hv
      obtain ⟨node', lease', hn', hl', he⟩ := result_reports result
      cases he
      simp only [RunSnapshot.advance, Change.effect, RunSnapshot.progress, lookup_updateNode, if_true, hn,
        Option.map_some, Option.some.injEq] at hn'
      subst hn'
      cases hl'
      refine ⟨rfl, ?_⟩
      have given : Entry.acquisition nodeId ⟨.leaseAcquired nodeId ⟨owner,
          l.state.nextToken runId nodeId owner key, now, now, expiresAt⟩ ttlSeconds, key, occurredAt⟩ =
          some (owner, key) := by
        simp [Entry.acquisition]
      have entries := lastHolder_concat nodeId l.entries ⟨.leaseAcquired nodeId ⟨owner,
        l.state.nextToken runId nodeId owner key, now, now, expiresAt⟩ ttlSeconds, key, occurredAt⟩
      rw [given] at entries
      exact entries

theorem heartbeat_sees {runId : String} {l l' : RunLedger runId} {nodeId token key : String}
    {ttlSeconds : Num} {clock : Clock} {lease : Lease}
    (acts : Acts l (.heartbeat nodeId token ttlSeconds key) clock l' (.ok (.lease lease)))
    (clear : ∀ node, l.state.Repeats key (heartbeatFingerprint nodeId token ttlSeconds) →
      l.state.nodes.lookup nodeId = some node → node.lease = some lease → lease.token = token) :
    lease.token = token := by
  cases acts with
  | repeated value valid decided =>
    obtain ⟨node, held, hn, hl, ⟨hv, recorded⟩ | ⟨_, _, _, _, _, _, _, hv⟩⟩ := heartbeat_ok decided
    · cases hv
      exact clear node recorded hn hl
    · cases hv
  | recorded change occurredAt value valid decided stamped result =>
    obtain ⟨node, held, hn, hl, ⟨hv, _⟩ | ⟨now, expiresAt, _, _, _, _, owned, hv⟩⟩ := heartbeat_ok decided
    · cases hv
    · cases hv
      obtain ⟨node', lease', hn', hl', he⟩ := result_reports result
      cases he
      simp only [RunSnapshot.advance, Change.effect, RunSnapshot.progress, lookup_updateNode, if_true, hn,
        Option.map_some, Option.some.injEq] at hn'
      subst hn'
      simp only [NodeSnapshot.renewed, hl, Option.map_some, Option.some.injEq] at hl'
      subst hl'
      exact owned

/-- One call sees what it may expect exactly when it is not overtaken. -/
theorem sees_iff {runId : String} {dir : RunDir} {ledger : Option (RunLedger runId)}
    (h : Tracks runId dir ledger) (op : Operation) (clock : Clock) :
    Sees runId dir op clock ↔ (op.validate = .ok () → ¬ Overtaken runId dir op) := by
  cases ledger with
  | none =>
    obtain ⟨e, he⟩ := operation_empty runId op clock h.1
    obtain ⟨e', he'⟩ := load_empty runId h.1
    constructor
    · intro _ _ taken
      cases op with
      | acquireLease nodeId owner ttlSeconds key =>
        obtain ⟨s, _, _, _, hs, _⟩ := taken
        rw [he'] at hs
        cases hs
      | heartbeat nodeId token ttlSeconds key =>
        obtain ⟨s, _, _, hs, _⟩ := taken
        rw [he'] at hs
        cases hs
      | _ => exact taken
    · intro _ lease hlease
      rw [he] at hlease
      cases hlease
  | some l =>
    obtain ⟨safe, rfl, reached⟩ := h
    obtain ⟨l', acts, files⟩ := call_acts (filesOf_holds l) op clock
    have files : (op.call runId clock (filesOf l)).1 = filesOf l' := by
      rcases files with files | ⟨files, rfl⟩
      · exact files
      · exact files
    have loaded : (load runId (filesOf l)).2 = .ok l.state := by rw [load_files l safe]
    cases op with
    | acquireLease nodeId owner ttlSeconds key =>
      obtain ⟨log, read, held⟩ := readEvents_files l nodeId
      obtain ⟨log', read', held'⟩ := readEvents_files l' nodeId
      constructor
      · rintro sees valid ⟨s, log₀, node, lease, hs, hr, recorded, hn, hl, other⟩
        rw [loaded] at hs
        rw [read] at hr
        cases hs
        cases hr
        obtain ⟨rfl, outcome⟩ := acts_done acts valid (repeated_acquire recorded hn hl)
        obtain ⟨_, log₁, hr₁, mine⟩ := sees lease outcome
        rw [files, read] at hr₁
        cases hr₁
        exact other mine
      · intro clear lease hlease
        rw [hlease] at acts
        have valid := acts_valid acts
        have mine := acquire_sees (reached_attributed reached) acts (by
          intro node recorded hn hl
          refine not_not.mp (fun other => ?_)
          refine clear valid ⟨l.state, log, node, lease, loaded, read, recorded, hn, hl, ?_⟩
          rw [held]
          exact other)
        exact ⟨mine.1, log', files ▸ read', held'.trans mine.2⟩
    | heartbeat nodeId token ttlSeconds key =>
      constructor
      · rintro sees valid ⟨s, node, lease, hs, recorded, hn, hl, other⟩
        rw [loaded] at hs
        cases hs
        obtain ⟨_, outcome⟩ := acts_done acts valid (repeated_heartbeat recorded hn hl)
        exact other (sees lease outcome)
      · intro clear lease hlease
        rw [hlease] at acts
        have valid := acts_valid acts
        apply heartbeat_sees acts
        intro node recorded hn hl
        exact not_not.mp (fun other => clear valid ⟨l.state, node, lease, loaded, recorded, hn, hl, other⟩)
    | _ => simp [Sees, Overtaken]

/-- In a run, every lease handed out is the caller's own exactly when no call is overtaken. -/
theorem leases_seen_iff (runId : String) (calls : List (Call × Clock)) :
    (∀ before op clock after, calls = before ++ (.run op, clock) :: after →
      Sees runId (perform runId .absent before).1 op clock) ↔
    (∀ before op clock after, calls = before ++ (.run op, clock) :: after →
      op.validate = .ok () → ¬ Overtaken runId (perform runId .absent before).1 op) := by
  have step : ∀ before op clock, Sees runId (perform runId .absent before).1 op clock ↔
      (op.validate = .ok () → ¬ Overtaken runId (perform runId .absent before).1 op) := by
    intro before op clock
    have start : Tracks runId .absent none := ⟨rfl, rfl⟩
    obtain ⟨ledger, tracked, _⟩ := perform_tracks start before
    exact sees_iff tracked op clock
  constructor
  · intro sees before op clock after here
    exact (step before op clock).mp (sees before op clock after here)
  · intro clear before op clock after here
    exact (step before op clock).mpr (clear before op clock after here)

/-! A takeover, and the first owner's repeat after it. -/

/-- The first owner's lease runs out and the second owner takes the node. -/
def takeover : List (Operation × Clock) :=
  [(.acquireLease "build" "first" (.int 10) "acquire-1", Clock.reading 0 DateTime.zero_inDay),
    (.acquireLease "build" "second" (.int 10) "acquire-2", Clock.reading 20 DateTime.twenty_inDay)]

def Value.owner : Value → Option String
  | .lease held => some held.owner
  | _ => none

omit [Sha256] in
/-- The first owner repeats its old call and is handed the second owner's lease. -/
theorem takeover_handed_over :
    ¬ @Sees .standard "run" (@perform .standard "run" .absent
        ((.create buildCreation, Clock.reading 0 (by decide)) ::
          takeover.map (fun step => (.run step.1, step.2)))).1
      (.acquireLease "build" "first" (.int 10) "acquire-1") (Clock.reading 21 (by decide)) := by
  let _ := Sha256.standard
  intro sees
  obtain ⟨l, ⟨safe, files, reached⟩, state, _⟩ := perform_founded "run" buildCreation
    ⟨0, by decide⟩ (.ok ⟨0, by decide⟩) (by decide) takeover
  have handed : ((Operation.acquireLease "build" "first" (.int 10) "acquire-1").step "run"
      (Clock.reading 21 (by decide)) (stepAll "run" (founded "run" buildCreation
        ⟨0, by decide⟩).state takeover)).2.toOption.bind Value.owner = some "second" := by
    decide +kernel
  obtain ⟨l', acts, _⟩ := call_acts (filesOf_holds l)
    (.acquireLease "build" "first" (.int 10) "acquire-1") (Clock.reading 21 (by decide))
  rw [← state, acts_step acts] at handed
  cases outcome : ((Operation.acquireLease "build" "first" (.int 10) "acquire-1").call "run"
      (Clock.reading 21 (by decide)) (filesOf l)).2 with
  | error e => simp [outcome, Except.toOption] at handed
  | ok value =>
    rw [outcome] at handed
    cases value with
    | lease held =>
      rw [← files] at outcome
      have mine := (sees held outcome).1
      simp only [Except.toOption, Option.bind_some, Value.owner, mine] at handed
      exact absurd (Option.some.inj handed) (by decide)
    | snapshot s => simp [Except.toOption, Value.owner] at handed
    | retry r => simp [Except.toOption, Value.owner] at handed

end Onmc.DurableRuntime
