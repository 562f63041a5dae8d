import Onmc.DurableRuntime.Evidence
import Onmc.DurableRuntime.Leases
import Onmc.Separated

/-! Tokens as fences. Each acquisition gives out a token and each heartbeat or release names one;
tokens fence when no two acquisitions share one and every use names the node's latest. -/
namespace Onmc.DurableRuntime

/-- A `lease_acquired` event. -/
structure Grant where
  nodeId : String
  owner : String
  token : String
  key : String
  sequence : Nat

/-- A `lease_heartbeat` or `lease_released` event. -/
structure Use where
  nodeId : String
  token : String
  sequence : Nat

def fieldOf (event : Event) (key : String) : Option String := (event.payload.get? key).bind str?

def grantOf (event : Event) : Option Grant :=
  if event.eventType = EventKind.leaseAcquired.value then do
    let nodeId ← fieldOf event "node_id"
    let owner ← fieldOf event "owner"
    let token ← fieldOf event "token"
    return ⟨nodeId, owner, token, event.idempotencyKey, event.sequence⟩
  else none

def useOf (event : Event) : Option Use :=
  if event.eventType = EventKind.leaseHeartbeat.value ∨ event.eventType = EventKind.leaseReleased.value then do
    let nodeId ← fieldOf event "node_id"
    let token ← fieldOf event "token"
    return ⟨nodeId, token, event.sequence⟩
  else none

def grantsOf (log : List Event) : List Grant := log.filterMap grantOf

def usesOf (log : List Event) : List Use := log.filterMap useOf

/-- No two acquisitions share a token, and whoever heartbeats or releases a lease names the token
of the node's latest acquisition and of no other. -/
def Fenced (log : List Event) : Prop :=
  (∀ g ∈ grantsOf log, ∀ h ∈ grantsOf log, g.token = h.token → g.sequence = h.sequence) ∧
  ∀ u ∈ usesOf log, ∀ g ∈ grantsOf log, g.token = u.token →
    g.nodeId = u.nodeId ∧ g.sequence < u.sequence ∧
    ∀ h ∈ grantsOf log, h.nodeId = u.nodeId → h.sequence < u.sequence → h.sequence ≤ g.sequence

def nul : Char := Char.ofNat 0

/-- Owner and key of two acquisitions of one node are such that the second's owner runs through the
separators of the first. -/
def Grant.Hides (g h : Grant) : Prop :=
  g.nodeId = h.nodeId ∧ g.sequence ≠ h.sequence ∧
    Separated.Overlaps nul g.owner.toList (toString g.sequence).toList g.key.toList
      h.owner.toList (toString h.sequence).toList h.key.toList

/-! The same, read off the entries. -/

def Entry.grant? (sequence : Nat) (entry : Entry) : Option Grant :=
  match entry.change with
  | .leaseAcquired nodeId lease _ => some ⟨nodeId, lease.owner, lease.token, entry.key, sequence⟩
  | _ => none

def Entry.use? (sequence : Nat) (entry : Entry) : Option Use :=
  match entry.change with
  | .leaseHeartbeat nodeId token _ _ _ | .leaseReleased nodeId token => some ⟨nodeId, token, sequence⟩
  | _ => none

/-- Entries numbered from `start`, read one by one. -/
def readNumbered (read : Nat → Entry → Option α) (start : Nat) (entries : List Entry) : List α :=
  (entries.zipIdx start).filterMap (fun item => read item.2 item.1)

theorem mem_readNumbered {read : Nat → Entry → Option α} {start : Nat} {entries : List Entry} {a : α} :
    a ∈ readNumbered read start entries ↔
      ∃ n entry, start ≤ n ∧ entries[n - start]? = some entry ∧ read n entry = some a := by
  unfold readNumbered
  rw [List.mem_filterMap]
  constructor
  · rintro ⟨⟨entry, n⟩, member, hread⟩
    obtain ⟨low, place⟩ := List.mk_mem_zipIdx_iff_le_and_getElem?_sub.mp member
    exact ⟨n, entry, low, place, hread⟩
  · rintro ⟨n, entry, low, place, hread⟩
    exact ⟨(entry, n), List.mk_mem_zipIdx_iff_le_and_getElem?_sub.mpr ⟨low, place⟩, hread⟩

theorem readNumbered_concat (read : Nat → Entry → Option α) (start : Nat) (entries : List Entry)
    (entry : Entry) : readNumbered read start (entries ++ [entry]) =
      readNumbered read start entries ++ (read (start + entries.length) entry).toList := by
  simp only [readNumbered, List.zipIdx_append, List.filterMap_append, List.zipIdx_cons, List.zipIdx_nil]
  cases h : read (start + entries.length) entry with
  | none => simp [h]
  | some a => simp [h]

theorem grant?_sequence {n : Nat} {entry : Entry} {g : Grant} (h : entry.grant? n = some g) :
    g.sequence = n := by
  unfold Entry.grant? at h
  split at h
  · cases h
    rfl
  · cases h

theorem fieldOf_sorted (event : Event) (key : String) : fieldOf event.sorted key = fieldOf event key := by
  simp only [fieldOf, Event.sorted, Json.get?_canonical]
  cases event.payload.get? key with
  | none => rfl
  | some v => exact str?_canonical v

theorem grantOf_sorted (event : Event) : grantOf event.sorted = grantOf event := by
  simp only [grantOf, fieldOf_sorted]
  rfl

theorem useOf_sorted (event : Event) : useOf event.sorted = useOf event := by
  simp only [useOf, fieldOf_sorted]
  rfl

variable [Sha256]

theorem grantOf_event (runId : String) (snapshot : Option RunSnapshot) (entry : Entry) :
    grantOf (entry.event runId snapshot).sorted = entry.grant? (nextSequence snapshot) := by
  rw [grantOf_sorted]
  obtain ⟨change, key, occurredAt⟩ := entry
  cases change with
  | leaseAcquired nodeId lease ttlSeconds =>
    simp [grantOf, fieldOf, Entry.event, Change.kind, Change.payload, Json.get?, List.lookup_cons, Entry.grant?]
  | _ => simp [grantOf, Entry.event, Change.kind, EventKind.value, Entry.grant?]

theorem useOf_event (runId : String) (snapshot : Option RunSnapshot) (entry : Entry) :
    useOf (entry.event runId snapshot).sorted = entry.use? (nextSequence snapshot) := by
  rw [useOf_sorted]
  obtain ⟨change, key, occurredAt⟩ := entry
  cases change with
  | leaseHeartbeat nodeId token heartbeatAt expiresAt ttlSeconds =>
    simp [useOf, fieldOf, Entry.event, Change.kind, Change.payload, Json.get?, List.lookup_cons, Entry.use?]
  | leaseReleased nodeId token =>
    simp [useOf, fieldOf, Entry.event, Change.kind, Change.payload, Json.get?, List.lookup_cons, Entry.use?]
  | _ => simp [useOf, Entry.event, Change.kind, EventKind.value, Entry.use?]

/-- A reader of events that agrees with a reader of entries reads the same off a whole log. -/
theorem readNumbered_log {runId : String} {ofEvent : Event → Option α} {read : Nat → Entry → Option α}
    (agree : ∀ snapshot entry, ofEvent (entry.event runId snapshot).sorted = read (nextSequence snapshot) entry)
    {snapshot : Option RunSnapshot} {entries : List Entry} {visited : List RunSnapshot}
    (h : EventLog.states (extend runId) snapshot entries = .ok visited) :
    ((logEvents runId snapshot entries visited).map Event.sorted).filterMap ofEvent =
      readNumbered read (nextSequence snapshot) entries := by
  induction entries generalizing snapshot visited with
  | nil => rfl
  | cons entry entries ih =>
    obtain ⟨next, rest, hn, hr, rfl⟩ := EventLog.states_cons.mp h
    have index : nextSequence (some next) = nextSequence snapshot + 1 := by
      rw [nextSequence_some, (extend_position hn).1]
    have tail := ih hr
    rw [index] at tail
    simp only [logEvents, List.map_cons, List.filterMap_cons, agree, tail, readNumbered, List.zipIdx_cons]

/-- Sequence numbers of a ledger's snapshot count its entries. -/
theorem state_sequence {runId : String} (l : RunLedger runId) : l.state.lastSequence = l.entries.length := by
  have at_end : l.visited[l.visited.length - 1]? = some l.state := by
    rw [← List.getLast?_eq_getElem?]
    exact l.getLast?_visited
  have sequence := visited_sequence l.replays at_end
  have started := List.length_pos_iff.mpr l.started
  have length := l.length_visited
  rw [nextSequence_none] at sequence
  omega

/-! Node ids never hold the separator. -/

omit [Sha256] in
theorem createdNodes_mem {nodeIds : List String} {nodeId : String} {node : NodeSnapshot}
    (h : (createdNodes nodeIds).lookup nodeId = some node) : nodeId ∈ nodeIds := by
  have all : ∀ nodes : List (String × NodeSnapshot), (∀ j node, nodes.lookup j = some node → j ∈ nodeIds) →
      ∀ rest : List String, (∀ j ∈ rest, j ∈ nodeIds) → ∀ j node,
        (rest.foldl (fun nodes nodeId => Dict.setItem nodeId (.fresh nodeId) nodes) nodes).lookup j = some node →
        j ∈ nodeIds := by
    intro nodes hn rest
    induction rest generalizing nodes with
    | nil => exact fun _ => hn
    | cons first rest ih =>
      intro hr
      refine ih _ ?_ (fun j hj => hr j (List.mem_cons_of_mem _ hj))
      intro j node found
      rw [Dict.lookup_setItem] at found
      split at found
      · rename_i same
        rw [same]
        exact hr first List.mem_cons_self
      · exact hn j node found
  exact all [] (by simp) nodeIds (fun _ h => h) nodeId node h

omit [Sha256] in
theorem validateId_ok {value kind : String} (h : validateId value kind = .ok ()) : safeId value = true := by
  unfold validateId at h
  split at h
  · assumption
  · cases h

omit [Sha256] in
theorem validateIds_ok {nodeIds : List String} (h : validateIds nodeIds = .ok ()) :
    ∀ nodeId ∈ nodeIds, safeId nodeId = true := by
  induction nodeIds with
  | nil => simp
  | cons first rest ih =>
    obtain ⟨_, hfirst, hrest⟩ := Except.bind_ok.mp h
    intro nodeId member
    rcases List.mem_cons.mp member with rfl | member
    · exact validateId_ok hfirst
    · exact ih hrest nodeId member

omit [Sha256] in
theorem validate_nodes {runId : String} {creation : Creation} (h : creation.validate runId = .ok ()) :
    ∀ nodeId ∈ creation.nodeIds, safeId nodeId = true := by
  obtain ⟨_, _, h⟩ := Except.bind_ok.mp h
  obtain ⟨_, _, h⟩ := Except.bind_ok.mp h
  obtain ⟨_, _, h⟩ := Except.bind_ok.mp h
  exact validateIds_ok h

omit [Sha256] in
theorem safeId_nul {text : String} (h : safeId text = true) : nul ∉ text.toList := by
  unfold safeId at h
  cases first : text.toList with
  | nil => simp
  | cons c cs =>
    rw [first] at h
    simp only [Bool.and_eq_true, List.all_eq_true] at h
    intro member
    rcases List.mem_cons.mp member with head | tail
    · rw [← head] at h
      exact absurd h.1 (by decide)
    · exact absurd (h.2 nul tail) (by decide)

omit [Sha256] in
theorem digits_nul (n : Nat) : nul ∉ (toString n).toList := by
  intro member
  have digit := Json.toDigits_isDigit n nul (by simpa [Nat.repr] using member)
  exact absurd digit (by decide)

omit [Sha256] in
theorem digits_inj {m n : Nat} (h : (toString m).toList = (toString n).toList) : m = n := by
  have digits : Nat.toDigits 10 m = Nat.toDigits 10 n := by simpa [Nat.repr] using h
  rw [← Nat.ofDigitChars_ten_toDigits (n := m), digits, Nat.ofDigitChars_ten_toDigits]

/-! The invariant. -/

def grants {runId : String} (l : RunLedger runId) : List Grant := readNumbered Entry.grant? 1 l.entries

def uses {runId : String} (l : RunLedger runId) : List Use := readNumbered Entry.use? 1 l.entries

/-- What holds of every run, whatever the tokens: each is made of its acquisition, each lease is
held by the node's latest acquisition, and each use names a token that was the latest. -/
structure Fences {runId : String} (l : RunLedger runId) : Prop where
  nodes : ∀ nodeId node, l.state.nodes.lookup nodeId = some node → safeId nodeId = true
  made : ∀ g ∈ grants l, safeId g.nodeId = true ∧ g.sequence ≤ l.entries.length ∧
    g.token = Sha256.hexdigest (tokenMaterial runId g.nodeId g.owner g.sequence g.key)
  held : ∀ nodeId node lease, l.state.nodes.lookup nodeId = some node → node.lease = some lease →
    ∃ g ∈ grants l, g.nodeId = nodeId ∧ g.token = lease.token ∧
      ∀ h ∈ grants l, h.nodeId = nodeId → h.sequence ≤ g.sequence
  used : ∀ u ∈ uses l, u.sequence ≤ l.entries.length ∧
    ∃ g ∈ grants l, g.nodeId = u.nodeId ∧ g.token = u.token ∧ g.sequence < u.sequence ∧
      ∀ h ∈ grants l, h.nodeId = u.nodeId → h.sequence < u.sequence → h.sequence ≤ g.sequence

theorem verdict_leaseAcquired {runId key : String} {clock : Clock} {s : RunSnapshot} {command : Command}
    {nodeId : String} {lease : Lease} {ttlSeconds : Num}
    (h : command.verdict runId key clock s = .ok (.append (.leaseAcquired nodeId lease ttlSeconds))) :
    (∃ node, s.nodes.lookup nodeId = some node) ∧
      lease.token = s.nextToken runId nodeId lease.owner key := by
  cases command with
  | transitionRun => rcases transitionRun_ok h with ⟨hv, _⟩ | ⟨hv, _⟩ <;> cases hv
  | transitionNode => obtain ⟨node, _, ⟨hv, _⟩ | ⟨hv, _⟩⟩ := transitionNode_ok h <;> cases hv
  | acquireLease =>
    obtain ⟨node, hn, ⟨held, hv, _⟩ | ⟨now, expiresAt, _, _, _, _, hv⟩⟩ := acquireLease_ok h
    · cases hv
    · cases hv
      exact ⟨⟨node, hn⟩, rfl⟩
  | heartbeat =>
    obtain ⟨node, lease, _, _, ⟨hv, _⟩ | ⟨now, expiresAt, _, _, _, _, _, hv⟩⟩ := heartbeat_ok h <;> cases hv
  | releaseLease => rcases releaseLease_ok h with ⟨hv, _⟩ | ⟨_, _, _, _, _, _, hv⟩ <;> cases hv
  | expireLeases => rcases expireLeases_ok h with hv | ⟨_, _, hv, _⟩ <;> cases hv
  | recordRetry => obtain ⟨node, _, _, _, _, ⟨_, hv, _⟩ | ⟨hv, _⟩⟩ := recordRetry_ok h <;> cases hv

theorem verdict_leaseHeartbeat {runId key : String} {clock : Clock} {s : RunSnapshot} {command : Command}
    {nodeId token : String} {heartbeatAt expiresAt : DateTime} {ttlSeconds : Num}
    (h : command.verdict runId key clock s =
      .ok (.append (.leaseHeartbeat nodeId token heartbeatAt expiresAt ttlSeconds))) :
    ∃ node lease, s.nodes.lookup nodeId = some node ∧ node.lease = some lease ∧ lease.token = token := by
  cases command with
  | transitionRun => rcases transitionRun_ok h with ⟨hv, _⟩ | ⟨hv, _⟩ <;> cases hv
  | transitionNode => obtain ⟨node, _, ⟨hv, _⟩ | ⟨hv, _⟩⟩ := transitionNode_ok h <;> cases hv
  | acquireLease =>
    obtain ⟨node, hn, ⟨held, hv, _⟩ | ⟨now, expiresAt, _, _, _, _, hv⟩⟩ := acquireLease_ok h <;> cases hv
  | heartbeat =>
    obtain ⟨node, lease, hn, hl, ⟨hv, _⟩ | ⟨now, expiresAt, _, _, _, _, owned, hv⟩⟩ := heartbeat_ok h
    · cases hv
    · cases hv
      exact ⟨node, lease, hn, hl, owned⟩
  | releaseLease => rcases releaseLease_ok h with ⟨hv, _⟩ | ⟨_, _, _, _, _, _, hv⟩ <;> cases hv
  | expireLeases => rcases expireLeases_ok h with hv | ⟨_, _, hv, _⟩ <;> cases hv
  | recordRetry => obtain ⟨node, _, _, _, _, ⟨_, hv, _⟩ | ⟨hv, _⟩⟩ := recordRetry_ok h <;> cases hv

theorem mem_grants_record {runId : String} {l : RunLedger runId} {entry : Entry}
    {fits : entry.change.Fits l.state.progress} {unused : l.state.Unused entry.key} {g : Grant} :
    g ∈ grants (record l entry fits unused) ↔ g ∈ grants l ∨ entry.grant? (1 + l.entries.length) = some g := by
  have entries : (record l entry fits unused).entries = l.entries ++ [entry] := rfl
  simp only [grants, entries, readNumbered_concat, List.mem_append, Option.mem_toList]

theorem mem_uses_record {runId : String} {l : RunLedger runId} {entry : Entry}
    {fits : entry.change.Fits l.state.progress} {unused : l.state.Unused entry.key} {u : Use} :
    u ∈ uses (record l entry fits unused) ↔ u ∈ uses l ∨ entry.use? (1 + l.entries.length) = some u := by
  have entries : (record l entry fits unused).entries = l.entries ++ [entry] := rfl
  simp only [uses, entries, readNumbered_concat, List.mem_append, Option.mem_toList]

omit [Sha256] in
theorem grant?_some {n : Nat} {entry : Entry} {g : Grant} (h : entry.grant? n = some g) :
    ∃ lease ttlSeconds, entry.change = .leaseAcquired g.nodeId lease ttlSeconds ∧ g.owner = lease.owner ∧
      g.token = lease.token ∧ g.key = entry.key ∧ g.sequence = n := by
  unfold Entry.grant? at h
  split at h
  · rename_i nodeId lease ttlSeconds change
    cases h
    exact ⟨lease, ttlSeconds, change, rfl, rfl, rfl, rfl⟩
  · cases h

omit [Sha256] in
theorem use?_some {n : Nat} {entry : Entry} {u : Use} (h : entry.use? n = some u) :
    ((∃ heartbeatAt expiresAt ttlSeconds,
        entry.change = .leaseHeartbeat u.nodeId u.token heartbeatAt expiresAt ttlSeconds) ∨
      entry.change = .leaseReleased u.nodeId u.token) ∧ u.sequence = n := by
  unfold Entry.use? at h
  split at h
  · rename_i nodeId token heartbeatAt expiresAt ttlSeconds change
    cases h
    exact ⟨.inl ⟨heartbeatAt, expiresAt, ttlSeconds, change⟩, rfl⟩
  · rename_i nodeId token change
    cases h
    exact ⟨.inr change, rfl⟩
  · cases h

/-- A lease that is used is the node's, with the token that is named. -/
theorem used_lease {runId key : String} {clock : Clock} {s : RunSnapshot} {command : Command} {entry : Entry}
    {n : Nat} {u : Use} (decided : command.verdict runId key clock s = .ok (.append entry.change))
    (h : entry.use? n = some u) :
    ∃ node lease, s.nodes.lookup u.nodeId = some node ∧ node.lease = some lease ∧ lease.token = u.token := by
  obtain ⟨⟨heartbeatAt, expiresAt, ttlSeconds, change⟩ | change, _⟩ := use?_some h
  · rw [change] at decided
    exact verdict_leaseHeartbeat decided
  · rw [change] at decided
    exact (verdict_fits decided).1

theorem fences_record {runId key : String} {l : RunLedger runId} {clock : Clock} {command : Command}
    {entry : Entry} (decided : command.verdict runId key clock l.state = .ok (.append entry.change))
    (keyed : entry.key = key) (fits : entry.change.Fits l.state.progress)
    (unused : l.state.Unused entry.key) (h : Fences l) : Fences (record l entry fits unused) := by
  have length : (record l entry fits unused).entries.length = l.entries.length + 1 := by
    change (l.entries ++ [entry]).length = _
    simp
  have earlier : ∀ nodeId node, (record l entry fits unused).state.nodes.lookup nodeId = some node →
      ∃ before, l.state.nodes.lookup nodeId = some before := by
    intro nodeId node found
    rw [record_state] at found
    obtain ⟨before, hb, _⟩ := effect_nodeState entry.occurredAt l.state.progress entry.change found
    exact ⟨before, hb⟩
  refine ⟨?_, ?_, ?_, ?_⟩
  · intro nodeId node found
    obtain ⟨before, hb⟩ := earlier nodeId node found
    exact h.nodes nodeId before hb
  · intro g member
    rcases mem_grants_record.mp member with old | new
    · obtain ⟨safe, bound, token⟩ := h.made g old
      exact ⟨safe, by omega, token⟩
    · obtain ⟨lease, ttlSeconds, change, owner, token, named, sequence⟩ := grant?_some new
      rw [change] at decided
      obtain ⟨⟨node, hn⟩, made⟩ := verdict_leaseAcquired decided
      refine ⟨h.nodes g.nodeId node hn, by omega, ?_⟩
      rw [token, made, RunSnapshot.nextToken, state_sequence, owner, named, keyed, sequence, Nat.add_comm]
  · intro nodeId node lease found active
    rw [record_state] at found
    rcases lease_origin entry.change entry.occurredAt l.state.progress found active with
      ⟨ttlSeconds, change⟩ | ⟨other, before, previous, hb, hl, same⟩
    · refine ⟨⟨nodeId, lease.owner, lease.token, entry.key, 1 + l.entries.length⟩, ?_, rfl, rfl, ?_⟩
      · refine mem_grants_record.mpr (.inr ?_)
        simp only [Entry.grant?, change]
      · intro g member _
        rcases mem_grants_record.mp member with old | new
        · have bound := (h.made g old).2.1
          change g.sequence ≤ 1 + l.entries.length
          omega
        · exact Nat.le_of_eq (grant?_sequence new)
    · obtain ⟨g, member, node, token, latest⟩ := h.held nodeId before previous hb hl
      refine ⟨g, mem_grants_record.mpr (.inl member), node, token.trans same.2.symm, ?_⟩
      intro g' member' node'
      rcases mem_grants_record.mp member' with old | new
      · exact latest g' old node'
      · obtain ⟨given, ttlSeconds, change, _⟩ := grant?_some new
        rw [node'] at change
        exact absurd change (other given ttlSeconds)
  · intro u member
    rcases mem_uses_record.mp member with old | new
    · obtain ⟨bound, g, mine, node, token, before, latest⟩ := h.used u old
      refine ⟨by omega, g, mem_grants_record.mpr (.inl mine), node, token, before, ?_⟩
      intro g' member' node' before'
      rcases mem_grants_record.mp member' with old' | new'
      · exact latest g' old' node' before'
      · have sequence := grant?_sequence new'
        omega
    · obtain ⟨node, lease, hn, hl, named⟩ := used_lease decided new
      obtain ⟨g, mine, same, token, latest⟩ := h.held u.nodeId node lease hn hl
      have sequence := (use?_some new).2
      have bound := (h.made g mine).2.1
      refine ⟨by omega, g, mem_grants_record.mpr (.inl mine), same, token.trans named, by omega, ?_⟩
      intro g' member' node' before'
      rcases mem_grants_record.mp member' with old' | new'
      · exact latest g' old' node'
      · have sequence' := grant?_sequence new'
        omega

theorem reached_fences {runId : String} {l : RunLedger runId} (h : Reached l) : Fences l := by
  induction h with
  | founded creation occurredAt valid =>
    have none_granted : grants (founded runId creation occurredAt) = [] := rfl
    have none_used : uses (founded runId creation occurredAt) = [] := rfl
    refine ⟨?_, ?_, ?_, ?_⟩
    · intro nodeId node found
      exact validate_nodes valid nodeId (createdNodes_mem found)
    · simp [none_granted]
    · intro nodeId node lease found active
      rw [lookup_createdNodes creation.nodeIds found] at active
      cases active
    · simp [none_used]
  | acted l l' op clock outcome reached acts ih =>
    cases acts with
    | refused => exact ih
    | repeated => exact ih
    | recorded change occurredAt value valid decided => exact fences_record decided rfl _ _ ih

/-! The tokens of two acquisitions. -/

omit [Sha256] in
theorem tokenMaterial_toList (runId nodeId owner : String) (sequence : Nat) (key : String) :
    (tokenMaterial runId nodeId owner sequence key).toList =
      runId.toList ++ nul :: (nodeId.toList ++ nul :: (owner.toList ++ nul ::
        ((toString sequence).toList ++ nul :: key.toList))) := by
  simp [tokenMaterial, nul, String.toList_append]

omit [Sha256] in
/-- Two acquisitions of a run are made of one text exactly when one hides the other. -/
theorem material_same_iff {runId : String} {g h : Grant} (safe : safeId runId = true)
    (node : safeId g.nodeId = true) (node' : safeId h.nodeId = true) (other : g.sequence ≠ h.sequence) :
    tokenMaterial runId g.nodeId g.owner g.sequence g.key =
        tokenMaterial runId h.nodeId h.owner h.sequence h.key ↔ g.Hides h ∨ h.Hides g := by
  have fields : g.owner.toList ++ nul :: ((toString g.sequence).toList ++ nul :: g.key.toList) =
        h.owner.toList ++ nul :: ((toString h.sequence).toList ++ nul :: h.key.toList) ↔ _ :=
    Separated.same_iff (digits_nul g.sequence) (digits_nul h.sequence) (fun same => other (digits_inj same))
  constructor
  · intro same
    have texts := congrArg String.toList same
    rw [tokenMaterial_toList, tokenMaterial_toList] at texts
    obtain ⟨_, rest⟩ := Separated.first_determined (safeId_nul safe) (safeId_nul safe) texts
    obtain ⟨nodes, rest⟩ := Separated.first_determined (safeId_nul node) (safeId_nul node') rest
    have nodes : g.nodeId = h.nodeId := String.toList_inj.mp nodes
    rcases fields.mp rest with overlap | overlap
    · exact .inl ⟨nodes, other, overlap⟩
    · exact .inr ⟨nodes.symm, other.symm, overlap⟩
  · intro hides
    have rest : g.owner.toList ++ nul :: ((toString g.sequence).toList ++ nul :: g.key.toList) =
        h.owner.toList ++ nul :: ((toString h.sequence).toList ++ nul :: h.key.toList) := by
      rcases hides with ⟨_, _, overlap⟩ | ⟨_, _, overlap⟩
      · exact fields.mpr (.inl overlap)
      · exact fields.mpr (.inr overlap)
    have nodes : g.nodeId = h.nodeId := by
      rcases hides with ⟨same, _⟩ | ⟨same, _⟩
      · exact same
      · exact same.symm
    apply String.toList_inj.mp
    rw [tokenMaterial_toList, tokenMaterial_toList, rest, nodes]

theorem grants_determined {runId : String} {l : RunLedger runId} {g h : Grant} (hg : g ∈ grants l)
    (hh : h ∈ grants l) (same : g.sequence = h.sequence) : g = h := by
  obtain ⟨n, entry, _, place, read⟩ := mem_readNumbered.mp hg
  obtain ⟨n', entry', _, place', read'⟩ := mem_readNumbered.mp hh
  have number := grant?_sequence read
  have number' := grant?_sequence read'
  have numbers : n = n' := by omega
  subst numbers
  cases place.symm.trans place'
  exact Option.some.inj (read.symm.trans read')

/-- Hidden acquisitions share their token, whatever the digest. -/
theorem hides_token {runId : String} {l : RunLedger runId} (safe : safeId runId = true) (fences : Fences l)
    {g h : Grant} (hg : g ∈ grants l) (hh : h ∈ grants l) (hides : g.Hides h) : g.token = h.token := by
  obtain ⟨node, _, token⟩ := fences.made g hg
  obtain ⟨node', _, token'⟩ := fences.made h hh
  rw [token, token', (material_same_iff safe node node' hides.2.1).mpr (.inl hides)]

theorem token_determined (apart : Function.Injective Sha256.hexdigest) {runId : String} {l : RunLedger runId}
    (safe : safeId runId = true) (fences : Fences l)
    (clear : ∀ g ∈ grants l, ∀ h ∈ grants l, ¬ g.Hides h) {g h : Grant} (hg : g ∈ grants l)
    (hh : h ∈ grants l) (same : g.token = h.token) : g = h := by
  obtain ⟨node, _, token⟩ := fences.made g hg
  obtain ⟨node', _, token'⟩ := fences.made h hh
  rw [token, token'] at same
  by_cases numbers : g.sequence = h.sequence
  · exact grants_determined hg hh numbers
  · rcases (material_same_iff safe node node' numbers).mp (apart same) with hides | hides
    · exact absurd hides (clear g hg h hh)
    · exact absurd hides (clear h hh g hg)

theorem ledger_log {runId : String} (l : RunLedger runId) :
    ∃ log, readEvents runId (filesOf l) = .ok log ∧ grantsOf log = grants l ∧ usesOf log = uses l :=
  ⟨_, (filesOf_holds l).readEvents, readNumbered_log (grantOf_event runId) l.replays,
    readNumbered_log (useOf_event runId) l.replays⟩

/-- Tokens fence in a run, with a digest that tells all texts apart, exactly when no two of its
acquisitions hide one another. -/
theorem fenced_iff (apart : Function.Injective Sha256.hexdigest) (runId : String)
    (calls : List (Call × Clock)) :
    ∃ log, readEvents runId (perform runId .absent calls).1 = .ok log ∧
      (Fenced log ↔ ∀ g ∈ grantsOf log, ∀ h ∈ grantsOf log, ¬ g.Hides h) := by
  have start : Tracks runId .absent none := ⟨rfl, rfl⟩
  obtain ⟨ledger, tracked, _⟩ := perform_tracks start calls
  cases ledger with
  | none =>
    refine ⟨[], ?_, ?_⟩
    · simp only [readEvents, tracked.1]
    · simp [Fenced, grantsOf, usesOf]
  | some l =>
    obtain ⟨safe, files, reached⟩ := tracked
    obtain ⟨log, read, granted, used⟩ := ledger_log l
    have fences := reached_fences reached
    refine ⟨log, files ▸ read, ?_⟩
    simp only [Fenced, granted, used]
    constructor
    · rintro ⟨unique, _⟩ g hg h hh hides
      exact hides.2.1 (unique g hg h hh (hides_token safe fences hg hh hides))
    · intro clear
      constructor
      · intro g hg h hh same
        rw [token_determined apart safe fences clear hg hh same]
      · intro u hu g hg same
        obtain ⟨_, latest, hlatest, node, token, before, others⟩ := fences.used u hu
        have one : g = latest := token_determined apart safe fences clear hg hlatest (same.trans token.symm)
        subst one
        exact ⟨node, before, others⟩

def Grant.fields (g : Grant) : String × String × String × Nat := (g.nodeId, g.owner, g.key, g.sequence)

omit [Sha256] in
theorem hides_owner {g h : Grant} (hides : g.Hides h) : g.owner.toList ++ [nul] <+: h.owner.toList ++ [nul] := by
  obtain ⟨_, _, rest, head, _⟩ := hides
  refine ⟨(toString g.sequence).toList ++ nul :: rest, ?_⟩
  rw [head, List.append_assoc, List.singleton_append]

/-! The node is taken over by an owner of an ordinary name. -/

omit [Sha256] in
theorem takeover_fenced :
    let _ := buildDigest
    ∃ log, readEvents "run" (perform "run" .absent ((.create buildCreation, .reading 0 (by decide)) ::
        takeover.map (fun step => (.run step.1, step.2)))).1 = .ok log ∧ Fenced log := by
  intro _
  obtain ⟨log, read, fenced⟩ := @fenced_iff buildDigest buildDigest_injective "run"
    ((.create buildCreation, .reading 0 (by decide)) :: takeover.map (fun step => (.run step.1, step.2)))
  obtain ⟨l, ⟨safe, files, reached⟩, _, entries⟩ := perform_founded "run" buildCreation ⟨0, by decide⟩
    (.ok ⟨0, by decide⟩) (by decide) takeover
  have recorded : (readNumbered Entry.grant? 1 ((founded "run" buildCreation ⟨0, by decide⟩).entries ++
      entriesAll "run" (founded "run" buildCreation ⟨0, by decide⟩).state takeover)).map Grant.fields =
      [("build", "first", "acquire-1", 2), ("build", "second", "acquire-2", 3)] := by
    decide +kernel
  obtain ⟨log', read', granted, _⟩ := ledger_log l
  rw [← files] at read'
  cases read.symm.trans read'
  rw [← entries] at recorded
  have owners : ∀ g ∈ grants l, (g.owner = "first" ∧ g.sequence = 2) ∨ (g.owner = "second" ∧ g.sequence = 3) := by
    intro g hg
    have fields : g.fields ∈ (grants l).map Grant.fields := List.mem_map_of_mem hg
    rw [grants, recorded] at fields
    simp only [Grant.fields, List.mem_cons, List.not_mem_nil, or_false, Prod.mk.injEq] at fields
    rcases fields with ⟨_, owner, _, sequence⟩ | ⟨_, owner, _, sequence⟩
    · exact .inl ⟨owner, sequence⟩
    · exact .inr ⟨owner, sequence⟩
  refine ⟨log, read, fenced.mpr ?_⟩
  rw [granted]
  intro g hg h hh hides
  have leads := hides_owner hides
  rcases owners g hg with ⟨owner, sequence⟩ | ⟨owner, sequence⟩
  · rcases owners h hh with ⟨owner', sequence'⟩ | ⟨owner', sequence'⟩
    · exact hides.2.1 (sequence.trans sequence'.symm)
    · rw [owner, owner'] at leads
      exact absurd leads (by decide)
  · rcases owners h hh with ⟨owner', sequence'⟩ | ⟨owner', sequence'⟩
    · rw [owner, owner'] at leads
      exact absurd leads (by decide)
    · exact hides.2.1 (sequence.trans sequence'.symm)

/-! A run of one node whose second owner is named after the first token's text. -/

def impostor : List (Operation × Clock) :=
  [(.acquireLease "build" "a" (.int 10) "3\x00k", .reading 0 DateTime.zero_inDay),
    (.acquireLease "build" "a\x002" (.int 10) "k", .reading 20 DateTime.twenty_inDay)]

omit [Sha256] in
/-- The lease that ran out and the one after it have one token. -/
theorem impostor_not_fenced :
    let _ := Sha256.standard
    ∀ log, readEvents "run" (perform "run" .absent ((.create buildCreation, .reading 0 (by decide)) ::
        impostor.map (fun step => (.run step.1, step.2)))).1 = .ok log → ¬ Fenced log := by
  intro _ log read fenced
  obtain ⟨l, tracked, _, entries⟩ := perform_founded "run" buildCreation ⟨0, by decide⟩
    (.ok ⟨0, by decide⟩) (by decide) impostor
  have recorded : (readNumbered Entry.grant? 1 ((founded "run" buildCreation ⟨0, by decide⟩).entries ++
      entriesAll "run" (founded "run" buildCreation ⟨0, by decide⟩).state impostor)).map Grant.fields =
      [("build", "a", "3\x00k", 2), ("build", "a\x002", "k", 3)] := by
    decide +kernel
  obtain ⟨safe, files, reached⟩ := tracked
  obtain ⟨log', read', granted, _⟩ := ledger_log l
  rw [← files] at read'
  cases read.symm.trans read'
  rw [← entries] at recorded
  have first : ("build", "a", "3\x00k", 2) ∈ (grants l).map Grant.fields := by
    rw [grants, recorded]
    simp
  have second : ("build", "a\x002", "k", 3) ∈ (grants l).map Grant.fields := by
    rw [grants, recorded]
    simp
  obtain ⟨g, hg, fields⟩ := List.mem_map.mp first
  obtain ⟨h, hh, fields'⟩ := List.mem_map.mp second
  obtain ⟨nodeId, owner, token, key, sequence⟩ := g
  obtain ⟨nodeId', owner', token', key', sequence'⟩ := h
  simp only [Grant.fields, Prod.mk.injEq] at fields fields'
  obtain ⟨rfl, rfl, rfl, rfl⟩ := fields
  obtain ⟨rfl, rfl, rfl, rfl⟩ := fields'
  have overlap : Separated.Overlaps nul "a".toList (toString 2).toList "3\x00k".toList
      "a\x002".toList (toString 3).toList "k".toList := ⟨[], rfl, rfl⟩
  have hides : Grant.Hides ⟨"build", "a", token, "3\x00k", 2⟩ ⟨"build", "a\x002", token', "k", 3⟩ :=
    ⟨rfl, by simp, overlap⟩
  have shared := hides_token safe (reached_fences reached) hg hh hides
  have one := fenced.1 _ (granted ▸ hg) _ (granted ▸ hh) shared
  simp at one

end Onmc.DurableRuntime
