import Onmc.DurableRuntime.Operations

/-! The run as a ledger: the changes its events record, and what each does to the snapshot.
Nothing here knows about text or files; the store's files are shown to hold such a ledger. -/
namespace Onmc.DurableRuntime
open Json (dumps loads)

/-- One event, without what the log around it determines. -/
structure Entry where
  change : Change
  key : String
  occurredAt : DateTime

/-! What a change does. -/

def updateNode (nodeId : String) (f : NodeSnapshot → NodeSnapshot)
    (nodes : List (String × NodeSnapshot)) : List (String × NodeSnapshot) :=
  match nodes.lookup nodeId with
  | some node => Dict.setItem nodeId (f node) nodes
  | none => nodes

@[simp] theorem lookup_updateNode (nodeId j : String) (f : NodeSnapshot → NodeSnapshot)
    (nodes : List (String × NodeSnapshot)) :
    (updateNode nodeId f nodes).lookup j =
      if j = nodeId then (nodes.lookup j).map f else nodes.lookup j := by
  unfold updateNode
  cases h : nodes.lookup nodeId with
  | none =>
    by_cases e : j = nodeId
    · simp [e, h]
    · simp [e]
  | some node =>
    by_cases e : j = nodeId
    · simp [e, h]
    · simp [e]

/-- An empty approver leaves no approval. -/
def approver : Option String → Option String
  | none => none
  | some name => if name = "" then none else some name

def Lease.renewed (heartbeatAt expiresAt : DateTime) (lease : Lease) : Lease :=
  { lease with heartbeatAt, expiresAt }

def NodeSnapshot.renewed (heartbeatAt expiresAt : DateTime) (node : NodeSnapshot) : NodeSnapshot :=
  { node with lease := node.lease.map (.renewed heartbeatAt expiresAt) }

def NodeSnapshot.released (node : NodeSnapshot) : NodeSnapshot := { node with lease := none }

def releaseAll (nodeIds : List String) (nodes : List (String × NodeSnapshot)) :
    List (String × NodeSnapshot) :=
  nodeIds.foldl (fun nodes nodeId => updateNode nodeId .released nodes) nodes

def NodeSnapshot.retried (retry : RetryMetadata) (node : NodeSnapshot) : NodeSnapshot :=
  { node with attempts := retry.attempt, retry := some retry, retryHistory := node.retryHistory ++ [retry] }

def Change.effect (occurredAt : DateTime) (p : Progress) : Change → Progress
  | runCreated .. => p
  | runTransition _ target _ approvedBy =>
    ⟨target, if target = .cancelled then cancelUnfinished p.nodes else p.nodes,
      match approver approvedBy with
      | some name => p.approvals ++ [⟨name, occurredAt⟩]
      | none => p.approvals⟩
  | nodeTransition nodeId _ target _ _ =>
    { p with nodes := updateNode nodeId (fun node => { node with state := target }) p.nodes }
  | leaseAcquired nodeId lease _ =>
    { p with nodes := updateNode nodeId (fun node => { node with lease := some lease }) p.nodes }
  | leaseHeartbeat nodeId _ heartbeatAt expiresAt _ =>
    { p with nodes := updateNode nodeId (.renewed heartbeatAt expiresAt) p.nodes }
  | leaseReleased nodeId _ =>
    { p with nodes := updateNode nodeId .released p.nodes }
  | leasesExpired nodeIds _ => { p with nodes := releaseAll nodeIds p.nodes }
  | retryRecorded nodeId retry _ _ => { p with nodes := updateNode nodeId (.retried retry) p.nodes }

/-- What must hold before a change for its event to be well formed. -/
def Change.Fits (p : Progress) : Change → Prop
  | runCreated .. => False
  | runTransition source target _ _ => source = p.state ∧ target ∈ runTransitions p.state
  | nodeTransition nodeId source target _ _ =>
    ∃ node, p.nodes.lookup nodeId = some node ∧ source = node.state ∧ target ∈ nodeTransitions node.state
  | leaseAcquired nodeId _ _ => ∃ node, p.nodes.lookup nodeId = some node
  | leaseHeartbeat nodeId _ _ _ _ =>
    ∃ node lease, p.nodes.lookup nodeId = some node ∧ node.lease = some lease
  | leaseReleased nodeId token =>
    ∃ node lease, p.nodes.lookup nodeId = some node ∧ node.lease = some lease ∧ lease.token = token
  | leasesExpired nodeIds _ => ∀ nodeId ∈ nodeIds, ∃ node, p.nodes.lookup nodeId = some node
  | retryRecorded nodeId _ _ _ => ∃ node, p.nodes.lookup nodeId = some node

def RunSnapshot.progress (s : RunSnapshot) : Progress := ⟨s.state, s.nodes, s.approvals⟩

@[simp] theorem lookup_releaseAll (nodeIds : List String) (nodes : List (String × NodeSnapshot)) (j : String) :
    (releaseAll nodeIds nodes).lookup j =
      if j ∈ nodeIds then (nodes.lookup j).map .released else nodes.lookup j := by
  induction nodeIds generalizing nodes with
  | nil => simp [releaseAll]
  | cons nodeId nodeIds ih =>
    have tail := ih (updateNode nodeId .released nodes)
    simp only [releaseAll, List.foldl_cons] at tail ⊢
    rw [tail, lookup_updateNode]
    by_cases h : j = nodeId
    · subst h
      cases nodes.lookup j <;> simp [NodeSnapshot.released]
    · simp [h]

theorem effect_state (occurredAt : DateTime) (p : Progress) (change : Change) :
    (change.effect occurredAt p).state = p.state ∨
      ∃ source target reason approvedBy, change = .runTransition source target reason approvedBy ∧
        (change.effect occurredAt p).state = target := by
  cases change with
  | runTransition source target reason approvedBy =>
    exact .inr ⟨source, target, reason, approvedBy, rfl, rfl⟩
  | _ => exact .inl rfl

theorem updateNode_sameState {moved nodeId : String} {f : NodeSnapshot → NodeSnapshot}
    {nodes : List (String × NodeSnapshot)} {after : NodeSnapshot}
    (found : (updateNode moved f nodes).lookup nodeId = some after)
    (same : ∀ node : NodeSnapshot, (f node).state = node.state) :
    ∃ node, nodes.lookup nodeId = some node ∧ after.state = node.state := by
  rw [lookup_updateNode] at found
  split at found
  · obtain ⟨node, hn, rfl⟩ := Option.map_eq_some_iff.mp found
    exact ⟨node, hn, same node⟩
  · exact ⟨after, found, rfl⟩

/-- Where a node's state comes from after a change. -/
theorem effect_nodeState (occurredAt : DateTime) (p : Progress) (change : Change) {nodeId : String}
    {after : NodeSnapshot} (found : (change.effect occurredAt p).nodes.lookup nodeId = some after) :
    ∃ node, p.nodes.lookup nodeId = some node ∧
      (after.state = node.state ∨
        (∃ source target reason approvedBy,
          change = .nodeTransition nodeId source target reason approvedBy ∧ after.state = target) ∨
        (∃ source reason approvedBy, change = .runTransition source .cancelled reason approvedBy ∧
          after.state = .cancelled ∧ node.state.terminal = false)) := by
  cases change with
  | runCreated => exact ⟨after, found, .inl rfl⟩
  | runTransition source target reason approvedBy =>
    simp only [Change.effect] at found
    split at found
    · rename_i cancelled
      subst cancelled
      simp only [cancelUnfinished, Dict.lookup_mapValues, Option.map_eq_some_iff] at found
      obtain ⟨node, hn, rfl⟩ := found
      refine ⟨node, hn, ?_⟩
      split
      · exact .inl rfl
      · rename_i unfinished
        exact .inr (.inr ⟨source, reason, approvedBy, rfl, rfl, by simpa using unfinished⟩)
    · exact ⟨after, found, .inl rfl⟩
  | nodeTransition moved source target reason approvedBy =>
    simp only [Change.effect, lookup_updateNode] at found
    split at found
    · rename_i same
      obtain ⟨node, hn, rfl⟩ := Option.map_eq_some_iff.mp found
      exact ⟨node, hn, .inr (.inl ⟨source, target, reason, approvedBy, same ▸ rfl, rfl⟩)⟩
    · exact ⟨after, found, .inl rfl⟩
  | leaseAcquired leased lease ttlSeconds =>
    obtain ⟨node, hn, same⟩ := updateNode_sameState found (fun _ => rfl)
    exact ⟨node, hn, .inl same⟩
  | leaseHeartbeat renewed token heartbeatAt expiresAt ttlSeconds =>
    obtain ⟨node, hn, same⟩ := updateNode_sameState found (fun _ => rfl)
    exact ⟨node, hn, .inl same⟩
  | leaseReleased released token =>
    obtain ⟨node, hn, same⟩ := updateNode_sameState found (fun _ => rfl)
    exact ⟨node, hn, .inl same⟩
  | leasesExpired nodeIds expiredAt =>
    simp only [Change.effect, lookup_releaseAll] at found
    split at found
    · obtain ⟨node, hn, rfl⟩ := Option.map_eq_some_iff.mp found
      exact ⟨node, hn, .inl rfl⟩
    · exact ⟨after, found, .inl rfl⟩
  | retryRecorded retried retry baseDelay maxDelay =>
    obtain ⟨node, hn, same⟩ := updateNode_sameState found (fun _ => rfl)
    exact ⟨node, hn, .inl same⟩

/-! Reading a payload back gives what was written. -/

@[simp] theorem typed_some (a : α) : typed (some a) = .ok a := rfl
@[simp] theorem orCorrupt_some (a : α) (message : String) : orCorrupt (some a) message = .ok a := rfl
@[simp] theorem typed_none : typed (none : Option α) = raise .typeError "unexpected type" := rfl
@[simp] theorem str?_str (s : String) : str? (.str s) = some s := rfl
@[simp] theorem bool?_bool (b : Bool) : bool? (.bool b) = some b := rfl
@[simp] theorem num?_num (n : Num) : num? (.num n) = some n := rfl
@[simp] theorem intOf_int (n : Int) : intOf (.num (.int n)) = some n := rfl
@[simp] theorem textOf_str (s : String) : textOf (.str s) = some s := rfl

@[simp] theorem datetimeOf_iso (t : DateTime) : datetimeOf (.str t.iso) = .ok t := by
  simp [datetimeOf]

@[simp] theorem notBeforeOf_iso (t : Option DateTime) :
    notBeforeOf (.ofOption (fun t => .str t.iso) t) = .ok t := by
  cases t with
  | none => rfl
  | some t =>
    unfold notBeforeOf Json.ofOption
    split
    · rename_i h
      cases h
    · rename_i h
      exact absurd (Json.str.inj h) t.iso_ne_empty
    · simp [Except.map]

@[simp] theorem raiseIf_ok {condition : Prop} [Decidable condition] {kind : ErrorKind}
    {message : String} {u : Unit} : raiseIf condition kind message = .ok u ↔ ¬ condition := by
  unfold raiseIf
  split
  · rename_i h
    simp [raise, h]
  · rename_i h
    simp [h]

@[simp] theorem raiseIf_false (condition : Prop) [Decidable condition] (kind : ErrorKind)
    (message : String) (h : ¬ condition) : raiseIf condition kind message = .ok () :=
  raiseIf_ok.mpr h

@[simp] theorem corruptIf_false (condition : Prop) [Decidable condition] (message : String)
    (h : ¬ condition) : corruptIf condition message = .ok () :=
  raiseIf_ok.mpr h

@[simp] theorem member_runState (s : RunState) : member RunState.ofValue? "RunState" (.str s.value) = .ok s := by
  simp [member, pure, Except.pure]

@[simp] theorem member_nodeState (s : NodeState) :
    member NodeState.ofValue? "NodeState" (.str s.value) = .ok s := by
  simp [member, pure, Except.pure]

@[simp] theorem member_retryClass (c : RetryClass) :
    member RetryClass.ofValue? "RetryClass" (.str c.value) = .ok c := by
  simp [member, pure, Except.pure]

theorem item_obj (fields : List (String × Json)) (key : String) :
    item (.obj fields) key = match fields.lookup key with
      | some v => .ok v
      | none => raise .keyError (pyRepr key) := rfl

theorem mapM_str? (names : List String) : (names.map Json.str).mapM str? = some names := by
  induction names with
  | nil => rfl
  | cons name names ih => simp [List.mapM_cons, ih]

@[simp] theorem strs?_names (names : List String) : strs? (.arr (names.map .str)) = some names := by
  simp only [strs?, mapM_str?]

@[simp] theorem nullable_str (s : Option String) : nullable str? (.ofOption .str s) = some s := by
  cases s <;> rfl

@[simp] theorem nullable_bool (b : Option Bool) : nullable bool? (.ofOption .bool b) = some b := by
  cases b <;> rfl

@[simp] theorem nullable_num (n : Option Num) : nullable num? (.ofOption .num n) = some n := by
  cases n <;> rfl

@[simp] theorem environmentFromDict_toDict (env : EnvironmentSnapshot) :
    environmentFromDict (environmentToDict env) = .ok env := by
  simp [environmentFromDict, environmentToDict, onlyFields, item_obj, List.lookup_cons, pure, Except.pure]

@[simp] theorem gitFromDict_toDict (git : GitSnapshot) : gitFromDict (gitToDict git) = .ok git := by
  simp [gitFromDict, gitToDict, onlyFields, item_obj, List.lookup_cons, pure, Except.pure]

theorem updateNode_some {nodeId : String} {nodes : List (String × NodeSnapshot)} {node : NodeSnapshot}
    (f : NodeSnapshot → NodeSnapshot) (h : nodes.lookup nodeId = some node) :
    updateNode nodeId f nodes = Dict.setItem nodeId (f node) nodes := by
  simp only [updateNode, h]

theorem nodeAt_some {nodeId : String} {nodes : List (String × NodeSnapshot)} {node : NodeSnapshot}
    (h : nodes.lookup nodeId = some node) : nodeAt nodes nodeId = .ok node := by
  simp only [nodeAt, h]

theorem expireNodes_ok (nodeIds : List String) (nodes : List (String × NodeSnapshot))
    (h : ∀ nodeId ∈ nodeIds, ∃ node, nodes.lookup nodeId = some node) :
    expireNodes nodeIds nodes = .ok (releaseAll nodeIds nodes) := by
  induction nodeIds generalizing nodes with
  | nil => rfl
  | cons nodeId nodeIds ih =>
    obtain ⟨node, hn⟩ := h nodeId List.mem_cons_self
    simp only [expireNodes, nodeAt_some hn, Except.ok_bind, releaseAll, List.foldl_cons,
      updateNode_some _ hn]
    apply ih
    intro other ho
    obtain ⟨node', hn'⟩ := h other (List.mem_cons_of_mem _ ho)
    simp only [Dict.lookup_setItem]
    split
    · exact ⟨_, rfl⟩
    · exact ⟨node', hn'⟩

theorem approverOf_field (fields : List (String × Json)) (approvedBy : Option String)
    (h : fields.lookup "approved_by" = none) :
    approverOf (.obj (fields ++ Change.approvedByField approvedBy)) = approver approvedBy := by
  have last : (fields ++ Change.approvedByField approvedBy).lookup "approved_by" =
      approvedBy.map .str := by
    rw [List.lookup_append, h]
    cases approvedBy <;> simp [Change.approvedByField]
  simp only [approverOf, Json.get?, last]
  cases approvedBy <;> rfl

/-- An event whose payload records a fitting change applies as the change's effect. -/
theorem applyPayload_change (p : Progress) (change : Change) (occurredAt : DateTime) (event : Event)
    (hkind : event.eventType = change.kind.value) (hpayload : event.payload = change.payload)
    (htime : event.occurredAt = occurredAt) (fits : change.Fits p) :
    applyPayload p event = .ok (change.effect occurredAt p) := by
  subst htime
  unfold applyPayload
  rw [hkind, hpayload, EventKind.ofValue?_value]
  cases change with
  | runCreated => cases fits
  | runTransition source target reason approvedBy =>
    obtain ⟨rfl, ht⟩ := fits
    have happrover := approverOf_field [("from", .str p.state.value), ("to", .str target.value),
      ("reason", .ofOption .str reason)] approvedBy rfl
    simp [Change.kind, applyRunTransition, Change.payload, item_obj, List.lookup_cons, ht, pure, Except.pure,
      Change.effect]
    simp only [List.cons_append, List.nil_append] at happrover
    cases named : approver approvedBy <;> simp only [happrover, named]
  | nodeTransition nodeId source target reason approvedBy =>
    obtain ⟨node, hn, hs, ht⟩ := fits
    simp [Change.kind, applyNodeTransition, Change.payload, item_obj, List.lookup_cons, hs, ht, pure, Except.pure,
      Change.effect, nodeAt_some hn, updateNode_some _ hn]
  | leaseAcquired nodeId lease ttl =>
    obtain ⟨node, hn⟩ := fits
    simp [Change.kind, applyLeaseAcquired, Change.payload, item_obj, List.lookup_cons, pure, Except.pure,
      Change.effect, nodeAt_some hn, updateNode_some _ hn]
  | leaseHeartbeat nodeId token heartbeatAt expiresAt ttl =>
    obtain ⟨node, lease, hn, hl⟩ := fits
    simp [Change.kind, applyLeaseHeartbeat, Change.payload, item_obj, List.lookup_cons, pure, Except.pure,
      Change.effect, nodeAt_some hn, updateNode_some _ hn, hl,
      NodeSnapshot.renewed, Lease.renewed]
  | leaseReleased nodeId token =>
    obtain ⟨node, lease, hn, hl, ht⟩ := fits
    simp [Change.kind, applyLeaseReleased, Change.payload, item_obj, List.lookup_cons, pure, Except.pure,
      Change.effect, nodeAt_some hn, updateNode_some _ hn, hl, ht,
      NodeSnapshot.released]
  | leasesExpired nodeIds expiredAt =>
    simp [Change.kind, applyLeasesExpired, Change.payload, item_obj, pure, Except.pure,
      Change.effect, expireNodes_ok _ _ fits]
  | retryRecorded nodeId retry base max =>
    obtain ⟨node, hn⟩ := fits
    simp [Change.kind, applyRetryRecorded, Change.payload, item_obj, List.lookup_cons, pure, Except.pure,
      Change.effect, nodeAt_some hn, updateNode_some _ hn, NodeSnapshot.retried]

theorem nextSequence_none : nextSequence none = 1 := rfl

theorem nextSequence_some (s : RunSnapshot) : nextSequence (some s) = s.lastSequence + 1 := rfl

variable [Sha256]

/-- The event that records an entry after `snapshot`. -/
def Entry.event (runId : String) (snapshot : Option RunSnapshot) (entry : Entry) : Event where
  sequence := nextSequence snapshot
  eventId := runId ++ ":" ++ toString (nextSequence snapshot)
  runId := runId
  eventType := entry.change.kind.value
  occurredAt := entry.occurredAt
  payload := entry.change.payload
  previousHash := previousHashOf snapshot
  hash := hashOf (.obj (eventBody runId snapshot entry.change entry.key entry.occurredAt))
  idempotencyKey := entry.key
  operationHash := entry.change.fingerprint

/-- The snapshot after an entry. -/
def extend (runId : String) (snapshot : Option RunSnapshot) (entry : Entry) : Outcome RunSnapshot :=
  apply snapshot (entry.event runId snapshot)

abbrev RunLedger (runId : String) := EventLog.Ledger (extend runId)

/-- The snapshot after an entry that fits. -/
def RunSnapshot.advance (s : RunSnapshot) (runId : String) (entry : Entry) : RunSnapshot :=
  let p := entry.change.effect entry.occurredAt s.progress
  { s with
    state := p.state, nodes := p.nodes, approvals := p.approvals, updatedAt := entry.occurredAt,
    lastSequence := s.lastSequence + 1
    lastHash := hashOf (.obj (eventBody runId (some s) entry.change entry.key entry.occurredAt))
    idempotency := Dict.setItem entry.key entry.change.fingerprint s.idempotency }

omit [Sha256] in
theorem applyNext_ok {s : RunSnapshot} {event : Event} {p : Progress}
    (chained : event.previousHash = s.lastHash)
    (applied : applyPayload s.progress event = .ok p)
    (unused : s.idempotency.lookup event.idempotencyKey = none) :
    applyNext s event = .ok { s with
      state := p.state, nodes := p.nodes, approvals := p.approvals, updatedAt := event.occurredAt,
      lastSequence := event.sequence, lastHash := event.hash,
      idempotency := Dict.setItem event.idempotencyKey event.operationHash s.idempotency } := by
  simp only [RunSnapshot.progress] at applied
  simp [applyNext, chained, applied, caught, checkRecorded, unused, pure, Except.pure]

theorem extend_advance (runId : String) (s : RunSnapshot) (entry : Entry)
    (fits : entry.change.Fits s.progress) (unused : s.idempotency.lookup entry.key = none) :
    extend runId (some s) entry = .ok (s.advance runId entry) := by
  have applied := applyPayload_change s.progress entry.change entry.occurredAt
    (entry.event runId (some s)) rfl rfl rfl fits
  exact applyNext_ok rfl applied unused

/-- A run starts with all its nodes pending. -/
def RunSnapshot.start (runId : String) (nodeIds : List String) (environment : EnvironmentSnapshot)
    (git : GitSnapshot) (key : String) (occurredAt : DateTime) : RunSnapshot where
  runId := runId
  state := .created
  nodes := createdNodes nodeIds
  environment := environment
  git := git
  createdAt := occurredAt
  updatedAt := occurredAt
  lastSequence := 1
  lastHash := hashOf (.obj (eventBody runId none (.runCreated nodeIds environment git) key occurredAt))
  approvals := []
  idempotency := [(key, (Change.runCreated nodeIds environment git).fingerprint)]

theorem extend_start (runId : String) (nodeIds : List String) (environment : EnvironmentSnapshot)
    (git : GitSnapshot) (key : String) (occurredAt : DateTime) :
    extend runId none ⟨.runCreated nodeIds environment git, key, occurredAt⟩ =
      .ok (.start runId nodeIds environment git key occurredAt) := by
  simp [extend, apply, applyFirst, caught, Entry.event, Change.kind, Change.payload, item_obj,
    List.lookup_cons, RunSnapshot.start, nextSequence_none, pure, Except.pure]

/-! What an operation settles on, read off its source once. -/

/-- The key is on record for this very command. -/
def RunSnapshot.Repeats (s : RunSnapshot) (key fingerprint : String) : Prop :=
  key ≠ "" ∧ s.idempotency.lookup key = some fingerprint

def RunSnapshot.Unused (s : RunSnapshot) (key : String) : Prop :=
  key ≠ "" ∧ s.idempotency.lookup key = none

omit [Sha256] in
theorem checkIdempotency_ok {s : RunSnapshot} {key fingerprint : String} {repeated : Bool}
    (h : checkIdempotency s key fingerprint = .ok repeated) :
    (repeated = true ∧ s.Repeats key fingerprint) ∨ (repeated = false ∧ s.Unused key) := by
  unfold checkIdempotency at h
  split at h
  · cases h
  · rename_i hkey
    cases hl : s.idempotency.lookup key with
    | none =>
      rw [hl] at h
      cases h
      exact .inr ⟨rfl, hkey, hl⟩
    | some existing =>
      rw [hl] at h
      simp only at h
      split at h
      · cases h
      · rename_i same
        cases h
        have same : existing = fingerprint := not_not.mp same
        exact .inl ⟨rfl, hkey, same ▸ hl⟩

omit [Sha256] in
theorem checkIdempotency_repeats {s : RunSnapshot} {key fingerprint : String}
    (h : s.Repeats key fingerprint) : checkIdempotency s key fingerprint = .ok true := by
  simp [checkIdempotency, h.1, h.2]

omit [Sha256] in
theorem checkIdempotency_unused {s : RunSnapshot} {key : String} (fingerprint : String)
    (h : s.Unused key) : checkIdempotency s key fingerprint = .ok false := by
  simp [checkIdempotency, h.1, h.2]

omit [Sha256] in
theorem checked_ok {α : Type} {s : RunSnapshot} {key fingerprint : String} {repeated fresh : Outcome α} {a : α}
    (h : (checkIdempotency s key fingerprint >>= fun known => if known = true then repeated else fresh) =
      .ok a) :
    (s.Repeats key fingerprint ∧ repeated = .ok a) ∨ (s.Unused key ∧ fresh = .ok a) := by
  obtain ⟨known, hk, h⟩ := Except.bind_ok.mp h
  rcases checkIdempotency_ok hk with ⟨rfl, recorded⟩ | ⟨rfl, unused⟩
  · exact .inl ⟨recorded, h⟩
  · exact .inr ⟨unused, h⟩

theorem transitionRun_ok {s : RunSnapshot} {target : RunState} {reason approvedBy : Option String}
    {key : String} {verdict : Verdict}
    (h : transitionRun s target reason approvedBy key = .ok verdict) :
    (verdict = .done (.snapshot s) ∧
      s.Repeats key (Change.runTransition s.state target reason approvedBy).fingerprint) ∨
    (verdict = .append (.runTransition s.state target reason approvedBy) ∧ s.Unused key ∧
      target ∈ runTransitions s.state ∧ (approvedBy ≠ none → s.state = .awaitingApproval)) := by
  rcases checked_ok h with ⟨recorded, h⟩ | ⟨unused, h⟩
  · cases h
    exact .inl ⟨rfl, recorded⟩
  · obtain ⟨_, allowed, h⟩ := Except.bind_ok.mp h
    obtain ⟨_, approved, h⟩ := Except.bind_ok.mp h
    cases h
    refine .inr ⟨rfl, unused, not_not.mp (raiseIf_ok.mp allowed), ?_⟩
    intro given
    exact not_not.mp (fun other => raiseIf_ok.mp approved ⟨given, other⟩)

omit [Sha256] in
@[simp] theorem checked_unused {α : Type} {s : RunSnapshot} {key : String} (fingerprint : String)
    (h : s.Unused key) (repeated fresh : Outcome α) :
    (checkIdempotency s key fingerprint >>= fun known => if known = true then repeated else fresh) =
      fresh := by
  rw [checkIdempotency_unused fingerprint h]
  rfl

/-- A new key and an allowed target: the transition is recorded. -/
theorem transitionRun_append {s : RunSnapshot} {target : RunState} {reason approvedBy : Option String}
    {key : String} (unused : s.Unused key) (allowed : target ∈ runTransitions s.state)
    (approved : approvedBy ≠ none → s.state = .awaitingApproval) :
    transitionRun s target reason approvedBy key =
      .ok (.append (.runTransition s.state target reason approvedBy)) := by
  have refused : ¬ (approvedBy ≠ none ∧ s.state ≠ .awaitingApproval) :=
    fun given => given.2 (approved given.1)
  refine (checked_unused _ unused _ _).trans ?_
  rw [raiseIf_false _ _ _ (not_not.mpr allowed), raiseIf_false _ _ _ refused]
  rfl

omit [Sha256] in
theorem findNode_ok {s : RunSnapshot} {nodeId : String} {node : NodeSnapshot}
    (h : findNode s nodeId = .ok node) : s.nodes.lookup nodeId = some node := by
  unfold findNode at h
  split at h
  · rename_i found
    cases h
    exact found
  · cases h

omit [Sha256] in
theorem nodeAt_ok {nodes : List (String × NodeSnapshot)} {nodeId : String} {node : NodeSnapshot}
    (h : nodeAt nodes nodeId = .ok node) : nodes.lookup nodeId = some node := by
  unfold nodeAt at h
  split at h
  · rename_i found
    cases h
    exact found
  · cases h

theorem transitionNode_ok {s : RunSnapshot} {nodeId : String} {target : NodeState}
    {reason approvedBy : Option String} {key : String} {verdict : Verdict}
    (h : transitionNode s nodeId target reason approvedBy key = .ok verdict) :
    ∃ node, s.nodes.lookup nodeId = some node ∧
      ((verdict = .done (.snapshot s) ∧ s.Repeats key
          (Change.nodeTransition nodeId node.state target reason approvedBy).fingerprint) ∨
      (verdict = .append (.nodeTransition nodeId node.state target reason approvedBy) ∧ s.Unused key ∧
        target ∈ nodeTransitions node.state ∧ (approvedBy ≠ none → node.state = .awaitingApproval))) := by
  obtain ⟨node, hn, h⟩ := Except.bind_ok.mp h
  refine ⟨node, findNode_ok hn, ?_⟩
  rcases checked_ok h with ⟨recorded, h⟩ | ⟨unused, h⟩
  · cases h
    exact .inl ⟨rfl, recorded⟩
  · obtain ⟨_, allowed, h⟩ := Except.bind_ok.mp h
    obtain ⟨_, approved, h⟩ := Except.bind_ok.mp h
    cases h
    refine .inr ⟨rfl, unused, not_not.mp (raiseIf_ok.mp allowed), ?_⟩
    intro given
    exact not_not.mp (fun other => raiseIf_ok.mp approved ⟨given, other⟩)

omit [Sha256] in
theorem findNode_some {s : RunSnapshot} {nodeId : String} {node : NodeSnapshot}
    (h : s.nodes.lookup nodeId = some node) : findNode s nodeId = .ok node := by
  simp only [findNode, h]

theorem transitionNode_append {s : RunSnapshot} {nodeId : String} {node : NodeSnapshot}
    {target : NodeState} {reason approvedBy : Option String} {key : String}
    (found : s.nodes.lookup nodeId = some node) (unused : s.Unused key)
    (allowed : target ∈ nodeTransitions node.state)
    (approved : approvedBy ≠ none → node.state = .awaitingApproval) :
    transitionNode s nodeId target reason approvedBy key =
      .ok (.append (.nodeTransition nodeId node.state target reason approvedBy)) := by
  have refused : ¬ (approvedBy ≠ none ∧ node.state ≠ .awaitingApproval) :=
    fun given => given.2 (approved given.1)
  simp only [transitionNode, findNode_some found, Except.ok_bind]
  refine (checked_unused _ unused _ _).trans ?_
  rw [raiseIf_false _ _ _ (not_not.mpr allowed), raiseIf_false _ _ _ refused]
  rfl

omit [Sha256] in
theorem repeatedLease_ok {s : RunSnapshot} {nodeId message : String} {verdict : Verdict}
    (h : repeatedLease s nodeId message = .ok verdict) :
    ∃ node lease, s.nodes.lookup nodeId = some node ∧ node.lease = some lease ∧
      verdict = .done (.lease lease) := by
  obtain ⟨node, hn, h⟩ := Except.bind_ok.mp h
  split at h
  · cases h
  · rename_i lease held
    cases h
    exact ⟨node, lease, nodeAt_ok hn, held, rfl⟩

/-- The token `acquire_lease` gives out. -/
def RunSnapshot.nextToken (s : RunSnapshot) (runId nodeId owner key : String) : String :=
  Sha256.hexdigest (tokenMaterial runId nodeId owner (s.lastSequence + 1) key)

theorem acquireLease_ok {runId : String} {s : RunSnapshot} {nodeId owner : String} {ttlSeconds : Num}
    {key : String} {clock : Clock} {verdict : Verdict}
    (h : acquireLease runId s nodeId owner ttlSeconds key clock = .ok verdict) :
    ∃ node, s.nodes.lookup nodeId = some node ∧
      ((∃ lease, verdict = .done (.lease lease) ∧ node.lease = some lease ∧
          s.Repeats key (acquireFingerprint nodeId owner ttlSeconds)) ∨
      (∃ now expiresAt, clock.now = .ok now ∧ later now ttlSeconds = .ok expiresAt ∧ s.Unused key ∧
        (∀ held, node.lease = some held → held.expiresAt.micros ≤ now.micros) ∧
        verdict = .append (.leaseAcquired nodeId
          ⟨owner, s.nextToken runId nodeId owner key, now, now, expiresAt⟩ ttlSeconds))) := by
  rcases checked_ok h with ⟨recorded, h⟩ | ⟨unused, h⟩
  · obtain ⟨node, lease, hn, hl, rfl⟩ := repeatedLease_ok h
    exact ⟨node, hn, .inl ⟨lease, rfl, hl, recorded⟩⟩
  · obtain ⟨node, hn, h⟩ := Except.bind_ok.mp h
    obtain ⟨now, hnow, h⟩ := Except.bind_ok.mp h
    obtain ⟨_, free, h⟩ := Except.bind_ok.mp h
    obtain ⟨expiresAt, hexp, h⟩ := Except.bind_ok.mp h
    cases h
    refine ⟨node, findNode_ok hn, .inr ⟨now, expiresAt, hnow, hexp, unused, ?_, rfl⟩⟩
    intro held hl
    rw [hl] at free
    exact not_lt.mp (raiseIf_ok.mp free)

theorem heartbeat_ok {s : RunSnapshot} {nodeId token : String} {ttlSeconds : Num} {key : String}
    {clock : Clock} {verdict : Verdict} (h : heartbeat s nodeId token ttlSeconds key clock = .ok verdict) :
    ∃ node lease, s.nodes.lookup nodeId = some node ∧ node.lease = some lease ∧
      ((verdict = .done (.lease lease) ∧ s.Repeats key (heartbeatFingerprint nodeId token ttlSeconds)) ∨
      (∃ now expiresAt, clock.now = .ok now ∧ later now ttlSeconds = .ok expiresAt ∧ s.Unused key ∧
        now.micros < lease.expiresAt.micros ∧ lease.token = token ∧
        verdict = .append (.leaseHeartbeat nodeId token now expiresAt ttlSeconds))) := by
  rcases checked_ok h with ⟨recorded, h⟩ | ⟨unused, h⟩
  · obtain ⟨node, lease, hn, hl, rfl⟩ := repeatedLease_ok h
    exact ⟨node, lease, hn, hl, .inl ⟨rfl, recorded⟩⟩
  · obtain ⟨node, hn, h⟩ := Except.bind_ok.mp h
    obtain ⟨now, hnow, h⟩ := Except.bind_ok.mp h
    cases hl : node.lease with
    | none =>
      rw [hl] at h
      cases h
    | some lease =>
      rw [hl] at h
      obtain ⟨_, active, h⟩ := Except.bind_ok.mp h
      obtain ⟨_, owned, h⟩ := Except.bind_ok.mp h
      obtain ⟨expiresAt, hexp, h⟩ := Except.bind_ok.mp h
      cases h
      exact ⟨node, lease, findNode_ok hn, hl, .inr ⟨now, expiresAt, hnow, hexp, unused,
        not_le.mp (raiseIf_ok.mp active), not_not.mp (raiseIf_ok.mp owned), rfl⟩⟩

theorem releaseLease_ok {s : RunSnapshot} {nodeId token key : String} {clock : Clock} {verdict : Verdict}
    (h : releaseLease s nodeId token key clock = .ok verdict) :
    (verdict = .done (.snapshot s) ∧ s.Repeats key (Change.leaseReleased nodeId token).fingerprint) ∨
    (∃ node lease, s.nodes.lookup nodeId = some node ∧ node.lease = some lease ∧ lease.token = token ∧
      s.Unused key ∧ verdict = .append (.leaseReleased nodeId token)) := by
  rcases checked_ok h with ⟨recorded, h⟩ | ⟨unused, h⟩
  · cases h
    exact .inl ⟨rfl, recorded⟩
  · obtain ⟨node, hn, h⟩ := Except.bind_ok.mp h
    cases hl : node.lease with
    | none =>
      rw [hl] at h
      cases h
    | some lease =>
      rw [hl] at h
      obtain ⟨now, _, h⟩ := Except.bind_ok.mp h
      obtain ⟨_, _, h⟩ := Except.bind_ok.mp h
      obtain ⟨_, owned, h⟩ := Except.bind_ok.mp h
      cases h
      exact .inr ⟨node, lease, findNode_ok hn, hl, not_not.mp (raiseIf_ok.mp owned), unused, rfl⟩

theorem appendChecked_ok {s : RunSnapshot} {change : Change} {key : String} {result : Outcome Value}
    {verdict : Verdict} (h : appendChecked s change key result = .ok verdict) :
    (∃ value, verdict = .done value ∧ result = .ok value ∧ s.Repeats key change.fingerprint) ∨
    (verdict = .append change ∧ s.Unused key) := by
  rcases checked_ok h with ⟨recorded, h⟩ | ⟨unused, h⟩
  · obtain ⟨value, hv, h⟩ := Except.bind_ok.mp h
    cases h
    exact .inl ⟨value, rfl, hv, recorded⟩
  · cases h
    exact .inr ⟨rfl, unused⟩

theorem expireLeases_ok {s : RunSnapshot} {key : String} {clock : Clock} {verdict : Verdict}
    (h : expireLeases s key clock = .ok verdict) :
    verdict = .done (.snapshot s) ∨
    (∃ nodeIds now, verdict = .append (.leasesExpired nodeIds now) ∧ s.Unused key ∧
      clock.now = .ok now ∧ ∀ nodeId ∈ nodeIds, ∃ node, (nodeId, node) ∈ s.nodes ∧ expired now node) := by
  obtain ⟨now, hnow, h⟩ := Except.bind_ok.mp h
  rcases appendChecked_ok h with ⟨value, rfl, hv, _⟩ | ⟨rfl, unused⟩
  · cases hv
    exact .inl rfl
  · refine .inr ⟨_, now, rfl, unused, hnow, ?_⟩
    intro nodeId hin
    have hin := (List.mem_insertionSort _).mp hin
    obtain ⟨item, hitem, rfl⟩ := List.mem_map.mp hin
    obtain ⟨hitem, hexp⟩ := List.mem_filter.mp hitem
    exact ⟨item.2, hitem, hexp⟩

theorem recordRetry_ok {s : RunSnapshot} {nodeId : String} {classification : RetryClass} {reason : String}
    {baseDelay maxDelay : Num} {key : String} {clock : Clock} {verdict : Verdict}
    (h : recordRetry s nodeId classification reason baseDelay maxDelay key clock = .ok verdict) :
    ∃ node backoffSeconds notBefore, s.nodes.lookup nodeId = some node ∧
      backoff classification baseDelay maxDelay node.attempts = .ok backoffSeconds ∧
      let change : Change := .retryRecorded nodeId
        ⟨node.attempts + 1, classification, decide (classification ≠ .permanent), backoffSeconds,
          notBefore, reason⟩ baseDelay maxDelay
      (∃ retry, verdict = .done (.retry retry) ∧ node.retry = some retry ∧
          s.Repeats key change.fingerprint) ∨
      (verdict = .append change ∧ s.Unused key) := by
  obtain ⟨node, hn, h⟩ := Except.bind_ok.mp h
  obtain ⟨backoffSeconds, hb, h⟩ := Except.bind_ok.mp h
  obtain ⟨now, _, h⟩ := Except.bind_ok.mp h
  obtain ⟨notBefore, _, h⟩ := Except.bind_ok.mp h
  have found := findNode_ok hn
  refine ⟨node, backoffSeconds, notBefore, found, hb, ?_⟩
  rcases appendChecked_ok h with ⟨value, rfl, hv, recorded⟩ | ⟨rfl, unused⟩
  · obtain ⟨node', hn', hv⟩ := Except.bind_ok.mp hv
    have same : node' = node := Option.some.inj ((nodeAt_ok hn').symm.trans found)
    subst same
    split at hv
    · cases hv
    · rename_i retry hretry
      cases hv
      exact .inl ⟨retry, rfl, hretry, recorded⟩
  · exact .inr ⟨rfl, unused⟩

omit [Sha256] in
theorem lookup_of_mem {nodes : List (String × NodeSnapshot)} {nodeId : String} {node : NodeSnapshot}
    (h : (nodeId, node) ∈ nodes) : ∃ found, nodes.lookup nodeId = some found := by
  have hk : nodeId ∈ Dict.keys nodes := List.mem_map.mpr ⟨_, h, rfl⟩
  exact Option.isSome_iff_exists.mp (Dict.lookup_isSome_iff.mpr hk)

/-- A change an operation decides on is well formed, and its key is new. -/
theorem verdict_fits {runId key : String} {clock : Clock} {s : RunSnapshot} {command : Command}
    {change : Change} (h : command.verdict runId key clock s = .ok (.append change)) :
    change.Fits s.progress ∧ s.Unused key := by
  cases command with
  | transitionRun target reason approvedBy =>
    rcases transitionRun_ok h with ⟨hv, _⟩ | ⟨hv, unused, allowed, _⟩
    · cases hv
    · cases hv
      exact ⟨⟨rfl, allowed⟩, unused⟩
  | transitionNode nodeId target reason approvedBy =>
    obtain ⟨node, hn, ⟨hv, _⟩ | ⟨hv, unused, allowed, _⟩⟩ := transitionNode_ok h
    · cases hv
    · cases hv
      exact ⟨⟨node, hn, rfl, allowed⟩, unused⟩
  | acquireLease nodeId owner ttlSeconds =>
    obtain ⟨node, hn, ⟨lease, hv, _⟩ | ⟨now, expiresAt, _, _, unused, _, hv⟩⟩ := acquireLease_ok h
    · cases hv
    · cases hv
      exact ⟨⟨node, hn⟩, unused⟩
  | heartbeat nodeId token ttlSeconds =>
    obtain ⟨node, lease, hn, hl, ⟨hv, _⟩ | ⟨now, expiresAt, _, _, unused, _, _, hv⟩⟩ := heartbeat_ok h
    · cases hv
    · cases hv
      exact ⟨⟨node, lease, hn, hl⟩, unused⟩
  | releaseLease nodeId token =>
    rcases releaseLease_ok h with ⟨hv, _⟩ | ⟨node, lease, hn, hl, ht, unused, hv⟩
    · cases hv
    · cases hv
      exact ⟨⟨node, lease, hn, hl, ht⟩, unused⟩
  | expireLeases =>
    rcases expireLeases_ok h with hv | ⟨nodeIds, now, hv, unused, _, members⟩
    · cases hv
    · cases hv
      refine ⟨?_, unused⟩
      intro nodeId hin
      obtain ⟨node, hmem, _⟩ := members nodeId hin
      exact lookup_of_mem hmem
  | recordRetry nodeId classification reason baseDelay maxDelay =>
    obtain ⟨node, backoffSeconds, notBefore, hn, _, ⟨retry, hv, _⟩ | ⟨hv, unused⟩⟩ := recordRetry_ok h
    · cases hv
    · cases hv
      exact ⟨⟨node, hn⟩, unused⟩

end Onmc.DurableRuntime
