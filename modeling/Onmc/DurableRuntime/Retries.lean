import Onmc.DurableRuntime.Idempotency
import Onmc.DurableRuntime.Leases

/-! The retries of a node. Each call of `record_retry` that writes to the log is one more attempt;
every other call leaves the attempts and their history alone. -/
namespace Onmc.DurableRuntime

/-- The arguments of a call of `record_retry` that was recorded. -/
structure RetryCall where
  classification : RetryClass
  reason : String
  baseDelay : Num
  maxDelay : Num

def NodeSnapshot.retries (node : NodeSnapshot) : Nat × List RetryMetadata := (node.attempts, node.retryHistory)

/-- The entry that a call leaves after `earlier` attempts, its `not_before` apart. -/
structure RetryCall.Leaves (call : RetryCall) (earlier : Nat) (retry : RetryMetadata) : Prop where
  attempt : retry.attempt = earlier + 1
  classification : retry.classification = call.classification
  reason : retry.reason = call.reason
  retryable : retry.retryable = decide (call.classification ≠ .permanent)
  backoff : backoff call.classification call.baseDelay call.maxDelay earlier = .ok retry.backoffSeconds
  delays : call.baseDelay.lt (.int 0) = false ∧ call.maxDelay.lt call.baseDelay = false

/-- A node whose retries are those of some calls, in order. -/
inductive Counts : List RetryCall → Nat × List RetryMetadata → Prop
  | nil : Counts [] (0, [])
  | concat (calls : List RetryCall) (call : RetryCall) (history : List RetryMetadata) (retry : RetryMetadata)
      (counts : Counts calls (calls.length, history)) (leaves : call.Leaves calls.length retry) :
      Counts (calls ++ [call]) (calls.length + 1, history ++ [retry])

theorem Counts.attempts {calls : List RetryCall} {retries : Nat × List RetryMetadata} (h : Counts calls retries) :
    retries.1 = calls.length := by
  cases h with
  | nil => rfl
  | concat => simp

theorem Counts.length {calls : List RetryCall} {retries : Nat × List RetryMetadata} (h : Counts calls retries) :
    retries.2.length = calls.length := by
  induction h with
  | nil => rfl
  | concat calls call history retry counts leaves ih => simpa using ih

theorem Counts.numbered {calls : List RetryCall} {retries : Nat × List RetryMetadata} (h : Counts calls retries) :
    retries.2.map RetryMetadata.attempt = List.range' 1 calls.length := by
  induction h with
  | nil => rfl
  | concat calls call history retry counts leaves ih =>
    have next := leaves.attempt
    simp only [List.map_append, List.map_cons, List.map_nil, ih, List.length_append, List.length_cons, List.length_nil,
      List.range'_concat]
    simp only [next, Nat.one_mul, Nat.add_comm]

theorem Counts.leaves {calls : List RetryCall} {retries : Nat × List RetryMetadata} (h : Counts calls retries)
    {i : Nat} {call : RetryCall} (found : calls[i]? = some call) :
    ∃ retry, retries.2[i]? = some retry ∧ call.Leaves i retry := by
  induction h with
  | nil => simp at found
  | concat calls last history retry counts leaves ih =>
    have length : history.length = calls.length := counts.length
    rcases Nat.lt_or_ge i calls.length with early | late
    · rw [List.getElem?_append_left early] at found
      obtain ⟨retry, hr, holds⟩ := ih found
      refine ⟨retry, ?_, holds⟩
      rw [List.getElem?_append_left (by omega)]
      exact hr
    · have end_ : i = calls.length := by
        have inside := (List.getElem?_eq_some_iff.mp found).1
        simp only [List.length_append, List.length_cons, List.length_nil] at inside
        omega
      subst end_
      simp only [List.getElem?_concat_length, Option.some.injEq] at found
      subst found
      exact ⟨retry, by simp [← length], leaves⟩

/-! What a change does to the retries. -/

theorem retries_updateNode {nodeId j : String} {f : NodeSnapshot → NodeSnapshot}
    (same : ∀ node : NodeSnapshot, (f node).retries = node.retries) (nodes : List (String × NodeSnapshot)) :
    ((updateNode nodeId f nodes).lookup j).map NodeSnapshot.retries =
      (nodes.lookup j).map NodeSnapshot.retries := by
  rw [lookup_updateNode]
  split
  · rw [Option.map_map]
    exact congrArg (fun g => (nodes.lookup j).map g) (funext same)
  · rfl

/-- Only a retry of the node itself changes them. -/
theorem effect_retries (occurredAt : DateTime) (p : Progress) (change : Change) {nodeId : String}
    (other : ∀ retry baseDelay maxDelay, change ≠ .retryRecorded nodeId retry baseDelay maxDelay) :
    ((change.effect occurredAt p).nodes.lookup nodeId).map NodeSnapshot.retries =
      (p.nodes.lookup nodeId).map NodeSnapshot.retries := by
  cases change with
  | runCreated => rfl
  | runTransition source target reason approvedBy =>
    simp only [Change.effect]
    split
    · simp only [cancelUnfinished, Dict.lookup_mapValues, Option.map_map]
      refine congrArg (fun g => (p.nodes.lookup nodeId).map g) (funext fun node => ?_)
      simp only [Function.comp]
      split <;> rfl
    · rfl
  | leasesExpired nodeIds expiredAt =>
    simp only [Change.effect, lookup_releaseAll]
    split
    · rw [Option.map_map]
      rfl
    · rfl
  | retryRecorded moved retry baseDelay maxDelay =>
    have elsewhere : ¬ nodeId = moved := fun same => other retry baseDelay maxDelay (same ▸ rfl)
    simp only [Change.effect, lookup_updateNode, if_neg elsewhere]
  | nodeTransition | leaseAcquired | leaseHeartbeat | leaseReleased =>
    exact retries_updateNode (by intro _; rfl) p.nodes

variable [Sha256]

/-- Only `record_retry` writes retries, each of its own node. -/
theorem verdict_retryRecorded {runId key : String} {clock : Clock} {s : RunSnapshot} {command : Command}
    {nodeId : String} {retry : RetryMetadata} {baseDelay maxDelay : Num}
    (h : command.verdict runId key clock s = .ok (.append (.retryRecorded nodeId retry baseDelay maxDelay))) :
    command = .recordRetry nodeId retry.classification retry.reason baseDelay maxDelay ∧
      ∃ node, s.nodes.lookup nodeId = some node ∧ retry.attempt = node.attempts + 1 ∧
        retry.retryable = decide (retry.classification ≠ .permanent) ∧
        backoff retry.classification baseDelay maxDelay node.attempts = .ok retry.backoffSeconds := by
  cases command with
  | transitionRun target reason approvedBy =>
    rcases transitionRun_ok h with ⟨hv, _⟩ | ⟨hv, _⟩ <;> cases hv
  | transitionNode moved target reason approvedBy =>
    obtain ⟨node, _, ⟨hv, _⟩ | ⟨hv, _⟩⟩ := transitionNode_ok h <;> cases hv
  | acquireLease moved owner ttlSeconds =>
    obtain ⟨node, hn, ⟨lease, hv, _⟩ | ⟨now, expiresAt, _, _, _, _, hv⟩⟩ := acquireLease_ok h <;> cases hv
  | heartbeat moved token ttlSeconds =>
    obtain ⟨node, lease, hn, hl, ⟨hv, _⟩ | ⟨now, expiresAt, _, _, _, _, _, hv⟩⟩ := heartbeat_ok h <;> cases hv
  | releaseLease moved token =>
    rcases releaseLease_ok h with ⟨hv, _⟩ | ⟨node, lease, hn, hl, ht, _, hv⟩ <;> cases hv
  | expireLeases =>
    rcases expireLeases_ok h with hv | ⟨nodeIds, now, hv, _⟩ <;> cases hv
  | recordRetry moved classification reason base limit =>
    obtain ⟨node, backoffSeconds, notBefore, found, due, ⟨_, hv, _⟩ | ⟨hv, _⟩⟩ := recordRetry_ok h
    · cases hv
    · cases hv
      exact ⟨rfl, node, found, rfl, rfl, due⟩

/-- The call of `record_retry` on a node, when it writes to the log. -/
def retryCall? (runId nodeId : String) (dir : RunDir) (call : Call) (clock : Clock) : Option RetryCall :=
  match call with
  | .run (.recordRetry moved classification reason baseDelay maxDelay _) =>
    if moved = nodeId ∧ (call.perform runId clock dir).1.events ≠ dir.events then
      some ⟨classification, reason, baseDelay, maxDelay⟩
    else none
  | _ => none

def recordedRetries (runId nodeId : String) (dir : RunDir) : List (Call × Clock) → List RetryCall
  | [] => []
  | (call, clock) :: calls =>
    (retryCall? runId nodeId dir call clock).toList ++
      recordedRetries runId nodeId (call.perform runId clock dir).1 calls

/-- The node's retries are those of the calls recorded so far; a run that does not exist has none. -/
def Accounted {runId : String} (nodeId : String) (earlier : List RetryCall) : Option (RunLedger runId) → Prop
  | none => earlier = []
  | some l => ∀ node, l.state.nodes.lookup nodeId = some node → Counts earlier node.retries

theorem retryCall?_same {runId nodeId : String} {dir : RunDir} {call : Call} {clock : Clock}
    (same : (call.perform runId clock dir).1.events = dir.events) : retryCall? runId nodeId dir call clock = none := by
  unfold retryCall?
  split
  · rw [if_neg (fun h => h.2 same)]
  · rfl

theorem retryCall?_other {runId nodeId : String} {dir : RunDir} {op : Operation} {clock : Clock}
    (other : ∀ classification reason baseDelay maxDelay,
      op.command ≠ .recordRetry nodeId classification reason baseDelay maxDelay) :
    retryCall? runId nodeId dir (.run op) clock = none := by
  unfold retryCall?
  split
  · rename_i moved classification reason baseDelay maxDelay key same
    cases same
    rw [if_neg]
    rintro ⟨rfl, _⟩
    exact other classification reason baseDelay maxDelay rfl
  · rfl

/-- What is recorded makes the log longer. -/
theorem record_events {runId : String} (l : RunLedger runId) (entry : Entry)
    (fits : entry.change.Fits l.state.progress) (unused : l.state.Unused entry.key) :
    (filesOf (record l entry fits unused)).events ≠ (filesOf l).events := by
  have written := appendUnlocked_record l entry fits unused
  have key : ¬ entry.key = "" := unused.1
  simp only [appendUnlocked, if_neg key] at written
  intro same
  split at written
  · cases (Prod.mk.inj written).2
  · have files := congrArg RunDir.events (Prod.mk.inj written).1
    rw [same] at files
    simp only [writeCheckpoint, filesOf, Option.getD_some, Option.some.injEq] at files
    have longer := congrArg String.length files
    simp only [String.length_append] at longer
    have newline : "\n".length = 1 := rfl
    omega

theorem Accounted.append {runId nodeId : String} {l : RunLedger runId} {earlier : List RetryCall}
    (h : Accounted nodeId earlier (some l)) : Accounted nodeId (earlier ++ (none : Option RetryCall).toList) (some l) := by
  simpa using h

omit [Sha256] in
theorem command_recordRetry {op : Operation} {nodeId : String} {classification : RetryClass} {reason : String}
    {baseDelay maxDelay : Num} (h : op.command = .recordRetry nodeId classification reason baseDelay maxDelay) :
    op = .recordRetry nodeId classification reason baseDelay maxDelay op.key := by
  cases op with
  | recordRetry =>
    cases h
    rfl
  | _ => cases h

omit [Sha256] in
/-- A retry is counted once it is recorded. -/
theorem effect_counted {occurredAt : DateTime} {p : Progress} {nodeId : String} {retry : RetryMetadata}
    {baseDelay maxDelay : Num} {node : NodeSnapshot} (found : p.nodes.lookup nodeId = some node)
    {earlier : List RetryCall} (counts : Counts earlier node.retries) {call : RetryCall}
    (leaves : call.Leaves node.attempts retry) {after : NodeSnapshot}
    (lookup : ((Change.retryRecorded nodeId retry baseDelay maxDelay).effect occurredAt p).nodes.lookup nodeId =
      some after) : Counts (earlier ++ [call]) after.retries := by
  have attempts : node.attempts = earlier.length := counts.attempts
  simp only [Change.effect, lookup_updateNode, if_true, found, Option.map_some, Option.some.injEq] at lookup
  subst lookup
  have next : retry.attempt = earlier.length + 1 := by rw [leaves.attempt, attempts]
  simp only [NodeSnapshot.retries, NodeSnapshot.retried, next]
  rw [attempts] at leaves
  refine .concat earlier call node.retryHistory retry ?_ leaves
  rw [← attempts]
  exact counts

theorem acts_counted {runId nodeId : String} {l l' : RunLedger runId} {op : Operation} {clock : Clock}
    {outcome : Outcome Value} (acts : Acts l op clock l' outcome)
    (files : ((Call.run op).perform runId clock (filesOf l)).1 = filesOf l') {earlier : List RetryCall}
    (h : Accounted nodeId earlier (some l)) :
    Accounted nodeId (earlier ++ (retryCall? runId nodeId (filesOf l) (.run op) clock).toList) (some l') := by
  cases acts with
  | refused =>
    rw [retryCall?_same (by rw [files])]
    exact h.append
  | repeated =>
    rw [retryCall?_same (by rw [files])]
    exact h.append
  | recorded change occurredAt value valid decided =>
    have fits := verdict_fits decided
    have changed := record_events l ⟨change, op.key, occurredAt⟩ fits.1 fits.2
    rw [← files] at changed
    intro after lookup
    rw [record_state] at lookup
    have advanced : (change.effect occurredAt l.state.progress).nodes.lookup nodeId = some after := lookup
    by_cases counted : ∃ retry baseDelay maxDelay, change = .retryRecorded nodeId retry baseDelay maxDelay
    · obtain ⟨retry, baseDelay, maxDelay, rfl⟩ := counted
      obtain ⟨asked, node, found, attempt, retryable, due⟩ := verdict_retryRecorded decided
      have same := command_recordRetry asked
      have delays : baseDelay.lt (.int 0) = false ∧ maxDelay.lt baseDelay = false := by
        rw [same] at valid
        simpa [Operation.validate, not_or] using valid
      have leaves : RetryCall.Leaves ⟨retry.classification, retry.reason, baseDelay, maxDelay⟩ node.attempts retry :=
        ⟨attempt, rfl, rfl, retryable, due, delays⟩
      have call : retryCall? runId nodeId (filesOf l) (.run op) clock =
          some ⟨retry.classification, retry.reason, baseDelay, maxDelay⟩ := by
        rw [same] at changed ⊢
        exact if_pos ⟨rfl, changed⟩
      rw [call]
      exact effect_counted found (h node found) leaves advanced
    · have other : ∀ classification reason baseDelay maxDelay,
          op.command ≠ .recordRetry nodeId classification reason baseDelay maxDelay := by
        intro classification reason baseDelay maxDelay asked
        rw [asked] at decided
        obtain ⟨node, backoffSeconds, notBefore, _, _, ⟨_, done, _⟩ | ⟨appended, _⟩⟩ := recordRetry_ok decided
        · cases done
        · cases appended
          exact counted ⟨_, _, _, rfl⟩
      rw [retryCall?_other other]
      have kept := effect_retries occurredAt l.state.progress change
        (fun retry baseDelay maxDelay same => counted ⟨retry, baseDelay, maxDelay, same⟩)
      rw [advanced, Option.map_some] at kept
      obtain ⟨node, found, same⟩ := Option.map_eq_some_iff.mp kept.symm
      simp only [Option.toList_none, List.append_nil]
      rw [← same]
      exact h node found

theorem call_counted {runId nodeId : String} {dir : RunDir} {before : Option (RunLedger runId)}
    (tracked : Tracks runId dir before) (call : Call) (clock : Clock) {earlier : List RetryCall}
    (h : Accounted nodeId earlier before) :
    ∃ after, Tracks runId (call.perform runId clock dir).1 after ∧
      Accounted nodeId (earlier ++ (retryCall? runId nodeId dir call clock).toList) after := by
  obtain ⟨after, acts, next⟩ := perform_call tracked call clock
  refine ⟨after, next, ?_⟩
  generalize (call.perform runId clock dir).2 = outcome at acts
  cases acts with
  | missing call clock e =>
    have same := next.1.trans tracked.1.symm
    rw [retryCall?_same same, show earlier = [] from h]
    exact rfl
  | founded creation clock occurredAt valid stamped =>
    rw [show earlier = [] from h]
    intro node found
    rw [lookup_createdNodes creation.nodeIds found]
    exact .nil
  | «exists» l creation clock outcome same => exact h.append
  | loaded l clock => exact h.append
  | acted l l' op clock outcome acts =>
    have start : dir = filesOf l := tracked.2.1
    subst start
    exact acts_counted acts next.2.1 h

/-- The retries of a run are the recorded calls, whatever the calls between them. -/
theorem perform_counted {runId nodeId : String} {dir : RunDir} {before : Option (RunLedger runId)}
    (tracked : Tracks runId dir before) (calls : List (Call × Clock)) {earlier : List RetryCall}
    (h : Accounted nodeId earlier before) :
    ∃ after, Tracks runId (perform runId dir calls).1 after ∧
      Accounted nodeId (earlier ++ recordedRetries runId nodeId dir calls) after := by
  induction calls generalizing dir before earlier with
  | nil =>
    refine ⟨before, tracked, ?_⟩
    simpa only [recordedRetries, List.append_nil] using h
  | cons step calls ih =>
    obtain ⟨call, clock⟩ := step
    obtain ⟨middle, next, counted⟩ := call_counted tracked call clock h
    obtain ⟨after, last, rest⟩ := ih next counted
    rw [List.append_assoc] at rest
    exact ⟨after, last, rest⟩

/-! Delays that are integers. -/

omit [Sha256] in
theorem int_lt (a b : Int) : (Num.int a).lt (.int b) = decide (a < b) := by
  simp [Num.lt, Num.decimal?, Decimal.lt, Decimal.ofInt]

omit [Sha256] in
theorem backoff_int {classification : RetryClass} (retryable : classification ≠ .permanent) (base limit : Int)
    (earlier : Nat) :
    backoff classification (.int base) (.int limit) earlier = .ok (some (.int (min limit (base * 2 ^ earlier)))) := by
  have smaller : (Num.int limit).min (.int (base * 2 ^ earlier)) = .int (min limit (base * 2 ^ earlier)) := by
    unfold Num.min
    rw [int_lt]
    by_cases below : base * 2 ^ earlier < limit
    · rw [decide_eq_true below, if_pos rfl, Int.min_eq_right (Int.le_of_lt below)]
    · rw [decide_eq_false below, if_neg (by simp), Int.min_eq_left (Int.not_lt.mp below)]
  simp only [backoff, if_neg retryable, Num.timesPowTwo, smaller]

/-- The delays of a call, when both are integers. -/
def RetryCall.Delays (call : RetryCall) (base limit : Int) : Prop :=
  call.baseDelay = .int base ∧ call.maxDelay = .int limit

omit [Sha256] in
theorem RetryCall.Leaves.bounds {call : RetryCall} {earlier : Nat} {retry : RetryMetadata}
    (h : call.Leaves earlier retry) {base limit : Int} (delays : call.Delays base limit) :
    0 ≤ base ∧ base ≤ limit := by
  obtain ⟨nonneg, ordered⟩ := h.delays
  rw [delays.1, int_lt, decide_eq_false_iff_not] at nonneg
  rw [delays.1, delays.2, int_lt, decide_eq_false_iff_not] at ordered
  omega

omit [Sha256] in
theorem RetryCall.Leaves.waits {call : RetryCall} {earlier : Nat} {retry : RetryMetadata}
    (h : call.Leaves earlier retry) {base limit : Int} (delays : call.Delays base limit)
    (retryable : call.classification ≠ .permanent) :
    retry.backoffSeconds = some (.int (min limit (base * 2 ^ earlier))) := by
  have due := h.backoff
  rw [delays.1, delays.2, backoff_int retryable] at due
  exact (Except.ok.inj due).symm

omit [Sha256] in
/-- A later retry waits no less, unless it asks for smaller delays. -/
theorem delay_le {base limit base' limit' : Int} (nonneg : 0 ≤ base) (bases : base ≤ base') (limits : limit ≤ limit')
    {i j : Nat} (order : i ≤ j) : min limit (base * 2 ^ i) ≤ min limit' (base' * 2 ^ j) := by
  have powers : (2 : Int) ^ i ≤ 2 ^ j := by exact_mod_cast Nat.pow_le_pow_right (by omega) order
  have positive : (0 : Int) ≤ 2 ^ j := Int.pow_nonneg (by omega)
  have grown : base * 2 ^ i ≤ base' * 2 ^ j :=
    Int.le_trans (Int.mul_le_mul_of_nonneg_left powers nonneg) (Int.mul_le_mul_of_nonneg_right bases positive)
  omega

/-- What is expected of a node's retries, when these calls were recorded for it. -/
structure RetryLaws (recorded : List RetryCall) (node : NodeSnapshot) : Prop where
  attempts : node.attempts = recorded.length
  numbered : node.retryHistory.map RetryMetadata.attempt = List.range' 1 recorded.length
  backoff : ∀ (i : Nat) call base limit, recorded[i]? = some call → call.Delays base limit →
    call.classification ≠ .permanent →
      0 ≤ base ∧ min limit (base * 2 ^ i) ≤ limit ∧
        (node.retryHistory[i]?).map RetryMetadata.backoffSeconds = some (some (.int (min limit (base * 2 ^ i))))
  permanent : ∀ (i : Nat) call, recorded[i]? = some call → call.classification = .permanent →
    (node.retryHistory[i]?).map RetryMetadata.backoffSeconds = some none
  nondecreasing : ∀ (i j : Nat) first second base limit base' limit' delay delay', i ≤ j →
    recorded[i]? = some first → recorded[j]? = some second → first.Delays base limit →
    second.Delays base' limit' → base ≤ base' → limit ≤ limit' →
    (node.retryHistory[i]?).map RetryMetadata.backoffSeconds = some (some (.int delay)) →
    (node.retryHistory[j]?).map RetryMetadata.backoffSeconds = some (some (.int delay')) → delay ≤ delay'

omit [Sha256] in
theorem Counts.laws {recorded : List RetryCall} {node : NodeSnapshot} (h : Counts recorded node.retries) :
    RetryLaws recorded node := by
  have waits : ∀ (i : Nat) call base limit, recorded[i]? = some call → call.Delays base limit →
      call.classification ≠ .permanent →
      0 ≤ base ∧ (node.retryHistory[i]?).map RetryMetadata.backoffSeconds =
        some (some (.int (min limit (base * 2 ^ i)))) := by
    intro i call base limit found delays retryable
    obtain ⟨retry, entry, leaves⟩ := h.leaves found
    have entry : node.retryHistory[i]? = some retry := entry
    rw [entry, Option.map_some, leaves.waits delays retryable]
    exact ⟨(leaves.bounds delays).1, rfl⟩
  have permanent : ∀ (i : Nat) call, recorded[i]? = some call → call.classification = .permanent →
      (node.retryHistory[i]?).map RetryMetadata.backoffSeconds = some none := by
    intro i call found never
    obtain ⟨retry, entry, leaves⟩ := h.leaves found
    have entry : node.retryHistory[i]? = some retry := entry
    have due := leaves.backoff
    rw [DurableRuntime.backoff, if_pos never] at due
    rw [entry, Option.map_some, ← Except.ok.inj due]
  refine ⟨h.attempts, h.numbered, ?_, permanent, ?_⟩
  · intro i call base limit found delays retryable
    obtain ⟨nonneg, entry⟩ := waits i call base limit found delays retryable
    exact ⟨nonneg, Int.min_le_left .., entry⟩
  · intro i j first second base limit base' limit' delay delay' order early late delays delays' bases limits this that
    by_cases retryable : first.classification = .permanent
    · rw [permanent i first early retryable] at this
      simp at this
    by_cases retryable' : second.classification = .permanent
    · rw [permanent j second late retryable'] at that
      simp at that
    obtain ⟨nonneg, entry⟩ := waits i first base limit early delays retryable
    obtain ⟨_, entry'⟩ := waits j second base' limit' late delays' retryable'
    rw [entry] at this
    rw [entry'] at that
    simp only [Option.some.injEq, Num.int.injEq] at this that
    rw [← this, ← that]
    exact delay_le nonneg bases limits order

/-- A call that returns with a key that is not on record is recorded. -/
theorem retryCall?_fresh {runId nodeId : String} {dir : RunDir} {ledger : Option (RunLedger runId)}
    (tracked : Tracks runId dir ledger) {classification : RetryClass} {reason key : String}
    {baseDelay maxDelay : Num} {clock : Clock} {value : Value}
    (returned : ((Call.run (.recordRetry nodeId classification reason baseDelay maxDelay key)).perform
      runId clock dir).2 = .ok value)
    (fresh : ∀ s, (load runId dir).2 = .ok s → s.idempotency.lookup key = none) :
    retryCall? runId nodeId dir (.run (.recordRetry nodeId classification reason baseDelay maxDelay key)) clock =
      some ⟨classification, reason, baseDelay, maxDelay⟩ := by
  obtain ⟨after, acts, next⟩ := perform_call tracked (.run (.recordRetry nodeId classification reason baseDelay
    maxDelay key)) clock
  rw [returned] at acts
  cases acts with
  | acted l l' op clock outcome acts =>
    have loaded : (load runId dir).2 = .ok l.state := by rw [tracked.2.1, load_files l tracked.1]
    cases acts with
    | repeated value valid decided =>
      have known := done_repeats decided
      rw [show (Operation.recordRetry nodeId classification reason baseDelay maxDelay key).key = key from rfl,
        fresh l.state loaded] at known
      cases known
    | recorded change occurredAt value valid decided =>
      have fits := verdict_fits decided
      have changed := record_events l ⟨change, key, occurredAt⟩ fits.1 fits.2
      refine if_pos ⟨rfl, ?_⟩
      rw [next.2.1, tracked.2.1]
      exact changed

/-- Retries over whole runs. Those of a node are the calls of `record_retry` that were recorded for
it: one for each call that returns under a new key, none for a call under a key of an earlier call. -/
theorem retries_counted (runId nodeId : String) (calls : List (Call × Clock)) :
    let dir := (perform runId .absent calls).1
    (∀ s node, (load runId dir).2 = .ok s → s.nodes.lookup nodeId = some node →
      RetryLaws (recordedRetries runId nodeId .absent calls) node) ∧
    (∀ classification reason baseDelay maxDelay key clock value,
      let call : Call := .run (.recordRetry nodeId classification reason baseDelay maxDelay key)
      (call.perform runId clock dir).2 = .ok value →
      (∀ s, (load runId dir).2 = .ok s → s.idempotency.lookup key = none) →
        retryCall? runId nodeId dir call clock = some ⟨classification, reason, baseDelay, maxDelay⟩) ∧
    ∀ (op : Operation) clock value, (Call.perform runId clock dir (.run op)).2 = .ok value →
      ∀ more (again : Operation) clock', again.key = op.key →
        let later := (perform runId (Call.perform runId clock dir (.run op)).1 more).1
        (Call.perform runId clock' later (.run again)).1.events = later.events ∧
          (load runId (Call.perform runId clock' later (.run again)).1).2 = (load runId later).2 := by
  intro dir
  have start : Tracks runId .absent none := ⟨rfl, rfl⟩
  have none_yet : Accounted nodeId [] (none : Option (RunLedger runId)) := rfl
  obtain ⟨ledger, tracked, counted⟩ := perform_counted start calls none_yet
  refine ⟨?_, ?_, ?_⟩
  · intro s node loaded found
    cases ledger with
    | none =>
      obtain ⟨e, missing⟩ := load_empty runId tracked.1
      rw [missing] at loaded
      cases loaded
    | some l =>
      have files : dir = filesOf l := tracked.2.1
      rw [files, load_files l tracked.1] at loaded
      cases loaded
      exact (counted node found).laws
  · intro classification reason baseDelay maxDelay key clock value call returned fresh
    exact retryCall?_fresh tracked returned fresh
  · intro op clock value returned more again clock' key later
    obtain ⟨l, recorded, known⟩ := returned_known tracked returned
    obtain ⟨last, kept, keys⟩ := perform_keeps recorded more
    have used : ∀ other, Call.run again = .run other → last.state.idempotency.lookup other.key ≠ none := by
      rintro other ⟨⟩
      apply keys
      rw [key, show l.state.idempotency.lookup op.key = _ from known]
      simp
    have same := load_tracked kept (used_tracked kept (.run again) clock' used)
    exact ⟨same.2, same.1⟩

/-! Retries that do not double: smaller delays are asked for, and then the failure is permanent. -/

def slowingRetries : List (Operation × Clock) :=
  [(.recordRetry "build" .transient "network" (.int 8) (.int 8) "first", .reading 1 DateTime.one_inDay),
   (.recordRetry "build" .transient "network" (.int 1) (.int 8) "second", .reading 2 DateTime.two_inDay),
   (.recordRetry "build" .permanent "broken" (.int 1) (.int 8) "third", .reading 3 DateTime.three_inDay)]

omit [Sha256] in
theorem slowingRetries_delays :
    let _ := Sha256.standard
    ∃ s, (load "run" (perform "run" .absent ((.create buildCreation, .reading 0 (by decide)) ::
        slowingRetries.map (fun step => (.run step.1, step.2)))).1).2 = .ok s ∧
      (s.nodes.lookup "build").map (fun node => node.retryHistory.map RetryMetadata.backoffSeconds) =
        some [some (.int 8), some (.int 2), none] := by
  let _ := Sha256.standard
  obtain ⟨l, tracked, state, _⟩ := perform_founded "run" buildCreation
    ⟨0, by decide⟩ (.ok ⟨0, by decide⟩) (by decide) slowingRetries
  have delays : ((stepAll "run" (founded "run" buildCreation ⟨0, by decide⟩).state slowingRetries).nodes.lookup
      "build").map (fun node => node.retryHistory.map RetryMetadata.backoffSeconds) =
        some [some (.int 8), some (.int 2), none] := by
    decide +kernel
  refine ⟨l.state, ?_, ?_⟩
  · have files : (perform "run" .absent ((.create buildCreation, .reading 0 (by decide)) ::
        slowingRetries.map (fun step => (.run step.1, step.2)))).1 = filesOf l := tracked.2.1
    rw [files, load_files l tracked.1]
  · rw [state]
    exact delays

end Onmc.DurableRuntime
