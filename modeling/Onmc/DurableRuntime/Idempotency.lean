import Onmc.DurableRuntime.Evidence
import Onmc.DurableRuntime.Torn

/-! Idempotency keys. A key stands for one command: what its caller asked for, without what the
store derived from the clock and the state. -/
namespace Onmc.DurableRuntime

/-- What of a command its caller decides, under the kind of the event it writes. -/
def Command.asked : Command → EventKind × Json
  | transitionRun target reason approvedBy =>
    (.runTransition, .obj ([("to", .str target.value), ("reason", .ofOption .str reason)] ++
      Change.approvedByField approvedBy))
  | transitionNode nodeId target reason approvedBy =>
    (.nodeTransition, .obj ([("node_id", .str nodeId), ("to", .str target.value),
      ("reason", .ofOption .str reason)] ++ Change.approvedByField approvedBy))
  | acquireLease nodeId owner ttlSeconds =>
    (.leaseAcquired, .obj [("node_id", .str nodeId), ("owner", .str owner), ("ttl_seconds", .num ttlSeconds)])
  | heartbeat nodeId token ttlSeconds =>
    (.leaseHeartbeat, .obj [("node_id", .str nodeId), ("token", .str token), ("ttl_seconds", .num ttlSeconds)])
  | releaseLease nodeId token => (.leaseReleased, .obj [("node_id", .str nodeId), ("token", .str token)])
  | expireLeases => (.leasesExpired, .obj [])
  | recordRetry nodeId classification reason baseDelay maxDelay =>
    (.retryRecorded, .obj [("node_id", .str nodeId), ("classification", .str classification.value),
      ("reason", .str reason), ("base_delay_seconds", .num baseDelay), ("max_delay_seconds", .num maxDelay)])

def askedText (kind : EventKind) (payload : Json) : Json :=
  .obj [("event_type", .str kind.value), ("payload", payload)]

/-- The caller's part of a payload decides the kind and each of its fields. -/
theorem askedText_inj {kind kind' : EventKind} {payload payload' : Json}
    (h : (askedText kind payload).canonical = (askedText kind' payload').canonical) :
    kind = kind' ∧ payload.canonical = payload'.canonical := by
  have fields : ∀ key, (askedText kind payload).canonical.get? key = (askedText kind' payload').canonical.get? key :=
    fun key => by rw [h]
  have types := fields "event_type"
  have payloads := fields "payload"
  simp only [Json.get?_canonical] at types payloads
  simp only [askedText, Json.get?, List.lookup_cons, String.reduceBEq, beq_self_eq_true,
    Option.map_some, Json.canonical_str, Option.some.injEq, Json.str.injEq] at types payloads
  exact ⟨EventKind.value_inj types, payloads⟩

theorem ofOption_str_inj {a b : Option String}
    (h : (Json.ofOption .str a).canonical = (Json.ofOption .str b).canonical) : a = b := by
  cases a with
  | none =>
    cases b with
    | none => rfl
    | some b => simp [Json.ofOption] at h
  | some a =>
    cases b with
    | none => simp [Json.ofOption] at h
    | some b =>
      simp only [Json.ofOption, Json.canonical_str, Json.str.injEq] at h
      rw [h]

theorem approvedByField_lookup (approvedBy : Option String) :
    (Change.approvedByField approvedBy).lookup "approved_by" = approvedBy.map Json.str := by
  cases approvedBy with
  | none => rfl
  | some name => simp [Change.approvedByField]

theorem map_str_canonical_inj {a b : Option String}
    (h : (a.map Json.str).map Json.canonical = (b.map Json.str).map Json.canonical) : a = b := by
  cases a with
  | none =>
    cases b with
    | none => rfl
    | some b => cases h
  | some a =>
    cases b with
    | none => cases h
    | some b =>
      simp only [Option.map_some, Json.canonical_str, Option.some.injEq, Json.str.injEq] at h
      rw [h]

/-- Commands that ask for the same are the same. -/
theorem asked_inj {c d : Command}
    (h : (askedText c.asked.1 c.asked.2).canonical = (askedText d.asked.1 d.asked.2).canonical) : c = d := by
  obtain ⟨kind, payload⟩ := askedText_inj h
  have fields : ∀ key, (c.asked.2.get? key).map Json.canonical = (d.asked.2.get? key).map Json.canonical := by
    intro key
    rw [← Json.get?_canonical, ← Json.get?_canonical, payload]
  cases c with
  | transitionRun target reason approvedBy =>
    cases d with
    | transitionRun target' reason' approvedBy' =>
      have targets := fields "to"
      have reasons := fields "reason"
      have approvals := fields "approved_by"
      simp only [Command.asked, Json.get?, List.lookup_append, List.lookup_cons, String.reduceBEq, beq_self_eq_true,
        Option.some_or, Option.map_some, Json.canonical_str, Option.some.injEq, Json.str.injEq,
        approvedByField_lookup] at targets reasons approvals
      rw [RunState.value_inj targets, ofOption_str_inj reasons, map_str_canonical_inj approvals]
    | _ => cases kind
  | transitionNode nodeId target reason approvedBy =>
    cases d with
    | transitionNode nodeId' target' reason' approvedBy' =>
      have nodes := fields "node_id"
      have targets := fields "to"
      have reasons := fields "reason"
      have approvals := fields "approved_by"
      simp only [Command.asked, Json.get?, List.lookup_append, List.lookup_cons, String.reduceBEq, beq_self_eq_true,
        Option.some_or, Option.map_some, Json.canonical_str, Option.some.injEq, Json.str.injEq,
        approvedByField_lookup] at nodes targets reasons approvals
      rw [nodes, NodeState.value_inj targets, ofOption_str_inj reasons, map_str_canonical_inj approvals]
    | _ => cases kind
  | acquireLease nodeId owner ttlSeconds =>
    cases d with
    | acquireLease nodeId' owner' ttlSeconds' =>
      have nodes := fields "node_id"
      have owners := fields "owner"
      have ttls := fields "ttl_seconds"
      simp only [Command.asked, Json.get?, List.lookup_cons, String.reduceBEq, beq_self_eq_true, Option.map_some,
        Json.canonical_str, Json.canonical_num, Option.some.injEq, Json.str.injEq, Json.num.injEq] at nodes owners ttls
      rw [nodes, owners, ttls]
    | _ => cases kind
  | heartbeat nodeId token ttlSeconds =>
    cases d with
    | heartbeat nodeId' token' ttlSeconds' =>
      have nodes := fields "node_id"
      have tokens := fields "token"
      have ttls := fields "ttl_seconds"
      simp only [Command.asked, Json.get?, List.lookup_cons, String.reduceBEq, beq_self_eq_true, Option.map_some,
        Json.canonical_str, Json.canonical_num, Option.some.injEq, Json.str.injEq, Json.num.injEq] at nodes tokens ttls
      rw [nodes, tokens, ttls]
    | _ => cases kind
  | releaseLease nodeId token =>
    cases d with
    | releaseLease nodeId' token' =>
      have nodes := fields "node_id"
      have tokens := fields "token"
      simp only [Command.asked, Json.get?, List.lookup_cons, String.reduceBEq, beq_self_eq_true, Option.map_some,
        Json.canonical_str, Option.some.injEq, Json.str.injEq] at nodes tokens
      rw [nodes, tokens]
    | _ => cases kind
  | expireLeases =>
    cases d with
    | expireLeases => rfl
    | _ => cases kind
  | recordRetry nodeId classification reason baseDelay maxDelay =>
    cases d with
    | recordRetry nodeId' classification' reason' baseDelay' maxDelay' =>
      have nodes := fields "node_id"
      have classes := fields "classification"
      have reasons := fields "reason"
      have bases := fields "base_delay_seconds"
      have maxima := fields "max_delay_seconds"
      simp only [Command.asked, Json.get?, List.lookup_cons, String.reduceBEq, beq_self_eq_true, Option.map_some,
        Json.canonical_str, Json.canonical_num, Option.some.injEq, Json.str.injEq, Json.num.injEq]
        at nodes classes reasons bases maxima
      rw [nodes, RetryClass.value_inj classes, reasons, bases, maxima]
    | _ => cases kind

/-! What is compared and what is stored. -/

@[simp] theorem commandPayload_runTransition (source target : RunState) (reason approvedBy : Option String) :
    commandPayload .runTransition (Change.runTransition source target reason approvedBy).payload =
      (Command.transitionRun target reason approvedBy).asked.2 := by
  cases approvedBy <;> rfl

@[simp] theorem commandPayload_nodeTransition (nodeId : String) (source target : NodeState)
    (reason approvedBy : Option String) :
    commandPayload .nodeTransition (Change.nodeTransition nodeId source target reason approvedBy).payload =
      (Command.transitionNode nodeId target reason approvedBy).asked.2 := by
  cases approvedBy <;> rfl

variable [Sha256]

def Command.fingerprint (command : Command) : String := hashOf (askedText command.asked.1 command.asked.2)

/-- The operation hash a command looks for under its key, or what it raises before it looks. -/
def Command.compared (s : RunSnapshot) (clock : Clock) : Command → Outcome String
  | transitionRun target reason approvedBy => .ok (Change.runTransition s.state target reason approvedBy).fingerprint
  | transitionNode nodeId target reason approvedBy => do
    let node ← findNode s nodeId
    return (Change.nodeTransition nodeId node.state target reason approvedBy).fingerprint
  | acquireLease nodeId owner ttlSeconds => .ok (acquireFingerprint nodeId owner ttlSeconds)
  | heartbeat nodeId token ttlSeconds => .ok (heartbeatFingerprint nodeId token ttlSeconds)
  | releaseLease nodeId token => .ok (Change.leaseReleased nodeId token).fingerprint
  | expireLeases => do
    let now ← clock.now
    let nodeIds := (Dict.keys (s.nodes.filter (fun item => expired now item.2))).insertionSort (· ≤ ·)
    return (Change.leasesExpired nodeIds now).fingerprint
  | recordRetry nodeId classification reason baseDelay maxDelay => do
    let node ← findNode s nodeId
    let backoffSeconds ← backoff classification baseDelay maxDelay node.attempts
    let now ← clock.now
    let notBefore ← notBeforeTime now backoffSeconds
    let retry : RetryMetadata :=
      ⟨node.attempts + 1, classification, decide (classification ≠ .permanent), backoffSeconds,
        notBefore, reason⟩
    return (Change.retryRecorded nodeId retry baseDelay maxDelay).fingerprint

/-- An operation works out its hash, looks its key up, and goes on from what it finds. -/
theorem verdict_compared (runId key : String) (clock : Clock) (s : RunSnapshot) (command : Command) :
    ∃ rest : Bool → Outcome Verdict, command.verdict runId key clock s =
      command.compared s clock >>= fun fingerprint => checkIdempotency s key fingerprint >>= rest := by
  cases command with
  | transitionRun target reason approvedBy => exact ⟨_, rfl⟩
  | transitionNode nodeId target reason approvedBy =>
    cases found : findNode s nodeId with
    | error e => exact ⟨fun _ => .error e, by simp [Command.verdict, transitionNode, Command.compared, found]⟩
    | ok node =>
      simp only [Command.verdict, transitionNode, Command.compared, found, Except.ok_bind, pure, Except.pure]
      exact ⟨_, rfl⟩
  | acquireLease nodeId owner ttlSeconds => exact ⟨_, rfl⟩
  | heartbeat nodeId token ttlSeconds => exact ⟨_, rfl⟩
  | releaseLease nodeId token => exact ⟨_, rfl⟩
  | expireLeases =>
    cases now : clock.now with
    | error e => exact ⟨fun _ => .error e, by simp [Command.verdict, expireLeases, Command.compared, now]⟩
    | ok time =>
      simp only [Command.verdict, expireLeases, Command.compared, now, Except.ok_bind, pure, Except.pure]
      exact ⟨_, rfl⟩
  | recordRetry nodeId classification reason baseDelay maxDelay =>
    cases found : findNode s nodeId with
    | error e => exact ⟨fun _ => .error e, by simp [Command.verdict, recordRetry, Command.compared, found]⟩
    | ok node =>
      cases delay : backoff classification baseDelay maxDelay node.attempts with
      | error e => exact ⟨fun _ => .error e, by simp [Command.verdict, recordRetry, Command.compared, found, delay]⟩
      | ok backoffSeconds =>
        cases now : clock.now with
        | error e => exact ⟨fun _ => .error e, by simp [Command.verdict, recordRetry, Command.compared, found, delay, now]⟩
        | ok time =>
          cases due : notBeforeTime time backoffSeconds with
          | error e =>
            exact ⟨fun _ => .error e, by simp [Command.verdict, recordRetry, Command.compared, found, delay, now, due]⟩
          | ok notBefore =>
            simp only [Command.verdict, recordRetry, Command.compared, found, delay, now, due, Except.ok_bind,
              pure, Except.pure]
            exact ⟨_, rfl⟩

/-- The hash of an event of the kind a command writes is the command's own, once the derived fields
are left out. -/
theorem fingerprint_asked {change : Change} {command : Command} (kind : change.kind = command.asked.1)
    (payload : commandPayload change.kind change.payload = command.asked.2) :
    change.fingerprint = command.fingerprint := by
  rw [Change.fingerprint, operationHash, payload, kind]
  rfl

/-- What is compared depends on what the caller asks alone. -/
theorem compared_fingerprint {s : RunSnapshot} {clock : Clock} {command : Command} {fingerprint : String}
    (h : command.compared s clock = .ok fingerprint) : fingerprint = command.fingerprint := by
  cases command with
  | transitionRun target reason approvedBy =>
    cases h
    exact fingerprint_asked rfl (commandPayload_runTransition ..)
  | transitionNode nodeId target reason approvedBy =>
    obtain ⟨node, _, h⟩ := Except.bind_ok.mp h
    cases h
    exact fingerprint_asked rfl (commandPayload_nodeTransition ..)
  | acquireLease nodeId owner ttlSeconds =>
    cases h
    rfl
  | heartbeat nodeId token ttlSeconds =>
    cases h
    rfl
  | releaseLease nodeId token =>
    cases h
    rfl
  | expireLeases =>
    obtain ⟨now, _, h⟩ := Except.bind_ok.mp h
    cases h
    rfl
  | recordRetry nodeId classification reason baseDelay maxDelay =>
    obtain ⟨node, _, h⟩ := Except.bind_ok.mp h
    obtain ⟨backoffSeconds, _, h⟩ := Except.bind_ok.mp h
    obtain ⟨now, _, h⟩ := Except.bind_ok.mp h
    obtain ⟨notBefore, _, h⟩ := Except.bind_ok.mp h
    cases h
    rfl

/-- An operation records what its caller asked for. -/
theorem append_asked {runId key : String} {clock : Clock} {s : RunSnapshot} {command : Command}
    {change : Change} (h : command.verdict runId key clock s = .ok (.append change)) :
    change.kind = command.asked.1 ∧ commandPayload change.kind change.payload = command.asked.2 := by
  cases command with
  | transitionRun target reason approvedBy =>
    rcases transitionRun_ok h with ⟨hv, _⟩ | ⟨hv, _⟩
    · cases hv
    · cases hv
      exact ⟨rfl, commandPayload_runTransition ..⟩
  | transitionNode nodeId target reason approvedBy =>
    obtain ⟨node, _, ⟨hv, _⟩ | ⟨hv, _⟩⟩ := transitionNode_ok h
    · cases hv
    · cases hv
      exact ⟨rfl, commandPayload_nodeTransition ..⟩
  | acquireLease nodeId owner ttlSeconds =>
    obtain ⟨node, _, ⟨_, hv, _⟩ | ⟨_, _, _, _, _, _, hv⟩⟩ := acquireLease_ok h
    · cases hv
    · cases hv
      exact ⟨rfl, rfl⟩
  | heartbeat nodeId token ttlSeconds =>
    obtain ⟨node, lease, _, _, ⟨hv, _⟩ | ⟨_, _, _, _, _, _, _, hv⟩⟩ := heartbeat_ok h
    · cases hv
    · cases hv
      exact ⟨rfl, rfl⟩
  | releaseLease nodeId token =>
    rcases releaseLease_ok h with ⟨hv, _⟩ | ⟨_, _, _, _, _, _, hv⟩
    · cases hv
    · cases hv
      exact ⟨rfl, rfl⟩
  | expireLeases =>
    rcases expireLeases_ok h with hv | ⟨_, _, hv, _⟩
    · cases hv
    · cases hv
      exact ⟨rfl, rfl⟩
  | recordRetry nodeId classification reason baseDelay maxDelay =>
    obtain ⟨node, _, _, _, _, ⟨_, hv, _⟩ | ⟨hv, _⟩⟩ := recordRetry_ok h
    · cases hv
    · cases hv
      exact ⟨rfl, rfl⟩

omit [Sha256] in
theorem checkIdempotency_conflict {s : RunSnapshot} {key stored fingerprint : String} (named : key ≠ "")
    (recorded : s.idempotency.lookup key = some stored) (other : stored ≠ fingerprint) :
    checkIdempotency s key fingerprint = raise .idempotencyConflict
      ("idempotency key " ++ pyRepr key ++ " was used for another operation") := by
  simp [checkIdempotency, named, recorded, other]

/-- An operation that finds nothing to do has its own hash on record. -/
theorem done_repeats {runId key : String} {clock : Clock} {s : RunSnapshot} {command : Command}
    {value : Value} (h : command.verdict runId key clock s = .ok (.done value)) :
    s.idempotency.lookup key = some command.fingerprint := by
  have known := verdict_known h
  obtain ⟨rest, factored⟩ := verdict_compared runId key clock s command
  rw [factored] at h
  obtain ⟨fingerprint, compared, h⟩ := Except.bind_ok.mp h
  obtain ⟨repeated, found, _⟩ := Except.bind_ok.mp h
  rcases checkIdempotency_ok found with ⟨_, recorded⟩ | ⟨_, unused⟩
  · rw [recorded.2, compared_fingerprint compared]
  · exact absurd unused.2 known

/-! What the ledger keeps about keys. -/

/-- Each entry has a key of its own, on record with the entry's hash. -/
structure Keyed {runId : String} (l : RunLedger runId) : Prop where
  unique : (l.entries.map Entry.key).Nodup
  recorded : ∀ entry ∈ l.entries, entry.key ≠ "" ∧
    l.state.idempotency.lookup entry.key = some entry.change.fingerprint
  known : ∀ key fingerprint, l.state.idempotency.lookup key = some fingerprint →
    ∃ entry ∈ l.entries, entry.key = key ∧ entry.change.fingerprint = fingerprint

theorem founded_keyed {runId : String} {creation : Creation} (occurredAt : DateTime)
    (valid : creation.validate runId = .ok ()) : Keyed (founded runId creation occurredAt) where
  unique := by simp [founded, EventLog.Ledger.first]
  recorded := by
    intro entry member
    cases List.mem_singleton.mp member
    exact ⟨(validate_safe valid).2, by simp [founded, RunSnapshot.start]⟩
  known := by
    intro key fingerprint found
    simp only [founded, EventLog.Ledger.state_first, RunSnapshot.start, List.lookup_cons, List.lookup_nil] at found
    split at found
    · rename_i same
      exact ⟨_, List.mem_singleton_self _, (eq_of_beq same).symm, Option.some.inj found⟩
    · cases found

theorem record_keyed {runId : String} {l : RunLedger runId} (keyed : Keyed l) (entry : Entry)
    (fits : entry.change.Fits l.state.progress) (unused : l.state.Unused entry.key) :
    Keyed (record l entry fits unused) where
  unique := by
    have apart : ∀ old ∈ l.entries, old.key ≠ entry.key := by
      intro old member same
      have recorded := (keyed.recorded old member).2
      rw [same, unused.2] at recorded
      cases recorded
    simp only [record, EventLog.Ledger.entries_append, List.map_append, List.map_cons, List.map_nil]
    refine List.Nodup.append keyed.unique (List.nodup_singleton _) ?_
    simpa using fun old member => apart old member
  recorded := by
    intro old member
    simp only [record, EventLog.Ledger.entries_append, List.mem_append, List.mem_singleton] at member
    rw [record_state]
    simp only [RunSnapshot.advance, Dict.lookup_setItem]
    rcases member with member | rfl
    · obtain ⟨named, recorded⟩ := keyed.recorded old member
      refine ⟨named, ?_⟩
      split
      · rename_i same
        rw [same, unused.2] at recorded
        cases recorded
      · exact recorded
    · exact ⟨unused.1, by simp⟩
  known := by
    intro key fingerprint found
    rw [record_state] at found
    simp only [RunSnapshot.advance, Dict.lookup_setItem] at found
    simp only [record, EventLog.Ledger.entries_append, List.mem_append, List.mem_singleton]
    split at found
    · rename_i same
      exact ⟨entry, .inr rfl, same.symm, Option.some.inj found⟩
    · obtain ⟨old, member, at_⟩ := keyed.known key fingerprint found
      exact ⟨old, .inl member, at_⟩

theorem reached_keyed {runId : String} {l : RunLedger runId} (h : Reached l) : Keyed l := by
  induction h with
  | founded creation occurredAt valid => exact founded_keyed occurredAt valid
  | acted l l' op clock outcome reached acts ih =>
    cases acts with
    | refused => exact ih
    | repeated => exact ih
    | recorded => exact record_keyed ih _ _ _

/-! Calls and the events of the log. -/

omit [Sha256] in
/-- `create_run` on a run that exists asks for the recorded environment and repository where it is
given none. -/
def Creation.change (creation : Creation) (s : RunSnapshot) : Change :=
  .runCreated creation.nodeIds (creation.environment.getD s.environment) (creation.git.getD s.git)

/-- The key a call looks up, with the operation hash it looks for there or what it raises before. -/
def Call.looksUp (runId : String) (s : RunSnapshot) (clock : Clock) : Call → Option (String × Outcome String)
  | create creation => some (creation.key, do
      creation.validate runId
      return (creation.change s).fingerprint)
  | load => none
  | run op => some (op.key, do
      op.validate
      op.command.compared s clock)

/-- The event is one the command writes: its kind, and its payload without the derived fields. -/
def Command.Asks (event : Event) (command : Command) : Prop :=
  event.eventType = command.asked.1.value ∧
    (commandPayload command.asked.1 event.payload).canonical = command.asked.2.canonical

def Call.Asks (s : RunSnapshot) (event : Event) : Call → Prop
  | create creation => event.eventType = EventKind.runCreated.value ∧
      event.payload.canonical = (creation.change s).payload.canonical
  | load => False
  | run op => op.command.Asks event

/-- How a call is answered whose key is the event's, when it comes to compare. -/
structure Answered (event : Event) (compared : Outcome String) (asks : Prop) (outcome : Outcome Value) :
    Prop where
  raised : ∀ e, compared = .error e → outcome = .error e
  stored : ∀ fingerprint, compared = .ok fingerprint → (event.operationHash = fingerprint ↔ asks)
  conflict : ∀ fingerprint, compared = .ok fingerprint → ¬ asks → outcome = raise .idempotencyConflict
    ("idempotency key " ++ pyRepr event.idempotencyKey ++ " was used for another operation")

omit [Sha256] in
/-- No two commands ask for one event. -/
theorem asks_determined {event : Event} {c d : Command} (hc : c.Asks event) (hd : d.Asks event) : c = d := by
  have kinds := EventKind.value_inj (hc.1.symm.trans hd.1)
  refine asked_inj ?_
  have payloads : c.asked.2.canonical = d.asked.2.canonical := by
    rw [← hc.2, ← hd.2, kinds]
  simp only [askedText, Json.canonical_obj, Json.canonicalFields_cons, kinds, payloads]

omit [Sha256] in
theorem commandPayload_canonical (kind : EventKind) (payload : Json) :
    (commandPayload kind payload.canonical).canonical = (commandPayload kind payload).canonical := by
  unfold commandPayload
  induction derivedKeys kind generalizing payload with
  | nil => exact Json.canonical_canonical payload
  | cons key keys ih =>
    simp only [List.foldl_cons]
    rw [← Json.canonical_without]
    exact ih _

/-- Equal operation hashes are of equal texts. -/
theorem operationHash_same (apart : Function.Injective Sha256.hexdigest) {kind kind' : EventKind}
    {payload payload' : Json} :
    operationHash kind payload = hashOf (askedText kind' payload') ↔
      kind = kind' ∧ (commandPayload kind payload).canonical = payload'.canonical := by
  constructor
  · intro same
    exact askedText_inj (Json.canonical_of_dumps_eq (apart same))
  · rintro ⟨rfl, payloads⟩
    rw [operationHash, ← hashOf_canonical, ← hashOf_canonical (askedText kind payload')]
    simp only [askedText, Json.canonical_obj, Json.canonicalFields_cons, payloads]

/-- The columns of the log that an entry fills. -/
def Entry.Written (event : Event) (entry : Entry) : Prop :=
  event.idempotencyKey = entry.key ∧ event.eventType = entry.change.kind.value ∧
    event.payload = entry.change.payload.canonical ∧ event.operationHash = entry.change.fingerprint

omit [Sha256] in
theorem forall₂_mem {α β : Type} {R : α → β → Prop} {xs : List α} {ys : List β} (h : List.Forall₂ R xs ys)
    {x : α} (member : x ∈ xs) : ∃ y ∈ ys, R x y := by
  induction h with
  | nil => cases member
  | cons related _ ih =>
    rcases List.mem_cons.mp member with rfl | member
    · exact ⟨_, List.mem_cons_self, related⟩
    · obtain ⟨y, found, at_⟩ := ih member
      exact ⟨y, List.mem_cons_of_mem _ found, at_⟩

theorem log_written (runId : String) (snapshot : Option RunSnapshot) (entries : List Entry)
    (visited : List RunSnapshot) (len : visited.length = entries.length) :
    List.Forall₂ Entry.Written ((logEvents runId snapshot entries visited).map Event.sorted) entries := by
  induction entries generalizing snapshot visited with
  | nil => exact .nil
  | cons entry entries ih =>
    cases visited with
    | nil => cases len
    | cons next visited =>
      have tail := ih (some next) visited (Nat.succ.inj len)
      exact .cons ⟨rfl, rfl, rfl, rfl⟩ tail

theorem written_keys {log : List Event} {entries : List Entry} (h : List.Forall₂ Entry.Written log entries) :
    log.map Event.idempotencyKey = entries.map Entry.key := by
  induction h with
  | nil => rfl
  | cons written _ ih => simp only [List.map_cons, written.1, ih]

theorem written_hash (apart : Function.Injective Sha256.hexdigest) {event : Event} {entry : Entry}
    (written : entry.Written event) {kind : EventKind} {payload : Json} :
    event.operationHash = hashOf (askedText kind payload) ↔
      event.eventType = kind.value ∧ (commandPayload kind event.payload).canonical = payload.canonical := by
  obtain ⟨_, type, stored, hash⟩ := written
  rw [hash, Change.fingerprint, operationHash_same apart, type, stored, commandPayload_canonical]
  constructor
  · rintro ⟨rfl, payloads⟩
    exact ⟨rfl, payloads⟩
  · rintro ⟨kinds, payloads⟩
    obtain rfl := EventKind.value_inj kinds
    exact ⟨rfl, payloads⟩

/-! Calls whose key is on record. -/

theorem acts_used {runId : String} {l l' : RunLedger runId} {op : Operation} {clock : Clock}
    {outcome : Outcome Value} (h : Acts l op clock l' outcome)
    (used : l.state.idempotency.lookup op.key ≠ none) : l' = l := by
  cases h with
  | refused => rfl
  | repeated => rfl
  | recorded change occurredAt value valid decided => exact absurd (verdict_fits decided).2.2 used

theorem step_answered (apart : Function.Injective Sha256.hexdigest) (runId : String) {s : RunSnapshot}
    {event : Event} {entry : Entry} (written : entry.Written event) (named : entry.key ≠ "")
    (recorded : s.idempotency.lookup entry.key = some entry.change.fingerprint) (op : Operation)
    (clock : Clock) (key : op.key = event.idempotencyKey) :
    Answered event (op.validate >>= fun _ => op.command.compared s clock) (op.command.Asks event)
      (op.step runId clock s).2 := by
  obtain ⟨rest, factored⟩ := verdict_compared runId op.key clock s op.command
  have stored : ∀ fingerprint, (op.validate >>= fun _ => op.command.compared s clock) = .ok fingerprint →
      (event.operationHash = fingerprint ↔ op.command.Asks event) := by
    intro fingerprint h
    obtain ⟨_, _, compared⟩ := Except.bind_ok.mp h
    rw [compared_fingerprint compared]
    exact written_hash apart written
  refine ⟨?_, stored, ?_⟩
  · intro e h
    cases valid : op.validate with
    | error e' =>
      rw [valid] at h
      cases h
      simp only [Operation.step, valid]
    | ok u =>
      rw [valid] at h
      have h : op.command.compared s clock = .error e := h
      rw [h] at factored
      simp only [Operation.step, valid, factored, Except.error_bind]
  · intro fingerprint h other
    have differs : entry.change.fingerprint ≠ fingerprint := by
      intro same
      exact other ((stored fingerprint h).mp (written.2.2.2.trans same))
    obtain ⟨_, valid, compared⟩ := Except.bind_ok.mp h
    have refused := checkIdempotency_conflict named recorded differs
    have keys : op.key = entry.key := key.trans written.1
    rw [compared, keys, Except.ok_bind, refused] at factored
    simp only [raise, Except.error_bind] at factored
    simp only [Operation.step, valid, keys, factored, written.1]
    rfl

theorem creation_call {runId : String} (l : RunLedger runId) (creation : Creation) (clock : Clock) :
    (creation.call runId clock (filesOf l)).2 = (do
      creation.validate runId
      if ← checkIdempotency l.state creation.key (creation.change l.state).fingerprint then
        return .snapshot l.state
      raise .runAlreadyExists ("run " ++ pyRepr runId ++ " already exists")) := by
  have created : { filesOf l with created := true } = filesOf l := rfl
  have loaded := (filesOf_holds l).loadUnlocked
  have present : ¬ (filesOf l).events = none := by simp [filesOf]
  cases valid : creation.validate runId with
  | error e => simp only [Creation.call, valid, Except.error_bind]
  | ok u =>
    cases known : checkIdempotency l.state creation.key (creation.change l.state).fingerprint with
    | error e =>
      simp only [Creation.change] at known
      simp only [Creation.call, valid, created, present, if_false, loaded, known]
      rfl
    | ok known' =>
      simp only [Creation.change] at known
      cases known' <;> simp only [Creation.call, valid, created, present, if_false, loaded, known] <;> rfl

theorem creation_answered (apart : Function.Injective Sha256.hexdigest) {runId : String} (l : RunLedger runId)
    {event : Event} {entry : Entry} (written : entry.Written event) (named : entry.key ≠ "")
    (recorded : l.state.idempotency.lookup entry.key = some entry.change.fingerprint) (creation : Creation)
    (clock : Clock) (key : creation.key = event.idempotencyKey) :
    Answered event (creation.validate runId >>= fun _ => .ok (creation.change l.state).fingerprint)
      ((Call.create creation).Asks l.state event) (creation.call runId clock (filesOf l)).2 := by
  have called := creation_call l creation clock
  have stored : event.operationHash = (creation.change l.state).fingerprint ↔
      (Call.create creation).Asks l.state event := written_hash apart written
  refine ⟨?_, ?_, ?_⟩
  · intro e h
    cases valid : creation.validate runId with
    | error e' =>
      rw [valid] at h called
      cases h
      exact called
    | ok u =>
      rw [valid] at h
      cases h
  · intro fingerprint h
    obtain ⟨_, _, h⟩ := Except.bind_ok.mp h
    cases h
    exact stored
  · intro fingerprint h other
    obtain ⟨_, valid, h⟩ := Except.bind_ok.mp h
    cases h
    have differs : entry.change.fingerprint ≠ (creation.change l.state).fingerprint := by
      intro same
      exact other (stored.mp (written.2.2.2.trans same))
    have refused := checkIdempotency_conflict named recorded differs
    have keys : creation.key = entry.key := key.trans written.1
    rw [valid, Except.ok_bind, keys, refused] at called
    rw [called, written.1]
    rfl

/-! Over whole runs. -/

/-- On a run that exists, a call with a used key leaves the ledger as it is. -/
theorem used_tracked {runId : String} {dir : RunDir} {l : RunLedger runId} (tracked : Tracks runId dir (some l))
    (call : Call) (clock : Clock) (used : ∀ op, call = .run op → l.state.idempotency.lookup op.key ≠ none) :
    Tracks runId (call.perform runId clock dir).1 (some l) := by
  obtain ⟨after, acts, tracked'⟩ := perform_call tracked call clock
  have same : after = some l := by
    generalize (call.perform runId clock dir).2 = outcome at acts
    cases acts with
    | «exists» => rfl
    | loaded => rfl
    | acted l l' op clock outcome acts => rw [acts_used acts (used op rfl)]
  rw [same] at tracked'
  exact tracked'

theorem used_same {runId : String} {dir : RunDir} {l : RunLedger runId} (tracked : Tracks runId dir (some l))
    (call : Call) (clock : Clock) (used : ∀ op, call = .run op → l.state.idempotency.lookup op.key ≠ none) :
    (call.perform runId clock dir).1.events = dir.events :=
  (load_tracked tracked (used_tracked tracked call clock used)).2

/-- Keys stay on record. -/
theorem perform_keeps {runId : String} {dir : RunDir} {l : RunLedger runId} (tracked : Tracks runId dir (some l))
    (calls : List (Call × Clock)) :
    ∃ l', Tracks runId (perform runId dir calls).1 (some l') ∧
      ∀ key, l.state.idempotency.lookup key ≠ none → l'.state.idempotency.lookup key ≠ none := by
  induction calls generalizing dir l with
  | nil => exact ⟨l, tracked, fun _ used => used⟩
  | cons step calls ih =>
    obtain ⟨call, clock⟩ := step
    obtain ⟨after, acts, tracked'⟩ := perform_call tracked call clock
    have kept : ∃ middle, after = some middle ∧
        ∀ key, l.state.idempotency.lookup key ≠ none → middle.state.idempotency.lookup key ≠ none := by
      generalize (call.perform runId clock dir).2 = outcome at acts
      cases acts with
      | «exists» => exact ⟨l, rfl, fun _ used => used⟩
      | loaded => exact ⟨l, rfl, fun _ used => used⟩
      | acted l l' op clock outcome acts =>
        refine ⟨l', rfl, ?_⟩
        intro key used
        cases acts with
        | refused => exact used
        | repeated => exact used
        | recorded change occurredAt value valid decided =>
          rw [record_state]
          simp only [RunSnapshot.advance, Dict.lookup_setItem]
          split
          · simp
          · exact used
    obtain ⟨middle, rfl, kept⟩ := kept
    obtain ⟨last, tracked', rest⟩ := ih tracked'
    exact ⟨last, tracked', fun key used => rest key (kept key used)⟩

/-- The hash of what the call asks for is on record under its key. -/
def Call.Known (s : RunSnapshot) : Call → Prop
  | create creation => s.idempotency.lookup creation.key = some (creation.change s).fingerprint
  | load => True
  | run op => s.idempotency.lookup op.key = some op.command.fingerprint

theorem operation_known {runId : String} {l l' : RunLedger runId} {op : Operation} {clock : Clock}
    {value : Value} (h : Acts l op clock l' (.ok value)) : (Call.run op).Known l'.state := by
  cases h with
  | repeated value valid decided => exact done_repeats decided
  | recorded change occurredAt value valid decided =>
    obtain ⟨kind, payload⟩ := append_asked decided
    simp only [Call.Known, record_state, RunSnapshot.advance, Dict.lookup_setItem, if_true,
      fingerprint_asked kind payload]

theorem creation_known {runId : String} {l : RunLedger runId} {creation : Creation} {clock : Clock}
    {value : Value} (h : (creation.call runId clock (filesOf l)).2 = .ok value) :
    (Call.create creation).Known l.state := by
  rw [creation_call] at h
  obtain ⟨_, _, h⟩ := Except.bind_ok.mp h
  obtain ⟨known, found, h⟩ := Except.bind_ok.mp h
  rcases checkIdempotency_ok found with ⟨_, recorded⟩ | ⟨rfl, _⟩
  · exact recorded.2
  · cases h

theorem founded_known (runId : String) (creation : Creation) (occurredAt : DateTime) :
    (Call.create creation).Known (founded runId creation occurredAt).state := by
  have environment : creation.environment.getD (creation.environment.getD creation.capturedEnvironment) =
      creation.environment.getD creation.capturedEnvironment := by
    cases creation.environment <;> rfl
  have git : creation.git.getD (creation.git.getD creation.capturedGit) =
      creation.git.getD creation.capturedGit := by
    cases creation.git <;> rfl
  simp only [Call.Known, founded, EventLog.Ledger.state_first, RunSnapshot.start, Creation.change, environment, git,
    List.lookup_cons, beq_self_eq_true]

theorem returned_known {runId : String} {dir : RunDir} {before : Option (RunLedger runId)}
    (tracked : Tracks runId dir before) {call : Call} {clock : Clock} {value : Value}
    (returned : (call.perform runId clock dir).2 = .ok value) :
    ∃ l, Tracks runId (call.perform runId clock dir).1 (some l) ∧ call.Known l.state := by
  obtain ⟨after, acts, tracked'⟩ := perform_call tracked call clock
  rw [returned] at acts
  cases acts with
  | founded creation clock occurredAt valid stamped =>
    exact ⟨_, tracked', founded_known runId creation occurredAt⟩
  | «exists» l creation clock outcome same =>
    obtain ⟨_, rfl, _⟩ := tracked
    exact ⟨l, tracked', creation_known returned⟩
  | loaded l clock => exact ⟨l, tracked', trivial⟩
  | acted l l' op clock outcome acts => exact ⟨l', tracked', operation_known acts⟩

/-- A call whose hash is on record asks for the event of its key. -/
theorem known_asks (apart : Function.Injective Sha256.hexdigest) {runId : String} {l : RunLedger runId}
    (keyed : Keyed l) {log : List Event} (written : List.Forall₂ Entry.Written log l.entries) {call : Call}
    (known : call.Known l.state) {clock : Clock} {key : String} {compared : Outcome String}
    (looks : call.looksUp runId l.state clock = some (key, compared)) :
    ∃ event ∈ log, event.idempotencyKey = key ∧ call.Asks l.state event := by
  have event_of : ∀ kind payload, l.state.idempotency.lookup key = some (hashOf (askedText kind payload)) →
      ∃ event ∈ log, event.idempotencyKey = key ∧ event.eventType = kind.value ∧
        (commandPayload kind event.payload).canonical = payload.canonical := by
    intro kind payload found
    obtain ⟨entry, member, keys, hash⟩ := keyed.known key _ found
    obtain ⟨event, member, columns⟩ := forall₂_mem (List.Forall₂.flip written) member
    refine ⟨event, member, columns.1.trans keys, (written_hash apart columns).mp ?_⟩
    exact columns.2.2.2.trans hash
  cases call with
  | create creation =>
    obtain ⟨rfl, _⟩ := Prod.mk.inj (Option.some.inj looks)
    exact event_of .runCreated (creation.change l.state).payload known
  | load => cases looks
  | run op =>
    obtain ⟨rfl, _⟩ := Prod.mk.inj (Option.some.inj looks)
    exact event_of op.command.asked.1 op.command.asked.2 known

/-- The call's key stands for it from now on: it is the key of an event the call asks for, and the
call adds nothing to the log when it is made again, whatever comes between. -/
def Stands (runId : String) (dir : RunDir) (call : Call) : Prop :=
  (∀ log s clock key compared, readEvents runId dir = .ok log → (load runId dir).2 = .ok s →
    call.looksUp runId s clock = some (key, compared) →
      ∃ event ∈ log, event.idempotencyKey = key ∧ call.Asks s event) ∧
  ∀ more clock, let later := (perform runId dir more).1
    (call.perform runId clock later).1.events = later.events

theorem stands_of_known (apart : Function.Injective Sha256.hexdigest) {runId : String} {dir : RunDir}
    {l : RunLedger runId} (tracked : Tracks runId dir (some l)) {call : Call} (known : call.Known l.state) :
    Stands runId dir call := by
  have files : dir = filesOf l := tracked.2.1
  constructor
  · intro log s clock key compared read loaded looks
    rw [files, (filesOf_holds l).readEvents] at read
    rw [files, load_files l tracked.1] at loaded
    cases read
    cases loaded
    exact known_asks apart (reached_keyed tracked.2.2) (log_written runId none l.entries l.visited l.length_visited)
      known looks
  · intro more clock
    obtain ⟨l', tracked', kept⟩ := perform_keeps tracked more
    refine used_same tracked' call clock ?_
    rintro op rfl
    exact kept op.key (by rw [show l.state.idempotency.lookup op.key = _ from known]; simp)

/-- The keys of a run, with a digest that tells all texts apart. Each key is the key of one event,
which one command asks for; a call with the key of an event adds nothing to the log, and once its
hash is known it is a conflict exactly when it asks for something else; and the key of a call that
returned stands for that call. -/
theorem keys_settle (apart : Function.Injective Sha256.hexdigest) (runId : String)
    (calls : List (Call × Clock)) :
    let dir := (perform runId .absent calls).1
    ∃ log, readEvents runId dir = .ok log ∧ (log.map Event.idempotencyKey).Nodup ∧
      (∀ event ∈ log, ∀ c d : Command, c.Asks event → d.Asks event → c = d) ∧
      (∀ event ∈ log, ∀ (call : Call) clock s compared, (load runId dir).2 = .ok s →
        call.looksUp runId s clock = some (event.idempotencyKey, compared) →
        (call.perform runId clock dir).1.events = dir.events ∧
          Answered event compared (call.Asks s event) (call.perform runId clock dir).2) ∧
      ∀ (call : Call) clock value, (call.perform runId clock dir).2 = .ok value →
        Stands runId (call.perform runId clock dir).1 call := by
  intro dir
  have start : Tracks runId .absent none := ⟨rfl, rfl⟩
  obtain ⟨ledger, tracked, _⟩ := perform_tracks start calls
  have tracked : Tracks runId dir ledger := tracked
  have later : ∀ (call : Call) clock value, (call.perform runId clock dir).2 = .ok value →
      Stands runId (call.perform runId clock dir).1 call := by
    intro call clock value returned
    obtain ⟨l, tracked', known⟩ := returned_known tracked returned
    exact stands_of_known apart tracked' known
  cases ledger with
  | none =>
    have empty : readEvents runId dir = .ok [] := by
      simp only [readEvents, show dir.events = none from tracked.1]
    exact ⟨[], empty, by simp, by simp, by simp, later⟩
  | some l =>
    have files : dir = filesOf l := tracked.2.1
    have keyed := reached_keyed tracked.2.2
    have written := log_written runId none l.entries l.visited l.length_visited
    have read := (filesOf_holds l).readEvents
    rw [← files] at read
    refine ⟨_, read, ?_, fun event _ c d => asks_determined, ?_, later⟩
    · rw [written_keys written]
      exact keyed.unique
    · intro event member call clock s compared loaded looks
      obtain ⟨entry, found, columns⟩ := forall₂_mem written member
      obtain ⟨named, recorded⟩ := keyed.recorded entry found
      rw [files, load_files l tracked.1] at loaded
      cases loaded
      cases call with
      | create creation =>
        obtain ⟨key, rfl⟩ := Prod.mk.inj (Option.some.inj looks)
        refine ⟨used_same tracked (.create creation) clock (by rintro op ⟨⟩), ?_⟩
        rw [files]
        exact creation_answered apart l columns named recorded creation clock key
      | load => cases looks
      | run op =>
        obtain ⟨key, rfl⟩ := Prod.mk.inj (Option.some.inj looks)
        have used : l.state.idempotency.lookup op.key ≠ none := by
          rw [key, columns.1, recorded]
          simp
        refine ⟨used_same tracked (.run op) clock (by rintro _ ⟨⟩; exact used), ?_⟩
        obtain ⟨l', acts, _⟩ := call_acts (filesOf_holds l) op clock
        have answered := step_answered apart runId columns named recorded op clock key
        rw [acts_step acts] at answered
        rw [files]
        exact answered

/-! One key for two operations. -/

/-- Starting a run under a key that recorded something else. -/
theorem start_conflicts {runId : String} {dir : RunDir} {l : RunLedger runId} (tracked : Tracks runId dir (some l))
    {log : List Event} (read : readEvents runId dir = .ok log)
    (answers : ∀ event ∈ log, ∀ (call : Call) clock s compared, (load runId dir).2 = .ok s →
      call.looksUp runId s clock = some (event.idempotencyKey, compared) →
      (call.perform runId clock dir).1.events = dir.events ∧
        Answered event compared (call.Asks s event) (call.perform runId clock dir).2)
    {entry : Entry} (member : entry ∈ l.entries) (other : entry.change.kind.value ≠ EventKind.runTransition.value)
    {key : String} (same : entry.key = key) (clock : Clock) :
    (Call.perform runId clock dir (.run (.start key))).1.events = dir.events ∧
      (Call.perform runId clock dir (.run (.start key))).2 = raise .idempotencyConflict
        ("idempotency key " ++ pyRepr key ++ " was used for another operation") := by
  obtain ⟨safe, files, _⟩ := tracked
  have holds := (filesOf_holds l).readEvents
  have loaded := congrArg Prod.snd (load_files l safe)
  rw [← files] at holds loaded
  have written := log_written runId none l.entries l.visited l.length_visited
  cases holds.symm.trans read
  obtain ⟨event, member, columns⟩ := forall₂_mem (List.Forall₂.flip written) member
  have keys : event.idempotencyKey = key := columns.1.trans same
  obtain ⟨unchanged, answered⟩ := answers event member (.run (.start key)) clock l.state
    (.ok (Change.runTransition l.state.state .running none none).fingerprint) loaded (by rw [keys]; rfl)
  refine ⟨unchanged, ?_⟩
  have conflict := answered.conflict _ rfl ?_
  · rw [keys] at conflict
    exact conflict
  · rintro ⟨type, _⟩
    exact other (columns.2.1.symm.trans type)

omit [Sha256] in
/-- In a new run, starting it under the key it was created with is a conflict. -/
theorem keys_settle_build :
    let _ := buildDigest
    let dir := (perform "run" .absent [(.create buildCreation, .reading 0 (by decide))]).1
    (Call.perform "run" (.reading 1 (by decide)) dir (.run (.start buildCreation.key))).1.events = dir.events ∧
      (Call.perform "run" (.reading 1 (by decide)) dir (.run (.start buildCreation.key))).2 =
        raise .idempotencyConflict
          ("idempotency key " ++ pyRepr buildCreation.key ++ " was used for another operation") := by
  let _ := buildDigest
  obtain ⟨log, read, _, _, answers, _⟩ := @keys_settle buildDigest buildDigest_injective "run"
    [(.create buildCreation, .reading 0 (by decide))]
  obtain ⟨l, tracked, _, entries⟩ := perform_founded "run" buildCreation ⟨0, by decide⟩
    (.ok ⟨0, by decide⟩) (by decide) []
  have member : ⟨.runCreated buildCreation.nodeIds buildCreation.capturedEnvironment buildCreation.capturedGit,
      buildCreation.key, ⟨0, by decide⟩⟩ ∈ l.entries := by
    rw [entries]
    exact List.mem_append_left _ (List.mem_singleton_self _)
  have other : (Change.runCreated buildCreation.nodeIds buildCreation.capturedEnvironment
    buildCreation.capturedGit).kind.value ≠ EventKind.runTransition.value := by decide
  have tracked : Tracks "run" (perform "run" .absent [(.create buildCreation, .reading 0 (by decide))]).1
    (some l) := tracked
  show _ ∧ _
  generalize (perform "run" .absent [(.create buildCreation, .reading 0 (by decide))]).1 = dir at *
  exact start_conflicts tracked read answers member other rfl (.reading 1 (by decide))

def startedOnce : List (Operation × Clock) := [(.start "go", .reading 1 DateTime.one_inDay)]

omit [Sha256] in
/-- Resuming with the key of the start is answered like the start. -/
theorem resume_repeats_start :
    let _ := Sha256.standard
    ∃ value, (Call.perform "run" (.reading 2 (by decide)) (perform "run" .absent
      ((.create buildCreation, .reading 0 (by decide)) ::
        startedOnce.map (fun step => (.run step.1, step.2)))).1 (.run (.resume "go"))).2 = .ok value := by
  intro _
  obtain ⟨l, ⟨safe, files, reached⟩, state, _⟩ := perform_founded "run" buildCreation
    ⟨0, by decide⟩ (.ok ⟨0, by decide⟩) (by decide) startedOnce
  have answered : ((Operation.resume "go").step "run" (.reading 2 (by decide)) (stepAll "run"
      (founded "run" buildCreation ⟨0, by decide⟩).state startedOnce)).2.toOption.isSome = true := by
    decide +kernel
  obtain ⟨l', acts, _⟩ := call_acts (filesOf_holds l) (.resume "go") (.reading 2 (by decide))
  rw [← state, acts_step acts] at answered
  have called : (perform "run" .absent ((.create buildCreation, .reading 0 (by decide)) ::
      startedOnce.map (fun step => (.run step.1, step.2)))).1 = filesOf l := files
  rw [called]
  cases outcome : ((Operation.resume "go").call "run" (.reading 2 (by decide)) (filesOf l)).2 with
  | error e => simp [outcome, Except.toOption] at answered
  | ok value => exact ⟨value, outcome⟩

end Onmc.DurableRuntime
