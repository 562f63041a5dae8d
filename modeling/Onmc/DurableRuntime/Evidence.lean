import Onmc.DurableRuntime.Accepted
import Onmc.HashChain

/-! Tamper evidence. What is hashed determines the event that is read, so a log is determined by
the hash of its last event; a checkpoint pins the log at its own sequence number. -/
namespace Onmc.DurableRuntime
open Json (loads dumps)

theorem caught_ok {message : String} {x : Outcome α} {a : α} : caught message x = .ok a ↔ x = .ok a := by
  cases x with
  | ok b => rfl
  | error e =>
    simp only [caught]
    split <;> simp [corrupt, raise]

theorem item_ok {raw : Json} {key : String} {value : Json} :
    item raw key = .ok value ↔ raw.get? key = some value := by
  unfold item
  cases raw.get? key with
  | none => simp [raise]
  | some v => simp

theorem typed_ok {value : Option α} {a : α} : typed value = .ok a ↔ value = some a := by
  cases value with
  | none => simp [raise]
  | some b => simp

/-- What `_event_from_dict` takes from a dict. -/
structure Reads (raw : Json) (event : Event) : Prop where
  sequence : ∃ n, (raw.get? "sequence").bind intOf = some n ∧ event.sequence = n.toNat
  eventId : (raw.get? "event_id").bind textOf = some event.eventId
  runId : (raw.get? "run_id").bind textOf = some event.runId
  eventType : (raw.get? "event_type").bind textOf = some event.eventType
  occurredAt : (raw.get? "occurred_at").map datetimeOf = some (.ok event.occurredAt)
  payload : raw.get? "payload" = some event.payload
  previousHash : (raw.get? "previous_hash").bind textOf = some event.previousHash
  idempotencyKey : (raw.get? "idempotency_key").bind textOf = some event.idempotencyKey
  operationHash : (raw.get? "operation_hash").bind textOf = some event.operationHash

theorem eventFromDict_reads {raw : Json} {event : Event} (h : eventFromDict raw = .ok event) :
    Reads raw event := by
  have h := caught_ok.mp h
  simp only [Except.bind_ok, item_ok, typed_ok] at h
  obtain ⟨v1, h1, n, hn, v2, h2, t2, ht2, v3, h3, t3, ht3, v4, h4, t4, ht4, v5, h5, t5, ht5, v6, h6,
    _, _, v7, h7, t7, ht7, v8, h8, t8, ht8, v9, h9, t9, ht9, v10, h10, t10, ht10, h⟩ := h
  cases h
  exact {
    sequence := ⟨n, by simp [h1, hn], rfl⟩
    eventId := by simp [h2, ht2]
    runId := by simp [h3, ht3]
    eventType := by simp [h4, ht4]
    occurredAt := by simp [h5, ht5]
    payload := h6
    previousHash := by simp [h7, ht7]
    idempotencyKey := by simp [h9, ht9]
    operationHash := by simp [h10, ht10] }

theorem get?_without {raw : Json} {key other : String} (h : key ≠ other) :
    (raw.without other).get? key = raw.get? key := by
  cases raw with
  | obj fields =>
    simp only [Json.without, Json.get?]
    induction fields with
    | nil => rfl
    | cons field fields ih =>
      obtain ⟨k, v⟩ := field
      by_cases hk : k = other
      · subst hk
        simpa [List.lookup_cons, beq_eq_false_iff_ne.mpr h] using ih
      · by_cases hj : key = k
        · simp [hk, hj]
        · simpa [List.lookup_cons, hk, beq_eq_false_iff_ne.mpr hj] using ih
  | _ => rfl

/-- What of a dict its hash is taken of. -/
def hashedBody (raw : Json) : Json := (raw.without "hash").canonical

theorem hashedBody_get? {raw : Json} {key : String} (h : key ≠ "hash") :
    (hashedBody raw).get? key = (raw.get? key).map Json.canonical := by
  rw [hashedBody, Json.get?_canonical, get?_without h]

theorem bind_canonical {read : Json → Option α} (same : ∀ v : Json, read v.canonical = read v)
    (v : Option Json) : (v.map Json.canonical).bind read = v.bind read := by
  cases v with
  | none => rfl
  | some v => exact same v

/-- Dicts with one body and one hash are read as one event. -/
theorem reads_determined {raw raw' : Json} {event event' : Event} (h : Reads raw event)
    (h' : Reads raw' event') (body : hashedBody raw = hashedBody raw') (hash : event.hash = event'.hash) :
    event.sorted = event'.sorted := by
  have fields : ∀ key, key ≠ "hash" →
      (raw.get? key).map Json.canonical = (raw'.get? key).map Json.canonical := by
    intro key hk
    rw [← hashedBody_get? hk, ← hashedBody_get? hk, body]
  have texts : ∀ key, key ≠ "hash" → (raw.get? key).bind textOf = (raw'.get? key).bind textOf := by
    intro key hk
    rw [← bind_canonical textOf_canonical, fields key hk, bind_canonical textOf_canonical]
  have numbers : (raw.get? "sequence").bind intOf = (raw'.get? "sequence").bind intOf := by
    rw [← bind_canonical intOf_canonical, fields "sequence" (by decide), bind_canonical intOf_canonical]
  have text : ∀ {key a b}, key ≠ "hash" → (raw.get? key).bind textOf = some a →
      (raw'.get? key).bind textOf = some b → a = b := by
    intro key a b hk ha hb
    exact Option.some.inj (ha.symm.trans ((texts key hk).trans hb))
  obtain ⟨n, hn, sequence⟩ := h.sequence
  obtain ⟨n', hn', sequence'⟩ := h'.sequence
  have number : n = n' := Option.some.inj (hn.symm.trans (numbers.trans hn'))
  have occurredAt : event.occurredAt = event'.occurredAt := by
    have times := h.occurredAt
    have times' := h'.occurredAt
    have same := fields "occurred_at" (by decide)
    cases hv : raw.get? "occurred_at" with
    | none => simp [hv] at times
    | some v =>
      cases hv' : raw'.get? "occurred_at" with
      | none => simp [hv'] at times'
      | some v' =>
        simp only [hv, hv', Option.map_some, Option.some.injEq] at times times' same
        rw [← datetimeOf_canonical, same, datetimeOf_canonical, times'] at times
        exact (Except.ok.inj times).symm
  have payload : event.payload.canonical = event'.payload.canonical := by
    have same := fields "payload" (by decide)
    rw [h.payload, h'.payload] at same
    exact Option.some.inj same
  have eventId := text (by decide) h.eventId h'.eventId
  have runId := text (by decide) h.runId h'.runId
  have eventType := text (by decide) h.eventType h'.eventType
  have previousHash := text (by decide) h.previousHash h'.previousHash
  have idempotencyKey := text (by decide) h.idempotencyKey h'.idempotencyKey
  have operationHash := text (by decide) h.operationHash h'.operationHash
  cases event
  cases event'
  simp only at *
  simp only [Event.sorted, Event.mk.injEq]
  exact ⟨by rw [sequence, sequence', number], eventId, runId, eventType, occurredAt, payload,
    previousHash, hash, idempotencyKey, operationHash⟩

def bodyPlace (body : Json) : Nat := (((body.get? "sequence").bind intOf).getD 0).toNat

def bodyPrevious (body : Json) : String := ((body.get? "previous_hash").bind textOf).getD ""

theorem reads_place {raw : Json} {event : Event} (h : Reads raw event) :
    bodyPlace (hashedBody raw) = event.sequence ∧ bodyPrevious (hashedBody raw) = event.previousHash := by
  obtain ⟨n, hn, sequence⟩ := h.sequence
  constructor
  · rw [bodyPlace, hashedBody_get? (by decide), bind_canonical intOf_canonical, hn, sequence]
    rfl
  · rw [bodyPrevious, hashedBody_get? (by decide), bind_canonical textOf_canonical, h.previousHash]
    rfl

variable [Sha256]

/-- The event is read from a dict with this body, and carries its hash. -/
def Sealed (body : Json) (event : Event) : Prop :=
  ∃ raw, Reads raw event ∧ hashedBody raw = body ∧ event.hash = hashOf body

theorem sealed_determined {body : Json} {event event' : Event} (h : Sealed body event)
    (h' : Sealed body event') : event.sorted = event'.sorted := by
  obtain ⟨raw, reads, rfl, hash⟩ := h
  obtain ⟨raw', reads', same, hash'⟩ := h'
  exact reads_determined reads reads' same.symm (hash.trans hash'.symm)

theorem readLine_sealed {runId : String} {index : Nat} {previousHash line : String} {event : Event}
    (h : readLine runId index previousHash line = .ok event) :
    ∃ body, Sealed body event ∧ body.canonical = body ∧ bodyPlace body = index ∧
      bodyPrevious body = previousHash := by
  have position := readLine_ok h
  obtain ⟨raw, _, h⟩ := Except.bind_ok.mp h
  obtain ⟨_, _, h⟩ := Except.bind_ok.mp h
  obtain ⟨read, hread, h⟩ := Except.bind_ok.mp h
  obtain ⟨_, _, h⟩ := Except.bind_ok.mp h
  obtain ⟨_, _, h⟩ := Except.bind_ok.mp h
  obtain ⟨_, hash, h⟩ := Except.bind_ok.mp h
  cases h
  have reads := eventFromDict_reads hread
  have place := reads_place reads
  have hash : event.hash = hashOf (raw.without "hash") := not_not.mp (raiseIf_ok.mp hash)
  refine ⟨hashedBody raw, ⟨raw, reads, rfl, ?_⟩, Json.canonical_canonical _, ?_, ?_⟩
  · rw [hashedBody, hashOf_canonical, hash]
  · rw [place.1, position.1]
  · rw [place.2, position.2]

/-- A log that is read is a hash chain of bodies. -/
theorem readLines_linked {runId : String} {index : Nat} {previousHash : String} {lines : List String}
    {log : List Event} (h : readLines runId index previousHash lines = .ok log) :
    ∃ bodies, List.Forall₂ Sealed bodies log ∧ (∀ body ∈ bodies, body.canonical = body) ∧
      HashChain.Linked hashOf bodyPlace bodyPrevious index previousHash bodies := by
  induction lines generalizing index previousHash log with
  | nil =>
    cases h
    exact ⟨[], .nil, by simp, trivial⟩
  | cons line lines ih =>
    obtain ⟨event, he, h⟩ := Except.bind_ok.mp h
    obtain ⟨rest, hr, h⟩ := Except.bind_ok.mp h
    cases h
    obtain ⟨body, sealed, sorted, place, previous⟩ := readLine_sealed he
    obtain ⟨bodies, all, sortedAll, linked⟩ := ih hr
    obtain ⟨raw, reads, same, hash⟩ := sealed
    rw [hash] at linked
    refine ⟨body :: bodies, .cons ⟨raw, reads, same, hash⟩ all, ?_, place, previous, linked⟩
    intro b hb
    rcases List.mem_cons.mp hb with rfl | hb
    · exact sorted
    · exact sortedAll b hb

theorem readEvents_linked {runId : String} {dir : RunDir} {log : List Event}
    (h : readEvents runId dir = .ok log) :
    ∃ bodies, List.Forall₂ Sealed bodies log ∧ (∀ body ∈ bodies, body.canonical = body) ∧
      HashChain.Linked hashOf bodyPlace bodyPrevious 1 zeroHash bodies := by
  unfold readEvents at h
  split at h
  · cases h
    exact ⟨[], .nil, by simp, trivial⟩
  · exact readLines_linked h

theorem sealed_hash {body : Json} {event : Event} (h : Sealed body event) : event.hash = hashOf body := by
  obtain ⟨_, _, _, hash⟩ := h
  exact hash

theorem forall₂_last {bodies : List Json} {log : List Event} (h : List.Forall₂ Sealed bodies log) :
    bodies.getLast?.map hashOf = log.getLast?.map Event.hash := by
  induction h with
  | nil => rfl
  | @cons body event bodies log sealed rest ih =>
    cases rest with
    | nil => simp [sealed_hash sealed]
    | cons second rest => simpa [List.getLast?_cons_cons] using ih

theorem forall₂_determined {bodies : List Json} {log log' : List Event}
    (h : List.Forall₂ Sealed bodies log) (h' : List.Forall₂ Sealed bodies log') :
    log.map Event.sorted = log'.map Event.sorted := by
  induction h generalizing log' with
  | nil =>
    cases h'
    rfl
  | cons sealed rest ih =>
    cases h' with
    | cons sealed' rest' =>
      simp only [List.map_cons, sealed_determined sealed sealed', ih rest']

/-- With a digest that tells all texts apart, the hash of the last event determines the log. -/
theorem log_determined (apart : Function.Injective Sha256.hexdigest) {runId : String} {dir dir' : RunDir}
    {log log' : List Event} (h : readEvents runId dir = .ok log) (h' : readEvents runId dir' = .ok log')
    (started : log ≠ []) (last : log.getLast?.map Event.hash = log'.getLast?.map Event.hash) :
    log.map Event.sorted = log'.map Event.sorted := by
  obtain ⟨bodies, all, sorted, linked⟩ := readEvents_linked h
  obtain ⟨bodies', all', sorted', linked'⟩ := readEvents_linked h'
  have started' : log' ≠ [] := by
    rintro rfl
    rw [List.getLast?_eq_some_getLast started] at last
    cases last
  have nonempty : bodies ≠ [] := by
    rintro rfl
    cases all
    exact started rfl
  have nonempty' : bodies' ≠ [] := by
    rintro rfl
    cases all'
    exact started' rfl
  have digests : bodies.getLast?.map hashOf = bodies'.getLast?.map hashOf := by
    rw [forall₂_last all, forall₂_last all', last]
  have same : bodies = bodies' := by
    refine HashChain.determined ?_ linked linked' nonempty nonempty' digests
    intro b hb c hc hash
    have texts := apart hash
    have forms := Json.canonical_of_dumps_eq texts
    rw [sorted b hb, sorted' c hc] at forms
    exact forms
  subst same
  exact forall₂_determined all all'

/-! The checkpoint. -/

omit [Sha256] in
theorem numeric_get? (v : Json) (key : String) : v.numeric.get? key = (v.get? key).map Json.numeric := by
  cases v with
  | obj fields =>
    simp only [Json.numeric, Json.get?]
    induction fields with
    | nil => simp only [Json.numericFields, List.lookup_nil, Option.map_none]
    | cons field fields ih =>
      obtain ⟨k, v⟩ := field
      simp only [Json.numericFields, List.lookup_cons]
      split
      · rfl
      · exact ih
  | num n =>
    cases n with
    | float d =>
      simp only [Json.numeric]
      split <;> rfl
    | _ => simp [Json.numeric, Json.get?]
  | _ => simp [Json.numeric, Json.get?]

omit [Sha256] in
/-- Values that compare equal have the same text under each key. -/
theorem same_text {v w : Json} (h : Json.same v w = true) {key text : String}
    (found : w.get? key = some (.str text)) : v.get? key = some (.str text) := by
  have forms := Json.canonical_of_dumps_eq (of_decide_eq_true h)
  have fields := congrArg (fun u => u.get? key) forms
  simp only [Json.get?_canonical, numeric_get?, found, Option.map_some, Json.numeric,
    Json.canonical_str] at fields
  obtain ⟨u, hu, form⟩ := Option.map_eq_some_iff.mp fields
  obtain ⟨x, hx, rfl⟩ := Option.map_eq_some_iff.mp hu
  rw [hx]
  cases x with
  | str t =>
    simp only [Json.numeric, Json.canonical_str] at form
    rw [form]
  | num n =>
    cases n with
    | float d =>
      simp only [Json.numeric] at form
      split at form <;> simp at form
    | _ => simp [Json.numeric] at form
  | _ => simp [Json.numeric] at form

/-- The log reaches the sequence number of the checkpoint, and the event there reproduces the
snapshot and the hash the checkpoint holds. -/
def Pinned (text : String) (log : List Event) : Prop :=
  ∃ document stored snapshots expected event, ∃ n : Nat, readCheckpoint text = .ok document ∧
    document.get? "snapshot" = some stored ∧ (stored.get? "last_sequence").bind int? = some (n : Int) ∧
    1 ≤ n ∧ n ≤ log.length ∧ EventLog.states apply none log = .ok snapshots ∧
    snapshots[n - 1]? = some expected ∧ Json.same stored (snapshotToDict expected) = true ∧
    log[n - 1]? = some event ∧ stored.get? "last_hash" = some (.str event.hash)

theorem readCheckpoint_snapshot {text : String} {document : Json} (h : readCheckpoint text = .ok document) :
    ∃ stored, document.get? "snapshot" = some stored := by
  obtain ⟨read, _, h⟩ := Except.bind_ok.mp h
  obtain ⟨_, _, h⟩ := Except.bind_ok.mp h
  obtain ⟨_, _, h⟩ := Except.bind_ok.mp h
  obtain ⟨_, dict, h⟩ := Except.bind_ok.mp h
  cases h
  have dict := not_not.mp (raiseIf_ok.mp dict)
  obtain ⟨stored, found, _⟩ := Option.map_eq_some_iff.mp dict
  exact ⟨stored, found⟩

theorem checkedSequence_ok {snapshots : List RunSnapshot} {text : String} {n : Nat}
    (h : checkedSequence snapshots text = .ok n) :
    ∃ document stored expected, readCheckpoint text = .ok document ∧
      document.get? "snapshot" = some stored ∧ (stored.get? "last_sequence").bind int? = some (n : Int) ∧
      1 ≤ n ∧ n ≤ snapshots.length ∧ snapshots[n - 1]? = some expected ∧
      Json.same stored (snapshotToDict expected) = true := by
  obtain ⟨document, read, h⟩ := Except.bind_ok.mp h
  obtain ⟨stored, found⟩ := readCheckpoint_snapshot read
  simp only [found, Option.getD_some] at h
  split at h
  · cases h
  · rename_i sequence hseq
    obtain ⟨_, range, h⟩ := Except.bind_ok.mp h
    have range := raiseIf_ok.mp range
    split at h
    · cases h
    · rename_i expected hexp
      obtain ⟨_, agrees, h⟩ := Except.bind_ok.mp h
      have agrees := raiseIf_ok.mp agrees
      cases h
      have whole : sequence = ((sequence.toNat : Nat) : Int) := by omega
      refine ⟨document, stored, expected, read, found, ?_, by omega, by omega, hexp, by simpa using agrees⟩
      rw [hseq, ← whole]

theorem accepts_pinned {runId : String} {dir : RunDir} {log : List Event} {snapshots : List RunSnapshot}
    {s : RunSnapshot} (h : Accepts runId dir log snapshots s) {text : String}
    (present : dir.checkpoint = some text) : Pinned text log := by
  obtain ⟨n, checked⟩ := h.checkpoint text present
  obtain ⟨document, stored, expected, read, found, sequence, low, high, at_place, agrees⟩ :=
    checkedSequence_ok checked
  have length := h.length
  have event : log[n - 1]? = some (log.get ⟨n - 1, by omega⟩) := List.getElem?_eq_getElem _
  have position := states_position h.replays event at_place
  refine ⟨document, stored, snapshots, expected, _, n, read, found, sequence, low, by omega, h.replays,
    at_place, agrees, event, ?_⟩
  apply same_text agrees
  rw [← position.2]
  rfl

theorem pinned_reaches {s : RunSnapshot} {log : List Event} (h : Pinned (checkpointText s) log) :
    s.lastSequence ≤ log.length := by
  obtain ⟨document, stored, snapshots, expected, event, n, read, found, sequence, _, reaches, _⟩ := h
  rw [readCheckpoint_text] at read
  cases read
  rw [stored_snapshot] at found
  cases found
  rw [Json.get?_canonical] at sequence
  have number : s.lastSequence = n := by
    simpa [snapshotToDict, Json.get?, List.lookup_cons, int?] using sequence
  omega

theorem replace_checkpoint {runId : String} (l : RunLedger runId) (text : String) :
    { filesOf l with checkpoint := some text }.checkpoint = some text ∧
      readEvents runId { filesOf l with checkpoint := some text } =
        .ok ((logEvents runId none l.entries l.visited).map Event.sorted) :=
  ⟨rfl, (filesOf_holds l).readEvents⟩

/-! A run of one node, with SHA-256 on the text of its event. -/

def buildEventText : String :=
  let _ : Sha256 := ⟨Sha256.sha256On []⟩
  dumps (.obj (eventBody "run" none (.runCreated buildCreation.nodeIds buildCreation.capturedEnvironment
    buildCreation.capturedGit) buildCreation.key ⟨0, by decide⟩))

@[reducible] def buildDigest : Sha256 := ⟨Sha256.sha256On [buildEventText]⟩

omit [Sha256] in
theorem buildDigest_injective : Function.Injective buildDigest.hexdigest := by
  refine Sha256.sha256On_injective ?_
  intro t ht u hu _
  rw [List.mem_singleton.mp ht, List.mem_singleton.mp hu]

end Onmc.DurableRuntime
