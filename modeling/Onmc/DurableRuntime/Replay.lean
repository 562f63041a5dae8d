import Onmc.DurableRuntime.Ledger
import Onmc.DurableRuntime.Lines

/-! Replay from disk. The log's lines read back as the events that were appended, up to the
order of the keys in their payloads, which applying an event does not look at. -/
namespace Onmc.DurableRuntime
open Json (dumps loads)

/-! Readers see a value and its key-sorted form alike. -/

theorem item_canonical (v : Json) (key : String) :
    item v.canonical key = (item v key).map Json.canonical := by
  simp only [item, Json.get?_canonical]
  cases v.get? key <;> rfl

theorem map_bind_outcome (f : α → β) (x : Outcome α) (g : β → Outcome γ) :
    (x.map f >>= g) = x >>= fun a => g (f a) := by
  cases x <;> rfl

@[simp] theorem str?_canonical (v : Json) : str? v.canonical = str? v := by
  cases v <;> simp [str?]

@[simp] theorem bool?_canonical (v : Json) : bool? v.canonical = bool? v := by
  cases v <;> simp [bool?]

@[simp] theorem int?_canonical (v : Json) : int? v.canonical = int? v := by
  cases v <;> simp [int?]

@[simp] theorem num?_canonical (v : Json) : num? v.canonical = num? v := by
  cases v <;> simp [num?]

@[simp] theorem intOf_canonical (v : Json) : intOf v.canonical = intOf v := by
  cases v <;> simp [intOf]

@[simp] theorem textOf_canonical (v : Json) : textOf v.canonical = textOf v := by
  cases v <;> simp [textOf]

@[simp] theorem isDict_canonical (v : Json) : isDict v.canonical = isDict v := by
  cases v <;> simp [isDict]

@[simp] theorem datetimeOf_canonical (v : Json) : datetimeOf v.canonical = datetimeOf v := by
  cases v <;> simp [datetimeOf]

@[simp] theorem strs?_canonical (v : Json) : strs? v.canonical = strs? v := by
  cases v with
  | arr items =>
    simp only [Json.canonical_arr, strs?, Json.canonicalItems_eq_map]
    induction items with
    | nil => rfl
    | cons item items ih => simp [List.mapM_cons, ih]
  | _ => simp [strs?]

@[simp] theorem nullable_canonical (read : Json → Option α) (same : ∀ v : Json, read v.canonical = read v)
    (v : Json) : nullable read v.canonical = nullable read v := by
  cases v with
  | null => simp [nullable]
  | bool b => simp [nullable]
  | num n => simp [nullable]
  | str s => simp [nullable]
  | arr items =>
    have h := same (.arr items)
    simp only [Json.canonical_arr] at h
    simp [nullable, h]
  | obj fields =>
    have h := same (.obj fields)
    simp only [Json.canonical_obj] at h
    simp [nullable, h]

@[simp] theorem member_canonical (ofValue? : String → Option α) (enum : String) (v : Json) :
    member ofValue? enum v.canonical = member ofValue? enum v := by
  simp [member]

@[simp] theorem notBeforeOf_canonical (v : Json) : notBeforeOf v.canonical = notBeforeOf v := by
  cases v with
  | arr items => simp [notBeforeOf, datetimeOf]
  | obj fields => simp [notBeforeOf, datetimeOf]
  | _ => simp

@[simp] theorem approverOf_canonical (v : Json) : approverOf v.canonical = approverOf v := by
  simp only [approverOf, Json.get?_canonical]
  cases v.get? "approved_by" with
  | none => rfl
  | some value => cases value <;> simp

theorem all_insertField (p : String → Bool) (k : String) (v : Json) (fs : List (String × Json)) :
    (Json.insertField k v fs).all (fun field => p field.1) = (p k && fs.all (fun field => p field.1)) := by
  induction fs with
  | nil => simp [Json.insertField]
  | cons f fs ih =>
    simp only [Json.insertField]
    split
    · simp only [List.all_cons]
    · split
      · rename_i same
        simp [same]
      · simp only [List.all_cons, ih]
        exact Bool.and_left_comm ..

@[simp] theorem onlyFields_canonical (names : List String) (v : Json) :
    onlyFields names v.canonical = onlyFields names v := by
  cases v with
  | obj fields =>
    simp only [Json.canonical_obj, onlyFields]
    have fields : (Json.canonicalFields fields).all (fun field => decide (field.1 ∈ names)) =
        fields.all (fun field => decide (field.1 ∈ names)) := by
      induction fields with
      | nil => simp only [Json.canonicalFields]
      | cons field fields ih =>
        obtain ⟨key, value⟩ := field
        rw [Json.canonicalFields_cons, all_insertField (fun key => decide (key ∈ names)), ih,
          List.all_cons]
    simp only [fields]
  | _ => simp [onlyFields]

@[simp] theorem environmentFromDict_canonical (v : Json) :
    environmentFromDict v.canonical = environmentFromDict v := by
  simp [environmentFromDict, item_canonical, map_bind_outcome]

@[simp] theorem gitFromDict_canonical (v : Json) : gitFromDict v.canonical = gitFromDict v := by
  simp [gitFromDict, item_canonical, map_bind_outcome]

def Event.sorted (event : Event) : Event := { event with payload := event.payload.canonical }

/-- Applying an event does not depend on the order of the keys in its payload. -/
theorem apply_canonical (snapshot : Option RunSnapshot) (event : Event) :
    apply snapshot event.sorted = apply snapshot event := by
  cases snapshot with
  | none =>
    simp only [apply, applyFirst, Event.sorted, item_canonical, map_bind_outcome, strs?_canonical,
      environmentFromDict_canonical, gitFromDict_canonical]
    rfl
  | some s =>
    have payload : applyPayload ⟨s.state, s.nodes, s.approvals⟩ event.sorted =
        applyPayload ⟨s.state, s.nodes, s.approvals⟩ event := by
      simp [Event.sorted, applyPayload, applyRunTransition, applyNodeTransition, applyLeaseAcquired,
        applyLeaseHeartbeat, applyLeaseReleased, applyLeasesExpired, applyRetryRecorded,
        item_canonical, map_bind_outcome]
    simp only [apply, applyNext, payload]
    rfl

theorem bind_map_outcome (f : β → γ) (x : Outcome α) (g : α → Outcome β) :
    (x >>= g).map f = x >>= fun a => (g a).map f := by
  cases x <;> rfl

theorem caught_map (message : String) (f : α → β) (x : Outcome α) :
    (caught message x).map f = caught message (x.map f) := by
  cases x with
  | ok a => rfl
  | error e =>
    simp only [caught, Except.map]
    by_cases h : e.kind = .keyError ∨ e.kind = .typeError ∨ e.kind = .valueError
    · simp only [if_pos h]
      rfl
    · simp only [if_neg h]

variable [Sha256]

/-! The line of an entry. -/

omit [Sha256] in
@[simp] theorem isDict_payload (change : Change) : isDict change.payload = true := by
  cases change <;> rfl

/-- The live event: the dict that is about to be written, read as an event. -/
theorem eventFromDict_raw (runId : String) (snapshot : Option RunSnapshot) (entry : Entry) :
    eventFromDict (rawEvent runId snapshot entry.change entry.key entry.occurredAt) =
      .ok (entry.event runId snapshot) := by
  simp only [eventFromDict, rawEvent, eventBody, List.cons_append, List.nil_append, item_obj,
    List.lookup_cons, String.reduceBEq, beq_self_eq_true, Except.ok_bind, typed_some, intOf_int, textOf_str,
    datetimeOf_iso, isDict_payload, Bool.true_eq_false, not_false_eq_true, raiseIf_false, caught, pure,
    Except.pure, Int.toNat_natCast, Entry.event]

omit [Sha256] in
/-- Reading the key-sorted dict yields the same event with a key-sorted payload. -/
theorem eventFromDict_canonical (raw : Json) :
    eventFromDict raw.canonical = (eventFromDict raw).map Event.sorted := by
  simp only [eventFromDict, item_canonical, map_bind_outcome, intOf_canonical, textOf_canonical,
    datetimeOf_canonical, isDict_canonical, caught_map, bind_map_outcome]
  rfl

theorem rawEvent_without_hash (runId : String) (snapshot : Option RunSnapshot) (entry : Entry) :
    (rawEvent runId snapshot entry.change entry.key entry.occurredAt).without "hash" =
      .obj (eventBody runId snapshot entry.change entry.key entry.occurredAt) := by
  simp [rawEvent, eventBody, Json.without]

theorem hashOf_canonical (v : Json) : hashOf v.canonical = hashOf v := by
  simp only [hashOf, Json.dumps_canonical]

def Entry.line (runId : String) (snapshot : Option RunSnapshot) (entry : Entry) : String :=
  dumps (rawEvent runId snapshot entry.change entry.key entry.occurredAt)

/-- A line written after `snapshot` passes every check of the reader that stands there. -/
theorem readLine_line (runId : String) (snapshot : Option RunSnapshot) (entry : Entry) :
    readLine runId (nextSequence snapshot) (previousHashOf snapshot) (entry.line runId snapshot) =
      .ok (entry.event runId snapshot).sorted := by
  have read := eventFromDict_canonical (rawEvent runId snapshot entry.change entry.key entry.occurredAt)
  have dict : isDict (rawEvent runId snapshot entry.change entry.key entry.occurredAt).canonical = true := by
    simp only [isDict_canonical]
    rfl
  have hash : hashOf ((rawEvent runId snapshot entry.change entry.key entry.occurredAt).canonical.without
      "hash") = (entry.event runId snapshot).hash := by
    rw [← Json.canonical_without, hashOf_canonical, rawEvent_without_hash]
    rfl
  have loaded := Json.loads_dumps (rawEvent runId snapshot entry.change entry.key entry.occurredAt)
  rw [eventFromDict_raw] at read
  unfold readLine Entry.line
  rw [loaded]
  generalize (rawEvent runId snapshot entry.change entry.key entry.occurredAt).canonical = raw at *
  simp only [orCorrupt_some, Except.ok_bind, dict, read, hash, Except.map]
  simp [Event.sorted, Entry.event, pure, Except.pure]

/-! The whole log. -/

def logLines (runId : String) : Option RunSnapshot → List Entry → List RunSnapshot → List String
  | snapshot, entry :: entries, next :: visited =>
    entry.line runId snapshot :: logLines runId (some next) entries visited
  | _, _, _ => []

def logEvents (runId : String) : Option RunSnapshot → List Entry → List RunSnapshot → List Event
  | snapshot, entry :: entries, next :: visited =>
    entry.event runId snapshot :: logEvents runId (some next) entries visited
  | _, _, _ => []

def logText (lines : List String) : String :=
  String.ofList (lines.flatMap (fun line => line.toList ++ ['\n']))

omit [Sha256] in
theorem logText_concat (lines : List String) (line : String) :
    logText (lines ++ [line]) = logText lines ++ line ++ "\n" := by
  apply String.toList_inj.mp
  simp [logText]

omit [Sha256] in
/-- Splitting the log gives back its lines. -/
theorem splitLines_logText (lines : List String) (h : ∀ line ∈ lines, Json.OneLine line.toList) :
    splitLines (logText lines) = lines := by
  unfold splitLines logText
  rw [String.toList_ofList]
  induction lines with
  | nil => simp [splitLinesFrom]
  | cons line lines ih =>
    have tail := ih (fun l hl => h l (List.mem_cons_of_mem _ hl))
    have head := splitLinesFrom_line (h line List.mem_cons_self) []
      (lines.flatMap (fun line => line.toList ++ ['\n']))
    simp only [List.flatMap_cons, List.append_assoc, List.cons_append, List.nil_append, head, tail,
      String.ofList_toList]

theorem logLines_oneLine (runId : String) (snapshot : Option RunSnapshot) (entries : List Entry)
    (visited : List RunSnapshot) :
    ∀ line ∈ logLines runId snapshot entries visited, Json.OneLine line.toList := by
  induction entries generalizing snapshot visited with
  | nil => simp [logLines]
  | cons entry entries ih =>
    cases visited with
    | nil => simp [logLines]
    | cons next visited =>
      intro line hline
      rcases List.mem_cons.mp hline with rfl | hline
      · exact Json.dumps_oneLine _
      · exact ih (some next) visited line hline

/-- Where a snapshot stands in the log: what the next line will be checked against. -/
theorem extend_position {runId : String} {snapshot : Option RunSnapshot} {entry : Entry}
    {next : RunSnapshot} (h : extend runId snapshot entry = .ok next) :
    next.lastSequence = nextSequence snapshot ∧ next.lastHash = (entry.event runId snapshot).hash := by
  cases snapshot with
  | none =>
    obtain ⟨_, _, h⟩ := Except.bind_ok.mp h
    obtain ⟨_, _, h⟩ := Except.bind_ok.mp h
    cases h
    exact ⟨rfl, rfl⟩
  | some s =>
    obtain ⟨_, _, h⟩ := Except.bind_ok.mp h
    obtain ⟨_, _, h⟩ := Except.bind_ok.mp h
    obtain ⟨_, _, h⟩ := Except.bind_ok.mp h
    cases h
    exact ⟨rfl, rfl⟩

theorem readLines_log {runId : String} {snapshot : Option RunSnapshot} {entries : List Entry}
    {visited : List RunSnapshot} (h : EventLog.states (extend runId) snapshot entries = .ok visited) :
    readLines runId (nextSequence snapshot) (previousHashOf snapshot)
      (logLines runId snapshot entries visited) =
      .ok ((logEvents runId snapshot entries visited).map Event.sorted) := by
  induction entries generalizing snapshot visited with
  | nil => rfl
  | cons entry entries ih =>
    obtain ⟨next, rest, hn, hr, rfl⟩ := EventLog.states_cons.mp h
    obtain ⟨hseq, hhash⟩ := extend_position hn
    have tail := ih hr
    have index : nextSequence (some next) = nextSequence snapshot + 1 := by
      rw [nextSequence_some, hseq]
    have chain : previousHashOf (some next) = (entry.event runId snapshot).sorted.hash := hhash
    rw [index, chain] at tail
    simp only [logLines, readLines, readLine_line, Except.ok_bind, tail, logEvents, List.map_cons]
    rfl

/-- Replaying the events as they are read goes through the snapshots the live store went through. -/
theorem states_log {runId : String} {snapshot : Option RunSnapshot} {entries : List Entry}
    {visited : List RunSnapshot} (h : EventLog.states (extend runId) snapshot entries = .ok visited) :
    EventLog.states apply snapshot ((logEvents runId snapshot entries visited).map Event.sorted) =
      .ok visited := by
  induction entries generalizing snapshot visited with
  | nil =>
    cases h
    rfl
  | cons entry entries ih =>
    obtain ⟨next, rest, hn, hr, rfl⟩ := EventLog.states_cons.mp h
    have head : apply snapshot (entry.event runId snapshot).sorted = .ok next := by
      rw [apply_canonical]
      exact hn
    exact EventLog.states_cons.mpr ⟨next, rest, head, ih hr, rfl⟩

theorem logLines_concat (runId : String) (snapshot : Option RunSnapshot) (entries : List Entry)
    (visited : List RunSnapshot) (len : visited.length = entries.length) (entry : Entry)
    (next : RunSnapshot) :
    logLines runId snapshot (entries ++ [entry]) (visited ++ [next]) =
      logLines runId snapshot entries visited ++
        [entry.line runId (EventLog.final snapshot visited)] := by
  induction entries generalizing snapshot visited with
  | nil =>
    cases visited with
    | nil => rfl
    | cons s visited => cases len
  | cons first entries ih =>
    cases visited with
    | nil => cases len
    | cons s visited =>
      have tail := ih (some s) visited (Nat.succ.inj len)
      simp only [List.cons_append, logLines, EventLog.final_cons, tail]

/-! The checkpoint. -/

def checkpointDocument (s : RunSnapshot) : Json :=
  .obj (checkpointBody s ++ [("checkpoint_hash", .str (hashOf (.obj (checkpointBody s))))])

def checkpointText (s : RunSnapshot) : String := dumps (checkpointDocument s) ++ "\n"

theorem writeCheckpoint_eq (s : RunSnapshot) (dir : RunDir) :
    writeCheckpoint s dir = { dir with checkpoint := some (checkpointText s) } := rfl

theorem readCheckpoint_text (s : RunSnapshot) :
    readCheckpoint (checkpointText s) = .ok (checkpointDocument s).canonical := by
  have body : (checkpointDocument s).without "checkpoint_hash" = .obj (checkpointBody s) := by
    simp [checkpointDocument, checkpointBody, Json.without]
  have hash : hashOf ((checkpointDocument s).canonical.without "checkpoint_hash") =
      hashOf (.obj (checkpointBody s)) := by
    rw [← Json.canonical_without, hashOf_canonical, body]
  have dict : isDict (snapshotToDict s) = true := rfl
  have loaded := Json.loads_dumps_line (checkpointDocument s)
  simp only [readCheckpoint, checkpointText, loaded, orCorrupt_some, Except.ok_bind, hash, Json.get?_canonical]
  simp [checkpointDocument, checkpointBody, Json.get?, List.lookup_cons, dict, int?, pure, Except.pure]

theorem stored_snapshot (s : RunSnapshot) :
    (checkpointDocument s).canonical.get? "snapshot" = some (snapshotToDict s).canonical := by
  rw [Json.get?_canonical]
  simp [checkpointDocument, checkpointBody, Json.get?, List.lookup_cons]

/-- The checkpoint of any snapshot of the log is accepted. -/
theorem checkedSequence_text {visited : List RunSnapshot} {i : Nat} {s : RunSnapshot}
    (hi : visited[i]? = some s) (hseq : s.lastSequence = i + 1) :
    checkedSequence visited (checkpointText s) = .ok (i + 1) := by
  have bound : i < visited.length := (List.getElem?_eq_some_iff.mp hi).1
  have sequence : ((snapshotToDict s).canonical.get? "last_sequence").bind int? = some ((i : Int) + 1) := by
    rw [Json.get?_canonical]
    simp [snapshotToDict, Json.get?, List.lookup_cons, int?, hseq]
  have low : ¬ ((i : Int) + 1 < 1 ∨ (visited.length : Int) < (i : Int) + 1) := by omega
  have index : ((i : Int) + 1).toNat - 1 = i := by omega
  have whole : ((i : Int) + 1).toNat = i + 1 := by omega
  simp only [checkedSequence, readCheckpoint_text, Except.ok_bind, stored_snapshot, Option.getD_some, sequence,
    corruptIf_false _ _ low, index, hi, Json.same_canonical]
  simp [whole, pure, Except.pure]

/-! The files of a run hold a ledger. -/

/-- The log is the ledger's, and the checkpoint, when present, is one of some point of it: a
crash between the two writes of an append leaves it behind. -/
structure Holds (runId : String) (dir : RunDir) (l : RunLedger runId) : Prop where
  created : dir.created = true
  log : dir.events = some (logText (logLines runId none l.entries l.visited))
  checkpoint : ∀ text, dir.checkpoint = some text →
    ∃ (i : Nat) (s : RunSnapshot), l.visited[i]? = some s ∧ text = checkpointText s

/-- The files the store leaves after an operation. -/
def filesOf {runId : String} (l : RunLedger runId) : RunDir where
  created := true
  events := some (logText (logLines runId none l.entries l.visited))
  checkpoint := some (checkpointText l.state)

theorem filesOf_holds {runId : String} (l : RunLedger runId) : Holds runId (filesOf l) l where
  created := rfl
  log := rfl
  checkpoint := by
    rintro text ⟨⟩
    exact ⟨l.visited.length - 1, l.state, List.getLast?_eq_getElem? ▸ l.getLast?_visited, rfl⟩

theorem visited_sequence {runId : String} {snapshot : Option RunSnapshot} {entries : List Entry}
    {visited : List RunSnapshot} (h : EventLog.states (extend runId) snapshot entries = .ok visited)
    {i : Nat} {s : RunSnapshot} (hi : visited[i]? = some s) :
    s.lastSequence = nextSequence snapshot + i := by
  induction entries generalizing snapshot visited i with
  | nil =>
    cases h
    cases hi
  | cons entry entries ih =>
    obtain ⟨next, rest, hn, hr, rfl⟩ := EventLog.states_cons.mp h
    have position := (extend_position hn).1
    cases i with
    | zero =>
      cases hi
      exact position
    | succ i =>
      have tail := ih hr hi
      rw [nextSequence_some, position] at tail
      omega

namespace Holds

variable {runId : String} {dir : RunDir} {l : RunLedger runId}

theorem readEvents (h : Holds runId dir l) :
    DurableRuntime.readEvents runId dir = .ok ((logEvents runId none l.entries l.visited).map Event.sorted) := by
  have lines := splitLines_logText _ (logLines_oneLine runId none l.entries l.visited)
  simp only [DurableRuntime.readEvents, h.log, lines]
  exact readLines_log l.replays

theorem readRun (h : Holds runId dir l) :
    ∃ sequence, DurableRuntime.readRun runId dir = .ok (l.visited, sequence) ∧
      (sequence = some l.visited.length → dir.checkpoint = some (checkpointText l.state)) := by
  have replayed := states_log l.replays
  have started : ¬ l.visited = [] := l.started
  cases hc : dir.checkpoint with
  | none =>
    refine ⟨none, ?_, by simp⟩
    simp only [DurableRuntime.readRun, h.readEvents, Except.ok_bind, replayed,
      raiseIf_false _ _ _ started, hc]
    rfl
  | some text =>
    obtain ⟨i, s, hi, rfl⟩ := h.checkpoint text hc
    have position : s.lastSequence = i + 1 := by
      have sequence := visited_sequence l.replays hi
      rw [nextSequence_none] at sequence
      omega
    refine ⟨some (i + 1), ?_, ?_⟩
    · simp only [DurableRuntime.readRun, h.readEvents, Except.ok_bind, replayed,
        raiseIf_false _ _ _ started, hc, checkedSequence_text hi position]
      rfl
    · intro last
      have whole := Option.some.inj last
      have index : i = l.visited.length - 1 := by omega
      have final : l.visited[i]? = some l.state := by
        rw [index, ← List.getLast?_eq_getElem?]
        exact l.getLast?_visited
      rw [hi] at final
      rw [Option.some.inj final]

/-- Loading returns the ledger's snapshot and brings the checkpoint up to date. -/
theorem loadUnlocked (h : Holds runId dir l) :
    DurableRuntime.loadUnlocked runId dir = (filesOf l, .ok l.state) := by
  obtain ⟨sequence, hread, fresh⟩ := h.readRun
  have files : filesOf l = { dir with checkpoint := some (checkpointText l.state) } := by
    simp only [filesOf, h.created, h.log]
  simp only [DurableRuntime.loadUnlocked, hread, l.getLast?_visited, files]
  split
  · rename_i current
    simp only [← fresh current]
  · rfl

end Holds

/-- The ledger with one more entry that fits. -/
def record {runId : String} (l : RunLedger runId) (entry : Entry)
    (fits : entry.change.Fits l.state.progress) (unused : l.state.Unused entry.key) : RunLedger runId :=
  l.append entry (l.state.advance runId entry) (extend_advance runId l.state entry fits unused.2)

theorem eventFromDict_apply (runId : String) (snapshot : Option RunSnapshot) (entry : Entry) :
    (eventFromDict (rawEvent runId snapshot entry.change entry.key entry.occurredAt) >>=
      apply snapshot) = extend runId snapshot entry := by
  rw [eventFromDict_raw]
  rfl

@[simp] theorem record_state {runId : String} (l : RunLedger runId) (entry : Entry)
    (fits : entry.change.Fits l.state.progress) (unused : l.state.Unused entry.key) :
    (record l entry fits unused).state = l.state.advance runId entry :=
  EventLog.Ledger.state_append ..

/-- An append writes the line and the checkpoint of the extended ledger. -/
theorem appendUnlocked_record {runId : String} (l : RunLedger runId) (entry : Entry)
    (fits : entry.change.Fits l.state.progress) (unused : l.state.Unused entry.key) :
    appendUnlocked runId (some l.state) entry.change entry.key (.ok entry.occurredAt) (filesOf l) =
      (filesOf (record l entry fits unused), .ok (l.state.advance runId entry)) := by
  have extended := extend_advance runId l.state entry fits unused.2
  have applied := eventFromDict_apply runId (some l.state) entry
  have lines := logLines_concat runId none l.entries l.visited l.length_visited entry
    (l.state.advance runId entry)
  rw [extended] at applied
  rw [l.final_visited] at lines
  have text : (filesOf (record l entry fits unused)).events =
      some (logText (logLines runId none l.entries l.visited) ++ entry.line runId (some l.state) ++ "\n") := by
    simp only [filesOf, record, EventLog.Ledger.entries_append, EventLog.Ledger.visited_append, lines,
      logText_concat]
  have checkpoint : (filesOf (record l entry fits unused)).checkpoint =
      some (checkpointText (l.state.advance runId entry)) := by
    simp only [filesOf, record_state]
  simp only [appendUnlocked, if_neg unused.1, applied, writeCheckpoint_eq, Prod.mk.injEq, and_true]
  simp only [Entry.line] at text
  rw [← checkpoint]
  simp only [filesOf, Option.getD_some] at text ⊢
  rw [← text]

/-- The first append writes the files of a ledger of one entry. -/
theorem appendUnlocked_first {runId : String} (entry : Entry) (s : RunSnapshot)
    (ok : extend runId none entry = .ok s) (key : entry.key ≠ "") {dir : RunDir}
    (created : dir.created = true) (empty : dir.events = none) :
    appendUnlocked runId none entry.change entry.key (.ok entry.occurredAt) dir =
      (filesOf (EventLog.Ledger.first entry s ok), .ok s) := by
  have applied := eventFromDict_apply runId none entry
  have text := logText_concat [] (entry.line runId none)
  rw [ok] at applied
  simp only [List.nil_append] at text
  simp only [appendUnlocked, if_neg key, applied, writeCheckpoint_eq, empty, Option.getD_none, created]
  simp only [filesOf, EventLog.Ledger.first, EventLog.Ledger.state, logLines, List.getLast_singleton, text]
  rfl

end Onmc.DurableRuntime
