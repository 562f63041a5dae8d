import Onmc.DurableRuntime.Steps

/-! Whole runs: calls of the store one after another on one run id, from a directory that does
not exist yet. The files always hold the ledger of the calls that were recorded. -/
namespace Onmc.DurableRuntime

inductive Call where
  | create (creation : Creation)
  | load
  | run (op : Operation)

/-- The value of a successful call, read off the snapshot it leaves. -/
def Call.Reports (s : RunSnapshot) (value : Value) : Call → Prop
  | create _ | load => value = .snapshot s
  | run op => op.command.Reports s value

variable [Sha256]

def Call.perform (runId : String) (clock : Clock) (dir : RunDir) : Call → RunDir × Outcome Value
  | create creation => creation.call runId clock dir
  | load =>
    let (dir, outcome) := DurableRuntime.load runId dir
    (dir, outcome.map .snapshot)
  | run op => op.call runId clock dir

/-- The calls of a run in order, with what each returned or raised. -/
def perform (runId : String) (dir : RunDir) : List (Call × Clock) → RunDir × List (Call × Outcome Value)
  | [] => (dir, [])
  | (call, clock) :: calls =>
    let (next, outcome) := call.perform runId clock dir
    let (last, outcomes) := perform runId next calls
    (last, (call, outcome) :: outcomes)

/-- The ledger `create_run` starts. -/
def founded (runId : String) (creation : Creation) (occurredAt : DateTime) : RunLedger runId :=
  let environment := creation.environment.getD creation.capturedEnvironment
  let git := creation.git.getD creation.capturedGit
  EventLog.Ledger.first ⟨.runCreated creation.nodeIds environment git, creation.key, occurredAt⟩
    (.start runId creation.nodeIds environment git creation.key occurredAt) (extend_start ..)

/-- The ledgers that calls can lead to. -/
inductive Reached {runId : String} : RunLedger runId → Prop
  | founded (creation : Creation) (occurredAt : DateTime) (valid : creation.validate runId = .ok ()) :
      Reached (founded runId creation occurredAt)
  | acted (l l' : RunLedger runId) (op : Operation) (clock : Clock) (outcome : Outcome Value)
      (reached : Reached l) (acts : Acts l op clock l' outcome) : Reached l'

/-- The files of a run that has been created, or of one that has not. -/
def Tracks (runId : String) (dir : RunDir) : Option (RunLedger runId) → Prop
  | none => dir.events = none ∧ dir.checkpoint = none
  | some l => safeId runId = true ∧ dir = filesOf l ∧ Reached l

/-- One call, seen from the ledger. -/
inductive CallActs {runId : String} : Option (RunLedger runId) → Call → Clock →
    Option (RunLedger runId) → Outcome Value → Prop
  | missing (call : Call) (clock : Clock) (e : Raised) : CallActs none call clock none (.error e)
  | founded (creation : Creation) (clock : Clock) (occurredAt : DateTime)
      (valid : creation.validate runId = .ok ()) (stamped : clock.stamp = .ok occurredAt) :
      CallActs none (.create creation) clock (some (founded runId creation occurredAt))
        (.ok (.snapshot (founded runId creation occurredAt).state))
  | exists (l : RunLedger runId) (creation : Creation) (clock : Clock) (outcome : Outcome Value)
      (same : ∀ value, outcome = .ok value → value = .snapshot l.state) :
      CallActs (some l) (.create creation) clock (some l) outcome
  | loaded (l : RunLedger runId) (clock : Clock) :
      CallActs (some l) .load clock (some l) (.ok (.snapshot l.state))
  | acted (l l' : RunLedger runId) (op : Operation) (clock : Clock) (outcome : Outcome Value)
      (acts : Acts l op clock l' outcome) : CallActs (some l) (.run op) clock (some l') outcome

theorem loadUnlocked_empty (runId : String) {dir : RunDir} (h : dir.events = none) :
    loadUnlocked runId dir = (dir, raise .runNotFound (missing runId)) := by
  simp [loadUnlocked, readRun, readEvents, h, EventLog.states, raiseIf, raise]

theorem load_empty (runId : String) {dir : RunDir} (h : dir.events = none) :
    ∃ e, load runId dir = (dir, .error e) := by
  unfold load
  split
  · exact ⟨_, rfl⟩
  · split
    · exact ⟨_, rfl⟩
    · exact ⟨_, loadUnlocked_empty runId h⟩

theorem operation_empty (runId : String) (op : Operation) (clock : Clock) {dir : RunDir}
    (h : dir.events = none) : ∃ e, op.call runId clock dir = (dir, .error e) := by
  unfold Operation.call
  split
  · exact ⟨_, rfl⟩
  · split
    · exact ⟨_, rfl⟩
    · rw [loadUnlocked_empty runId h]
      exact ⟨_, rfl⟩

omit [Sha256] in
theorem validate_safe {runId : String} {creation : Creation} (h : creation.validate runId = .ok ()) :
    safeId runId = true ∧ creation.key ≠ "" := by
  obtain ⟨_, hid, h⟩ := Except.bind_ok.mp h
  obtain ⟨_, hkey, _⟩ := Except.bind_ok.mp h
  refine ⟨?_, raiseIf_ok.mp hkey⟩
  unfold validateId at hid
  split at hid
  · assumption
  · cases hid

theorem creation_founded (runId : String) (creation : Creation) (clock : Clock) {occurredAt : DateTime}
    (dir : RunDir) (h : dir.events = none) (valid : creation.validate runId = .ok ())
    (stamped : clock.stamp = .ok occurredAt) :
    creation.call runId clock dir = (filesOf (founded runId creation occurredAt),
      .ok (.snapshot (founded runId creation occurredAt).state)) := by
  have written := @appendUnlocked_first _ runId
    ⟨.runCreated creation.nodeIds (creation.environment.getD creation.capturedEnvironment)
      (creation.git.getD creation.capturedGit), creation.key, occurredAt⟩ _
    (extend_start runId _ _ _ creation.key occurredAt) (validate_safe valid).2 { dir with created := true } rfl h
  simp only [h] at written
  simp only [Creation.call, valid, h, stamped, if_true, written]
  rfl

/-- Creating a run whose directory holds no log. -/
theorem creation_empty (runId : String) (creation : Creation) (clock : Clock) {dir : RunDir}
    (h : dir.events = none) (hc : dir.checkpoint = none) :
    ∃ after, @CallActs _ runId none (.create creation) clock after
        (creation.call runId clock dir).2 ∧ Tracks runId (creation.call runId clock dir).1 after := by
  cases hvalid : creation.validate runId with
  | error e =>
    have call : creation.call runId clock dir = (dir, .error e) := by
      simp only [Creation.call, hvalid]
    rw [call]
    exact ⟨none, .missing _ _ _, h, hc⟩
  | ok u =>
    obtain ⟨safe, key⟩ := validate_safe hvalid
    cases hstamp : clock.stamp with
    | error e =>
      have call : creation.call runId clock dir = ({ dir with created := true }, .error e) := by
        simp [Creation.call, hvalid, h, hstamp, appendUnlocked, key, Except.map]
      rw [call]
      exact ⟨none, .missing _ _ _, h, hc⟩
    | ok occurredAt =>
      rw [creation_founded runId creation clock dir h hvalid hstamp]
      exact ⟨some (founded runId creation occurredAt), .founded creation clock occurredAt hvalid hstamp,
        safe, rfl, .founded creation occurredAt hvalid⟩

/-- Creating a run that exists leaves its files alone. -/
theorem creation_exists (runId : String) (creation : Creation) (clock : Clock) (l : RunLedger runId) :
    CallActs (some l) (.create creation) clock (some l) (creation.call runId clock (filesOf l)).2 ∧
      (creation.call runId clock (filesOf l)).1 = filesOf l := by
  have created : { filesOf l with created := true } = filesOf l := rfl
  have loaded := (filesOf_holds l).loadUnlocked
  have present : ¬ (filesOf l).events = none := by simp [filesOf]
  cases hvalid : creation.validate runId with
  | error e =>
    have call : creation.call runId clock (filesOf l) = (filesOf l, .error e) := by
      simp only [Creation.call, hvalid]
    rw [call]
    refine ⟨.exists l creation clock _ ?_, rfl⟩
    rintro _ ⟨⟩
  | ok u =>
    cases hknown : checkIdempotency l.state creation.key (Change.runCreated creation.nodeIds
        (creation.environment.getD l.state.environment)
        (creation.git.getD l.state.git)).fingerprint with
    | error e =>
      have call : creation.call runId clock (filesOf l) = (filesOf l, .error e) := by
        simp only [Creation.call, hvalid, created, present, if_false, loaded, hknown]
      rw [call]
      refine ⟨.exists l creation clock _ ?_, rfl⟩
      rintro _ ⟨⟩
    | ok known =>
      cases known with
      | true =>
        have call : creation.call runId clock (filesOf l) = (filesOf l, .ok (.snapshot l.state)) := by
          simp only [Creation.call, hvalid, created, present, if_false, loaded, hknown]
        rw [call]
        refine ⟨.exists l creation clock _ ?_, rfl⟩
        rintro _ ⟨⟩
        rfl
      | false =>
        have call : creation.call runId clock (filesOf l) =
            (filesOf l, raise .runAlreadyExists ("run " ++ pyRepr runId ++ " already exists")) := by
          simp only [Creation.call, hvalid, created, present, if_false, loaded, hknown]
        rw [call]
        refine ⟨.exists l creation clock _ ?_, rfl⟩
        rintro _ ⟨⟩

theorem load_files {runId : String} (l : RunLedger runId) (safe : safeId runId = true) :
    load runId (filesOf l) = (filesOf l, .ok l.state) := by
  have loaded := (filesOf_holds l).loadUnlocked
  have created : (filesOf l).created = true := rfl
  simp [load, validateId, safe, created, loaded]

/-- Every call on tracked files is a step of the ledger and leaves tracked files. -/
theorem perform_call {runId : String} {dir : RunDir} {before : Option (RunLedger runId)}
    (h : Tracks runId dir before) (call : Call) (clock : Clock) :
    ∃ after, CallActs before call clock after (call.perform runId clock dir).2 ∧
      Tracks runId (call.perform runId clock dir).1 after := by
  cases before with
  | none =>
    obtain ⟨log, checkpoint⟩ := h
    cases call with
    | create creation => exact creation_empty runId creation clock log checkpoint
    | load =>
      obtain ⟨e, he⟩ := load_empty runId log
      refine ⟨none, ?_, ?_⟩
      · simp only [Call.perform, he]
        exact .missing _ _ _
      · simp only [Call.perform, he]
        exact ⟨log, checkpoint⟩
    | run op =>
      obtain ⟨e, he⟩ := operation_empty runId op clock log
      refine ⟨none, ?_, ?_⟩
      · simp only [Call.perform, he]
        exact .missing _ _ _
      · simp only [Call.perform, he]
        exact ⟨log, checkpoint⟩
  | some l =>
    obtain ⟨safe, rfl, reached⟩ := h
    cases call with
    | create creation =>
      obtain ⟨acts, files⟩ := creation_exists runId creation clock l
      exact ⟨some l, acts, safe, files, reached⟩
    | load =>
      refine ⟨some l, ?_, ?_⟩
      · simp only [Call.perform, load_files l safe]
        exact .loaded l clock
      · simp only [Call.perform, load_files l safe]
        exact ⟨safe, rfl, reached⟩
    | run op =>
      obtain ⟨l', acts, files⟩ := call_acts (filesOf_holds l) op clock
      refine ⟨some l', .acted l l' op clock _ acts, safe, ?_, .acted l l' op clock _ reached acts⟩
      rcases files with files | ⟨files, rfl⟩
      · exact files
      · exact files

/-- A call that raises leaves the ledger as it was. -/
theorem error_same {runId : String} {before after : Option (RunLedger runId)} {call : Call} {clock : Clock}
    {e : Raised} (h : CallActs before call clock after (.error e)) : after = before := by
  cases h with
  | missing => rfl
  | «exists» => rfl
  | acted l l' op clock outcome acts =>
    cases acts with
    | refused => rfl

/-- A call that returns has a run, and returns what that run's snapshot says. -/
theorem ok_reports {runId : String} {before after : Option (RunLedger runId)} {call : Call} {clock : Clock}
    {value : Value} (h : CallActs before call clock after (.ok value)) :
    ∃ l, after = some l ∧ call.Reports l.state value := by
  cases h with
  | founded creation clock occurredAt valid stamped => exact ⟨_, rfl, rfl⟩
  | «exists» l creation clock outcome same => exact ⟨l, rfl, same value rfl⟩
  | loaded l clock => exact ⟨l, rfl, rfl⟩
  | acted l l' op clock outcome acts =>
    refine ⟨l', rfl, ?_⟩
    cases acts with
    | repeated value valid decided => exact done_reports decided
    | recorded change occurredAt value valid decided stamped result =>
      rw [record_state]
      exact result_reports result

/-- The last call that returned, with its value. -/
def lastReturned : List (Call × Outcome Value) → Option (Call × Value)
  | [] => none
  | (call, outcome) :: rest =>
    match lastReturned rest, outcome with
    | some last, _ => some last
    | none, .ok value => some (call, value)
    | none, .error _ => none

/-- A whole run ends in the files of a ledger, and the last value returned is read off it. -/
theorem perform_tracks {runId : String} {dir : RunDir} {before : Option (RunLedger runId)}
    (h : Tracks runId dir before) (calls : List (Call × Clock)) :
    ∃ after, Tracks runId (perform runId dir calls).1 after ∧
      (lastReturned (perform runId dir calls).2 = none → after = before) ∧
      ∀ call value, lastReturned (perform runId dir calls).2 = some (call, value) →
        ∃ l, after = some l ∧ call.Reports l.state value := by
  induction calls generalizing dir before with
  | nil => exact ⟨before, h, fun _ => rfl, by simp [perform, lastReturned]⟩
  | cons step calls ih =>
    obtain ⟨call, clock⟩ := step
    obtain ⟨middle, acts, tracked⟩ := perform_call h call clock
    obtain ⟨after, files, none_same, reports⟩ := ih tracked
    refine ⟨after, files, ?_, ?_⟩
    · intro hnone
      simp only [perform, lastReturned] at hnone
      cases hrest : lastReturned (perform runId (call.perform runId clock dir).1 calls).2 with
      | some last => simp [hrest] at hnone
      | none =>
        have same := none_same hrest
        cases hout : (call.perform runId clock dir).2 with
        | ok value => simp [hrest, hout] at hnone
        | error e =>
          rw [hout] at acts
          exact same.trans (error_same acts)
    · intro last value hlast
      simp only [perform, lastReturned] at hlast
      cases hrest : lastReturned (perform runId (call.perform runId clock dir).1 calls).2 with
      | some found =>
        simp only [hrest, Option.some.injEq] at hlast
        exact reports last value (hlast ▸ hrest)
      | none =>
        have same := none_same hrest
        cases hout : (call.perform runId clock dir).2 with
        | error e => simp [hrest, hout] at hlast
        | ok returned =>
          simp only [hrest, hout, Option.some.injEq, Prod.mk.injEq] at hlast
          obtain ⟨rfl, rfl⟩ := hlast
          rw [hout] at acts
          obtain ⟨l, hl, said⟩ := ok_reports acts
          exact ⟨l, same.trans hl, said⟩

/-- Sequence numbers count from one, and each event names the hash of the one before it. -/
structure Chained (log : List Event) : Prop where
  numbered : log.map Event.sequence = List.range' 1 log.length
  anchored : ∀ event ∈ log.head?, event.previousHash = zeroHash
  linked : log.IsChain (fun event next => next.previousHash = event.hash)

theorem readLine_ok {runId : String} {index : Nat} {previousHash line : String} {event : Event}
    (h : readLine runId index previousHash line = .ok event) :
    event.sequence = index ∧ event.previousHash = previousHash := by
  obtain ⟨raw, _, h⟩ := Except.bind_ok.mp h
  obtain ⟨_, _, h⟩ := Except.bind_ok.mp h
  obtain ⟨read, _, h⟩ := Except.bind_ok.mp h
  obtain ⟨_, position, h⟩ := Except.bind_ok.mp h
  obtain ⟨_, chain, h⟩ := Except.bind_ok.mp h
  obtain ⟨_, _, h⟩ := Except.bind_ok.mp h
  cases h
  constructor
  · exact not_not.mp (fun other => raiseIf_ok.mp position (.inl other))
  · exact not_not.mp (raiseIf_ok.mp chain)

theorem readLines_chained {runId : String} {index : Nat} {previousHash : String} {lines : List String}
    {log : List Event} (h : readLines runId index previousHash lines = .ok log) :
    log.map Event.sequence = List.range' index log.length ∧
      (∀ event ∈ log.head?, event.previousHash = previousHash) ∧
      log.IsChain (fun event next => next.previousHash = event.hash) := by
  induction lines generalizing index previousHash log with
  | nil =>
    cases h
    exact ⟨rfl, by simp, .nil⟩
  | cons line lines ih =>
    obtain ⟨event, he, h⟩ := Except.bind_ok.mp h
    obtain ⟨rest, hr, h⟩ := Except.bind_ok.mp h
    cases h
    obtain ⟨hseq, hprev⟩ := readLine_ok he
    obtain ⟨numbered, anchored, linked⟩ := ih hr
    refine ⟨?_, ?_, ?_⟩
    · simp [List.range'_succ, hseq, numbered]
    · rintro _ ⟨⟩
      exact hprev
    · cases rest with
      | nil => exact .singleton _
      | cons next rest => exact .cons_cons (anchored next rfl) linked

/-- Whatever log the store accepts is numbered and chained. -/
theorem readEvents_chained {runId : String} {dir : RunDir} {log : List Event}
    (h : readEvents runId dir = .ok log) : Chained log := by
  unfold readEvents at h
  split at h
  · cases h
    exact ⟨rfl, by simp, .nil⟩
  · obtain ⟨numbered, anchored, linked⟩ := readLines_chained h
    exact ⟨numbered, anchored, linked⟩

theorem load_tracked {runId : String} {dir dir' : RunDir} {ledger : Option (RunLedger runId)}
    (h : Tracks runId dir ledger) (h' : Tracks runId dir' ledger) :
    (load runId dir').2 = (load runId dir).2 ∧ dir'.events = dir.events := by
  cases ledger with
  | some l =>
    have same : dir' = dir := h'.2.1.trans h.2.1.symm
    exact ⟨same ▸ rfl, same ▸ rfl⟩
  | none =>
    refine ⟨?_, h'.1.trans h.1.symm⟩
    simp only [load, loadUnlocked_empty runId h.1, loadUnlocked_empty runId h'.1]
    split
    · rfl
    · split <;> split <;> rfl

/-- Replay equals the live state. After any calls on a run id, whatever their arguments and the
clock's readings: loading returns what the last successful call reported; the checkpoint, when
present, is valid and agrees with it; the log is numbered and chained; and a further call that
raises changes neither the log nor what loading returns. -/
theorem replay_matches_live (runId : String) (calls : List (Call × Clock)) :
    let dir := (perform runId .absent calls).1
    (∀ call value, lastReturned (perform runId .absent calls).2 = some (call, value) →
      ∃ s, (load runId dir).2 = .ok s ∧ call.Reports s value) ∧
    (∀ text, dir.checkpoint = some text → ∃ s document, (load runId dir).2 = .ok s ∧
      readCheckpoint text = .ok document ∧
      document.get? "snapshot" = some (snapshotToDict s).canonical) ∧
    (∃ log, readEvents runId dir = .ok log ∧ Chained log) ∧
    ∀ call clock e, (Call.perform runId clock dir call).2 = .error e →
      (call.perform runId clock dir).1.events = dir.events ∧
      (load runId (call.perform runId clock dir).1).2 = (load runId dir).2 := by
  intro dir
  have start : Tracks runId .absent none := ⟨rfl, rfl⟩
  obtain ⟨after, tracked, _, reports⟩ := perform_tracks start calls
  refine ⟨?_, ?_, ?_, ?_⟩
  · intro call value hlast
    obtain ⟨l, rfl, said⟩ := reports call value hlast
    refine ⟨l.state, ?_, said⟩
    simp only [dir, tracked.2.1, load_files l tracked.1]
  · intro text htext
    cases after with
    | none =>
      rw [show dir.checkpoint = none from tracked.2] at htext
      cases htext
    | some l =>
      obtain ⟨safe, files, _⟩ := tracked
      have files : dir = filesOf l := files
      have current : text = checkpointText l.state := by
        rw [files] at htext
        exact (Option.some.inj htext).symm
      refine ⟨l.state, (checkpointDocument l.state).canonical, ?_, ?_, ?_⟩
      · simp only [files, load_files l safe]
      · rw [current]
        exact readCheckpoint_text l.state
      · exact stored_snapshot l.state
  · cases after with
    | none =>
      have empty : readEvents runId dir = .ok [] := by
        simp only [readEvents, show dir.events = none from tracked.1]
      exact ⟨[], empty, readEvents_chained empty⟩
    | some l =>
      have files : dir = filesOf l := tracked.2.1
      have read := (filesOf_holds l).readEvents
      rw [← files] at read
      exact ⟨_, read, readEvents_chained read⟩
  · intro call clock e raised
    obtain ⟨next, acts, tracked'⟩ := perform_call tracked call clock
    rw [raised] at acts
    rw [error_same acts] at tracked'
    have same := load_tracked tracked tracked'
    exact ⟨same.2, same.1⟩

theorem perform_concat (runId : String) (dir : RunDir) (calls : List (Call × Clock)) (call : Call)
    (clock : Clock) : (perform runId dir (calls ++ [(call, clock)])).1 =
      (call.perform runId clock (perform runId dir calls).1).1 := by
  induction calls generalizing dir with
  | nil => rfl
  | cons step calls ih =>
    simp only [List.cons_append, perform]
    exact ih _

/-- Operations one after another on the snapshot alone. -/
def stepAll (runId : String) (s : RunSnapshot) : List (Operation × Clock) → RunSnapshot
  | [] => s
  | (op, clock) :: rest => stepAll runId (op.step runId clock s).1 rest

/-- What one call of an operation records. -/
def Operation.entry? (runId : String) (op : Operation) (clock : Clock) (s : RunSnapshot) : Option Entry :=
  match op.validate, op.command.verdict runId op.key clock s, clock.stamp with
  | .ok (), .ok (.append change), .ok occurredAt => some ⟨change, op.key, occurredAt⟩
  | _, _, _ => none

def entriesAll (runId : String) (s : RunSnapshot) : List (Operation × Clock) → List Entry
  | [] => []
  | (op, clock) :: rest =>
    (op.entry? runId clock s).toList ++ entriesAll runId (op.step runId clock s).1 rest

theorem acts_entries {runId : String} {l l' : RunLedger runId} {op : Operation} {clock : Clock}
    {outcome : Outcome Value} (h : Acts l op clock l' outcome) :
    l'.entries = l.entries ++ (op.entry? runId clock l.state).toList := by
  cases h with
  | refused e why =>
    have nothing : op.entry? runId clock l.state = none := by
      rcases why with hv | ⟨hv, hd⟩ | ⟨hv, hs, change, hd⟩
      · simp only [Operation.entry?, hv]
      · simp only [Operation.entry?, hv, hd]
      · simp only [Operation.entry?, hv, hd, hs]
    simp [nothing]
  | repeated value valid decided => simp [Operation.entry?, valid, decided]
  | recorded change occurredAt value valid decided stamped result =>
    simp only [Operation.entry?, valid, decided, stamped, Option.toList_some]
    rfl

theorem perform_operations {runId : String} {l : RunLedger runId} {dir : RunDir}
    (h : Tracks runId dir (some l)) (ops : List (Operation × Clock)) :
    ∃ l', Tracks runId (perform runId dir (ops.map (fun step => (.run step.1, step.2)))).1 (some l') ∧
      l'.state = stepAll runId l.state ops ∧ l'.entries = l.entries ++ entriesAll runId l.state ops := by
  induction ops generalizing l dir with
  | nil => exact ⟨l, h, rfl, by simp [entriesAll]⟩
  | cons step ops ih =>
    obtain ⟨op, clock⟩ := step
    obtain ⟨after, acts, tracked⟩ := perform_call h (.run op) clock
    cases acts with
    | acted l l' op clock outcome acts =>
      obtain ⟨last, files, state, entries⟩ := ih tracked
      refine ⟨last, files, ?_, ?_⟩
      · rw [state, stepAll, acts_step acts]
      · rw [entries, acts_entries acts, entriesAll, acts_step acts, List.append_assoc]

/-- A run that is created and then operated on, read off the snapshots. -/
theorem perform_founded (runId : String) (creation : Creation) (occurredAt : DateTime) (now : Outcome DateTime)
    (valid : creation.validate runId = .ok ()) (ops : List (Operation × Clock)) :
    ∃ l, Tracks runId (perform runId .absent ((.create creation, ⟨now, .ok occurredAt⟩) ::
        ops.map (fun step => (.run step.1, step.2)))).1 (some l) ∧
      l.state = stepAll runId (founded runId creation occurredAt).state ops ∧
      l.entries = (founded runId creation occurredAt).entries ++
        entriesAll runId (founded runId creation occurredAt).state ops := by
  have created := creation_founded runId creation ⟨now, .ok occurredAt⟩ .absent rfl valid rfl
  have tracked : Tracks runId (filesOf (founded runId creation occurredAt))
      (some (founded runId creation occurredAt)) :=
    ⟨(validate_safe valid).1, rfl, .founded creation occurredAt valid⟩
  have rest := perform_operations tracked ops
  simp only [perform, Call.perform, created]
  exact rest

/-! A run of one node, for the examples. -/

def Clock.reading (seconds : Nat) (h : seconds < 86400) : Clock :=
  let t : DateTime := ⟨seconds * 1000000, by omega⟩
  ⟨.ok t, .ok t⟩

def buildCreation : Creation where
  nodeIds := ["build"]
  environment := none
  git := none
  capturedEnvironment := ⟨"3.12", "linux", "python", "/"⟩
  capturedGit := ⟨none, none, none, none⟩
  key := "create"

end Onmc.DurableRuntime
