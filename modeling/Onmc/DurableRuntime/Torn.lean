import Onmc.DurableRuntime.Accepted
import Onmc.JsonPrefix

/-! What a crash leaves behind. A log whose last line lost its line break takes the next event onto
that line, and a log whose first line is torn keeps the run from being created again. -/
namespace Onmc.DurableRuntime
open Json (dumps loads)

variable [Sha256]

theorem readLines_length {runId : String} {index : Nat} {previousHash : String} {lines : List String}
    {log : List Event} (h : readLines runId index previousHash lines = .ok log) :
    log.length = lines.length := by
  induction lines generalizing index previousHash log with
  | nil =>
    cases h
    rfl
  | cons line lines ih =>
    obtain ⟨event, _, h⟩ := Except.bind_ok.mp h
    obtain ⟨rest, hr, h⟩ := Except.bind_ok.mp h
    cases h
    simp only [List.length_cons, ih hr]

theorem readLines_concat {runId : String} {index : Nat} {previousHash : String} {lines : List String}
    {log : List Event} {line : String} {event : Event}
    (h : readLines runId index previousHash lines = .ok log)
    (last : readLine runId (index + lines.length) ((log.getLast?.map Event.hash).getD previousHash) line =
      .ok event) :
    readLines runId index previousHash (lines ++ [line]) = .ok (log ++ [event]) := by
  induction lines generalizing index previousHash log with
  | nil =>
    cases h
    simp only [List.length_nil, Nat.add_zero, List.getLast?_nil, Option.map_none, Option.getD_none] at last
    simp only [List.nil_append, readLines, last, Except.ok_bind]
    rfl
  | cons first lines ih =>
    obtain ⟨event, he, h⟩ := Except.bind_ok.mp h
    obtain ⟨rest, hr, h⟩ := Except.bind_ok.mp h
    cases h
    have index : index + (first :: lines).length = index + 1 + lines.length := by
      simp only [List.length_cons]
      omega
    have hash : (((event :: rest).getLast?).map Event.hash).getD previousHash =
        ((rest.getLast?).map Event.hash).getD event.hash := by
      cases rest with
      | nil => rfl
      | cons second rest => simp [List.getLast?_cons]
    rw [index, hash] at last
    have tail := ih hr last
    simp only [List.cons_append, readLines, he, Except.ok_bind, tail]
    rfl

/-- The number of events of an accepted log is the number of its lines. -/
theorem Accepts.lines {runId : String} {dir : RunDir} {log : List Event} {snapshots : List RunSnapshot}
    {s : RunSnapshot} (h : Accepts runId dir log snapshots s) :
    ∃ text, dir.events = some text ∧ readLines runId 1 zeroHash (splitLines text) = .ok log := by
  have read := h.read
  unfold readEvents at read
  split at read
  · cases read
    have length := h.length
    have started := h.started
    rw [length] at started
    cases started
  · rename_i text present
    exact ⟨text, present, read⟩

/-- The files after an append to accepted ones. -/
def appended (runId : String) (s : RunSnapshot) (entry : Entry) (text : String) (created : Bool) : RunDir where
  created := created
  events := some (text ++ entry.line runId (some s) ++ "\n")
  checkpoint := some (checkpointText (s.advance runId entry))

theorem line_oneLine (runId : String) (snapshot : Option RunSnapshot) (entry : Entry) :
    Json.OneLine (entry.line runId snapshot).toList := Json.dumps_oneLine _

theorem line_ne_nil (runId : String) (snapshot : Option RunSnapshot) (entry : Entry) :
    (entry.line runId snapshot).toList ≠ [] := Json.dumps_ne_nil _

theorem line_head (runId : String) (snapshot : Option RunSnapshot) (entry : Entry) (rest : List Char) :
    ((entry.line runId snapshot).toList ++ rest).head? ≠ some '\n' := by
  have single := line_oneLine runId snapshot entry
  cases first : (entry.line runId snapshot).toList with
  | nil => exact absurd first (line_ne_nil runId snapshot entry)
  | cons c cs =>
    rw [first] at single
    intro feed
    exact (single c List.mem_cons_self).1 (Option.some.inj feed)

theorem splitLines_append {text : String} (ends : EndsLine text) (runId : String)
    (snapshot : Option RunSnapshot) (entry : Entry) :
    splitLines (text ++ entry.line runId snapshot ++ "\n") = splitLines text ++ [entry.line runId snapshot] := by
  have parts := splitLinesFrom_ends [] (.inr ends) (line_head runId snapshot entry ['\n'])
  have line := splitLinesFrom_line (line_oneLine runId snapshot entry) [] []
  simp only [List.nil_append, splitLinesFrom, List.isEmpty_nil, if_true, String.ofList_toList] at line
  simp only [splitLines, String.toList_append, List.append_assoc]
  rw [show "\n".toList = ['\n'] from rfl, parts, line]

/-- After a line break the new event is a line of its own, and everything is accepted again. -/
theorem Accepts.append {runId : String} {dir : RunDir} {log : List Event} {snapshots : List RunSnapshot}
    {s : RunSnapshot} (h : Accepts runId dir log snapshots s) {text : String}
    (present : dir.events = some text) (ends : EndsLine text) (entry : Entry)
    (fits : entry.change.Fits s.progress) (unused : s.Unused entry.key) (created : Bool) :
    Accepts runId (appended runId s entry text created) (log ++ [(entry.event runId (some s)).sorted])
      (snapshots ++ [s.advance runId entry]) (s.advance runId entry) := by
  obtain ⟨text', present', lines⟩ := h.lines
  have same : text' = text := Option.some.inj (present'.symm.trans present)
  subst same
  obtain ⟨event, last, sequence, hash⟩ := h.last_event
  have count := readLines_length lines
  have length := h.length
  have place : nextSequence (some s) = 1 + (splitLines text').length := by
    rw [nextSequence_some]
    omega
  have before : previousHashOf (some s) = ((log.getLast?).map Event.hash).getD zeroHash := by
    rw [last]
    exact hash
  have line := readLine_line runId (some s) entry
  rw [place, before] at line
  have final : EventLog.final none snapshots = some s := by
    simp only [EventLog.final, h.last]
  have applied : apply (EventLog.final none snapshots) (entry.event runId (some s)).sorted =
      .ok (s.advance runId entry) := by
    rw [final, apply_canonical]
    exact extend_advance runId s entry fits unused.2
  exact {
    read := by
      simp only [readEvents, appended, splitLines_append ends]
      exact readLines_concat lines line
    replays := EventLog.states_concat h.replays applied
    last := List.getLast?_concat
    checkpoint := by
      intro text written
      obtain rfl := Option.some.inj written
      have at_end : (snapshots ++ [s.advance runId entry])[log.length]? = some (s.advance runId entry) := by
        rw [← length]
        exact List.getElem?_concat_length
      exact ⟨_, checkedSequence_text at_end (by simp [RunSnapshot.advance, sequence])⟩ }

/-- Without a line break the new event lands on the last line: whatever is read then is no longer
than before. -/
theorem Accepts.merged {runId : String} {dir : RunDir} {log : List Event} {snapshots : List RunSnapshot}
    {s : RunSnapshot} (h : Accepts runId dir log snapshots s) {text : String}
    (present : dir.events = some text) (torn : ¬ EndsLine text) (entry : Entry) (created : Bool)
    {log' : List Event} {snapshots' : List RunSnapshot} {s' : RunSnapshot}
    (h' : Accepts runId (appended runId s entry text created) log' snapshots' s') :
    s'.lastSequence = s.lastSequence := by
  obtain ⟨text', present', lines⟩ := h.lines
  have same : text' = text := Option.some.inj (present'.symm.trans present)
  subst same
  obtain ⟨text'', present'', lines'⟩ := h'.lines
  have written : text'' = text' ++ entry.line runId (some s) ++ "\n" := Option.some.inj present''.symm
  subst written
  obtain ⟨event, last, sequence, _⟩ := h.last_event
  obtain ⟨event', last', sequence', _⟩ := h'.last_event
  have count := readLines_length lines
  have count' := readLines_length lines'
  have nonempty : text'.toList ≠ [] := by
    intro empty
    have none := h.started
    rw [h.length, count, splitLines, empty] at none
    simp [splitLinesFrom] at none
  have inside := open_of_torn (fun empty => nonempty (by rw [empty]; rfl)) torn
  have merged := splitLinesFrom_continues [] (line_oneLine runId (some s) entry) (.inr inside)
  have whole : splitLines (text' ++ entry.line runId (some s) ++ "\n") =
      splitLinesFrom [] (text'.toList ++ ((entry.line runId (some s)).toList ++ ['\n'])) := by
    simp only [splitLines, String.toList_append, List.append_assoc]
    rfl
  rw [whole, merged, ← splitLines] at count'
  omega

/-- Loading leaves files that load the same. -/
theorem loadUnlocked_again {runId : String} {dir : RunDir} {s : RunSnapshot}
    (h : (loadUnlocked runId dir).2 = .ok s) :
    (loadUnlocked runId (loadUnlocked runId dir).1).2 = .ok s := by
  obtain ⟨log, snapshots, accepts, _⟩ := loadUnlocked_accepts h
  have kept : ∀ sequence, readRun runId dir = .ok (snapshots, sequence) →
      (loadUnlocked runId dir).1 = dir ∨
        (loadUnlocked runId dir).1 = { dir with checkpoint := some (checkpointText s) } := by
    intro sequence read
    simp only [loadUnlocked, read, accepts.last]
    split
    · exact .inl rfl
    · exact .inr rfl
  cases hr : readRun runId dir with
  | error e =>
    simp only [loadUnlocked, hr] at h
    cases h
  | ok found =>
    obtain ⟨visited, sequence⟩ := found
    obtain ⟨_, read, replays, _⟩ := readRun_ok hr
    cases accepts.read.symm.trans read
    cases accepts.replays.symm.trans replays
    rcases kept sequence hr with same | fresh
    · rw [same, h]
    · rw [fresh]
      refine Accepts.loads ⟨accepts.read, accepts.replays, accepts.last, ?_⟩
      intro text written
      obtain rfl := Option.some.inj written
      obtain ⟨event, _, sequence, _⟩ := accepts.last_event
      have started := accepts.started
      have length := accepts.length
      exact ⟨_, checkedSequence_text accepts.last_index (by omega)⟩

theorem appendUnlocked_appended {runId : String} {s : RunSnapshot} {change : Change} {key : String}
    {occurredAt : DateTime} {dir : RunDir} {text : String} (fits : change.Fits s.progress)
    (unused : s.Unused key) (present : dir.events = some text) :
    appendUnlocked runId (some s) change key (.ok occurredAt) dir =
      (appended runId s ⟨change, key, occurredAt⟩ text dir.created,
        .ok (s.advance runId ⟨change, key, occurredAt⟩)) := by
  have applied := eventFromDict_apply runId (some s) ⟨change, key, occurredAt⟩
  rw [extend_advance runId s ⟨change, key, occurredAt⟩ fits unused.2] at applied
  simp only [appendUnlocked, if_neg unused.1, applied, writeCheckpoint_eq, present, Option.getD_some]
  rfl

/-- What an operation that returns has done to accepted files. -/
theorem call_returns {runId : String} {dir : RunDir} {s : RunSnapshot} {text : String}
    (created : dir.created = true) (loaded : (loadUnlocked runId dir).2 = .ok s)
    (present : dir.events = some text) {op : Operation} {clock : Clock} {value : Value}
    (h : (op.call runId clock dir).2 = .ok value) :
    op.validate = .ok () ∧
    ((op.command.verdict runId op.key clock s = .ok (.done value) ∧
      (op.call runId clock dir).1 = (loadUnlocked runId dir).1) ∨
    ∃ change occurredAt, op.command.verdict runId op.key clock s = .ok (.append change) ∧
      clock.stamp = .ok occurredAt ∧
      (op.call runId clock dir).1 = appended runId s ⟨change, op.key, occurredAt⟩ text true ∧
      op.command.result (s.advance runId ⟨change, op.key, occurredAt⟩) = .ok value) := by
  obtain ⟨_, _, _, sameCreated, sameEvents⟩ := loadUnlocked_accepts loaded
  have pair : loadUnlocked runId dir = ((loadUnlocked runId dir).1, .ok s) := by rw [← loaded]
  generalize (loadUnlocked runId dir).1 = after at *
  have notMissing : ¬ dir.created = false := by simp [created]
  unfold Operation.call at h ⊢
  cases hv : op.validate with
  | error e =>
    rw [hv] at h
    cases h
  | ok u =>
    refine ⟨rfl, ?_⟩
    simp only [hv, if_neg notMissing, pair] at h ⊢
    cases hd : op.command.verdict runId op.key clock s with
    | error e =>
      rw [hd] at h
      cases h
    | ok verdict =>
      cases verdict with
      | done v =>
        rw [hd] at h
        cases h
        exact .inl ⟨rfl, rfl⟩
      | append change =>
        obtain ⟨fits, unused⟩ := verdict_fits hd
        rw [hd] at h
        cases hs : clock.stamp with
        | error e =>
          simp only [hs, appendUnlocked_unstamped unused.1] at h
          cases h
        | ok occurredAt =>
          have write := @appendUnlocked_appended _ runId s change op.key occurredAt after text fits unused
            (sameEvents.trans present)
          simp only [hs, write] at h ⊢
          refine .inr ⟨change, occurredAt, rfl, rfl, ?_, h⟩
          rw [sameCreated, created]

/-- An operation that finds nothing to do has its key on record. -/
theorem verdict_known {runId key : String} {clock : Clock} {s : RunSnapshot} {command : Command}
    {value : Value} (h : command.verdict runId key clock s = .ok (.done value)) :
    s.idempotency.lookup key ≠ none := by
  have recorded : ∃ fingerprint, s.Repeats key fingerprint := by
    cases command with
    | transitionRun target reason approvedBy =>
      rcases transitionRun_ok h with ⟨_, recorded⟩ | ⟨hv, _⟩
      · exact ⟨_, recorded⟩
      · cases hv
    | transitionNode nodeId target reason approvedBy =>
      obtain ⟨node, _, ⟨_, recorded⟩ | ⟨hv, _⟩⟩ := transitionNode_ok h
      · exact ⟨_, recorded⟩
      · cases hv
    | acquireLease nodeId owner ttlSeconds =>
      obtain ⟨node, _, ⟨_, _, _, recorded⟩ | ⟨_, _, _, _, _, _, hv⟩⟩ := acquireLease_ok h
      · exact ⟨_, recorded⟩
      · cases hv
    | heartbeat nodeId token ttlSeconds =>
      obtain ⟨node, lease, _, _, ⟨_, recorded⟩ | ⟨_, _, _, _, _, _, _, hv⟩⟩ := heartbeat_ok h
      · exact ⟨_, recorded⟩
      · cases hv
    | releaseLease nodeId token =>
      rcases releaseLease_ok h with ⟨_, recorded⟩ | ⟨_, _, _, _, _, _, hv⟩
      · exact ⟨_, recorded⟩
      · cases hv
    | expireLeases =>
      obtain ⟨now, _, h⟩ := Except.bind_ok.mp h
      rcases appendChecked_ok h with ⟨_, _, _, recorded⟩ | ⟨hv, _⟩
      · exact ⟨_, recorded⟩
      · cases hv
    | recordRetry nodeId classification reason baseDelay maxDelay =>
      obtain ⟨node, _, _, _, _, ⟨_, _, _, recorded⟩ | ⟨hv, _⟩⟩ := recordRetry_ok h
      · exact ⟨_, recorded⟩
      · cases hv
  obtain ⟨fingerprint, _, known⟩ := recorded
  rw [known]
  exact Option.some_ne_none _

/-- The snapshot the files must hold once a call has returned. -/
def Call.after (runId : String) (clock : Clock) (s : RunSnapshot) : Call → RunSnapshot
  | run op => (op.step runId clock s).1
  | create _ | load => s

/-- The call is to write an event: its key is not on record. -/
def Call.Writes (s : RunSnapshot) : Call → Prop
  | run op => s.idempotency.lookup op.key = none
  | create _ | load => False

/-- The files are accepted, and replay to the snapshot the call returned. -/
def Sound (runId : String) (dir : RunDir) (clock : Clock) (s : RunSnapshot) (call : Call) (value : Value) :
    Prop :=
  (load runId (call.perform runId clock dir).1).2 = .ok (call.after runId clock s) ∧
    call.Reports (call.after runId clock s) value

theorem operation_sound_iff {runId : String} {dir : RunDir} {s : RunSnapshot} {text : String}
    (loaded : (load runId dir).2 = .ok s) (present : dir.events = some text) {op : Operation} {clock : Clock}
    {value : Value} (returned : (op.call runId clock dir).2 = .ok value) :
    Sound runId dir clock s (.run op) value ↔ (EndsLine text ∨ ¬ (Call.run op).Writes s) := by
  obtain ⟨safe, created, _, unlocked⟩ := load_ok loaded
  obtain ⟨log, snapshots, accepts, sameCreated, _⟩ := loadUnlocked_accepts unlocked
  obtain ⟨valid, ⟨decided, files⟩ | ⟨change, occurredAt, decided, stamped, files, result⟩⟩ :=
    call_returns created unlocked present returned
  · have after : (Call.run op).after runId clock s = s := by
      simp only [Call.after, Operation.step, valid, decided]
    have sound : Sound runId dir clock s (.run op) value := by
      refine ⟨?_, ?_⟩
      · simp only [Call.perform, files, after]
        rw [load_of_unlocked safe (sameCreated.trans created)]
        exact loadUnlocked_again unlocked
      · rw [after]
        exact done_reports decided
    exact iff_of_true sound (.inr (verdict_known decided))
  · obtain ⟨fits, unused⟩ := verdict_fits decided
    have after : (Call.run op).after runId clock s = s.advance runId ⟨change, op.key, occurredAt⟩ := by
      simp only [Call.after, Operation.step, valid, decided, stamped]
    constructor
    · rintro ⟨again, _⟩
      refine .inl (not_not.mp fun torn => ?_)
      simp only [Call.perform, files, after] at again
      obtain ⟨log', snapshots', accepts', _⟩ := loadUnlocked_accepts (load_ok again).2.2.2
      have merged := accepts.merged present torn _ true accepts'
      have longer : (s.advance runId ⟨change, op.key, occurredAt⟩).lastSequence = s.lastSequence + 1 := rfl
      omega
    · intro condition
      have ends : EndsLine text := condition.resolve_right (not_not.mpr unused.2)
      refine ⟨?_, ?_⟩
      · simp only [Call.perform, files, after]
        rw [load_of_unlocked safe rfl]
        exact (accepts.append present ends _ fits unused true).loads
      · rw [after]
        exact result_reports result

/-- Calls that write no event leave the log as they found it. -/
theorem reading_sound {runId : String} {dir : RunDir} {s : RunSnapshot} (loaded : (load runId dir).2 = .ok s)
    {call : Call} (reading : ∀ op, call ≠ .run op) {clock : Clock} {value : Value}
    (returned : (call.perform runId clock dir).2 = .ok value) : Sound runId dir clock s call value := by
  obtain ⟨safe, created, same, unlocked⟩ := load_ok loaded
  obtain ⟨log, snapshots, accepts, sameCreated, sameEvents⟩ := loadUnlocked_accepts unlocked
  have again : (load runId (loadUnlocked runId dir).1).2 = .ok s := by
    rw [load_of_unlocked safe (sameCreated.trans created)]
    exact loadUnlocked_again unlocked
  have pair : loadUnlocked runId dir = ((loadUnlocked runId dir).1, .ok s) := by rw [← unlocked]
  cases call with
  | run op => exact absurd rfl (reading op)
  | load =>
    simp only [Call.perform, same, unlocked] at returned
    cases returned
    refine ⟨?_, rfl⟩
    simp only [Call.perform, same]
    exact again
  | create creation =>
    obtain ⟨text, present, _⟩ := accepts.lines
    have whole : { dir with created := true } = dir := by rw [← created]
    have exists' : ¬ dir.events = none := by simp [present]
    generalize (loadUnlocked runId dir).1 = after at *
    simp only [Call.perform, Creation.call, whole, if_neg exists', pair] at returned
    have files : (creation.call runId clock dir).1 = after ∧ value = .snapshot s := by
      cases hv : creation.validate runId with
      | error e =>
        rw [hv] at returned
        cases returned
      | ok u =>
        simp only [hv] at returned
        simp only [Creation.call, hv, whole, if_neg exists', pair]
        split at returned
        · cases returned
        · cases returned
          rename_i known
          simp only [and_self]
        · cases returned
    refine ⟨?_, files.2⟩
    simp only [Call.perform, files.1]
    exact again

/-! A first append that was cut short. -/

/-- The entry `create_run` writes. -/
def Creation.entry (creation : Creation) (occurredAt : DateTime) : Entry where
  change := .runCreated creation.nodeIds (creation.environment.getD creation.capturedEnvironment)
    (creation.git.getD creation.capturedGit)
  key := creation.key
  occurredAt := occurredAt

/-- What a crash of `create_run` leaves before its event is complete: no log, or a part of the
event's text. -/
def Interrupted (runId : String) (creation : Creation) (dir : RunDir) : Prop :=
  dir.checkpoint = none ∧ (dir.events = none ∨ ∃ part rest occurredAt, dir.events = some part ∧
    part ++ rest = (creation.entry occurredAt).line runId none ∧ rest ≠ "")

/-- A log of one torn line is refused. -/
theorem readRun_torn {runId part rest : String} {entry : Entry} {dir : RunDir}
    (text : part ++ rest = entry.line runId none) (proper : rest ≠ "") (present : dir.events = some part) :
    ∃ e, readRun runId dir = .error e := by
  by_cases empty : part = ""
  · have read : readEvents runId dir = .ok [] := by
      simp [readEvents, present, empty, splitLines, splitLinesFrom, readLines]
    refine ⟨⟨.runNotFound, missing runId⟩, ?_⟩
    simp [readRun, read, EventLog.states, raiseIf, raise]
  · have single : Json.OneLine part.toList := by
      intro c hc
      apply line_oneLine runId none entry c
      rw [← text, String.toList_append]
      exact List.mem_append_left _ hc
    have some : part.toList ≠ [] := fun h => empty (String.toList_inj.mp h)
    have unread : loads part = none := Json.loads_prefix text proper
    refine ⟨⟨.corruptRun, atLine "invalid event JSON" 1⟩, ?_⟩
    simp only [readRun, readEvents, present, splitLines, splitLinesFrom_single single [] some, List.nil_append,
      String.ofList_toList, readLines, readLine, unread]
    rfl

theorem creation_interrupted {runId : String} {creation again : Creation} {clock : Clock}
    {occurredAt : DateTime} {dir : RunDir} (valid : again.validate runId = .ok ())
    (stamped : clock.stamp = .ok occurredAt) (interrupted : Interrupted runId creation dir) :
    (∃ value, (again.call runId clock dir).2 = .ok value) ↔ dir.events = none := by
  constructor
  · rintro ⟨value, returned⟩
    rcases interrupted.2 with empty | ⟨part, rest, t, present, text, proper⟩
    · exact empty
    · have exists' : ¬ dir.events = none := by simp [present]
      obtain ⟨e, torn⟩ := @readRun_torn _ runId part rest _ { dir with created := true } text proper present
      simp only [Creation.call, valid, if_neg exists', loadUnlocked, torn] at returned
      cases returned
  · intro empty
    rw [creation_founded runId again clock dir empty valid stamped]
    exact ⟨_, rfl⟩

theorem unfinished_accepts {runId : String} {entry : Entry} {s : RunSnapshot} {dir : RunDir}
    (ok : extend runId none entry = .ok s) (present : dir.events = some (entry.line runId none))
    (bare : dir.checkpoint = none) :
    Accepts runId dir [(entry.event runId none).sorted] [s] s where
  read := by
    have single := line_oneLine runId none entry
    have some := line_ne_nil runId none entry
    have line := readLine_line runId none entry
    simp only [nextSequence_none, previousHashOf] at line
    simp only [readEvents, present, splitLines, splitLinesFrom_single single [] (by simpa using some),
      List.nil_append, String.ofList_toList, readLines, line, Except.ok_bind, pure, Except.pure]
  replays := by
    have first : apply none (entry.event runId none).sorted = .ok s := by
      rw [apply_canonical]
      exact ok
    simp only [EventLog.states, first, Except.ok_bind, pure, Except.pure]
  last := rfl
  checkpoint := by
    intro text h
    cases bare.symm.trans h

theorem unfinished_torn (runId : String) (entry : Entry) : ¬ EndsLine (entry.line runId none) := by
  have single := line_oneLine runId none entry
  rintro (feed | carriage)
  · exact (single _ (List.mem_of_getLast? feed)).1 rfl
  · exact (single _ (List.mem_of_getLast? carriage)).2 rfl

/-- Starting such a run returns, and leaves a log that is read no more. -/
theorem unfinished_wedged {runId : String} {entry : Entry} {s : RunSnapshot} {dir : RunDir} (now : DateTime)
    (ok : extend runId none entry = .ok s) (present : dir.events = some (entry.line runId none))
    (bare : dir.checkpoint = none) (exists' : dir.created = true) (safe : safeId runId = true)
    (created : s.state = .created) (unused : s.Unused "start") :
    ∃ value, ((Operation.start "start").call runId ⟨.ok now, .ok now⟩ dir).2 = .ok value ∧
      ¬ Sound runId dir ⟨.ok now, .ok now⟩ s (.run (.start "start")) value := by
  have unlocked := (unfinished_accepts ok present bare).loads
  have loaded : (load runId dir).2 = .ok s := by
    rw [load_of_unlocked safe exists']
    exact unlocked
  have allowed : RunState.running ∈ runTransitions s.state := by
    rw [created]
    decide
  have decided : transitionRun s .running none none "start" =
      .ok (.append (.runTransition s.state .running none none)) :=
    transitionRun_append unused allowed (by simp)
  have fits : (Change.runTransition s.state .running none none).Fits s.progress := ⟨rfl, allowed⟩
  obtain ⟨_, _, _, sameCreated, sameEvents⟩ := loadUnlocked_accepts unlocked
  have pair : loadUnlocked runId dir = ((loadUnlocked runId dir).1, .ok s) := by rw [← unlocked]
  generalize (loadUnlocked runId dir).1 = after at *
  have write := @appendUnlocked_appended _ runId s _ "start" now after _ fits unused (sameEvents.trans present)
  have returned : ((Operation.start "start").call runId ⟨.ok now, .ok now⟩ dir).2 =
      .ok (.snapshot (s.advance runId ⟨.runTransition s.state .running none none, "start", now⟩)) := by
    simp only [Operation.call, Operation.validate, Operation.key, Operation.command, Command.verdict,
      decided, pair, write, Command.result, exists', Bool.true_eq_false, if_false]
  refine ⟨_, returned, ?_⟩
  rw [operation_sound_iff loaded present returned]
  rintro (ends | reading)
  · exact unfinished_torn runId entry ends
  · exact reading unused.2

end Onmc.DurableRuntime
