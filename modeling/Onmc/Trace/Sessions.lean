import Onmc.NumOrder
import Onmc.Trace.Recorder

/-! What the logs hold of a run of the recorder, and what is read from them. -/
namespace Onmc.Trace

open Onmc.PyValue (Builtins Double)

/-! Records that are read back. -/

theorem get_withText (key k : String) (value : Option String) (record : JsonDict) :
    (withText key value record).get k = if k = key then (value.map JsonValue.str).or (record.get k) else record.get k := by
  cases value with
  | none => simp [withText]
  | some text => simp [withText, JsonDict.get_set]

theorem get_toRecord (e : TraceEvent) (key : String) : e.toRecord.get key =
    if key = "parent_span_id" then e.parentSpanId.map JsonValue.str
    else if key = "span_id" then e.spanId.map JsonValue.str
    else if key = "payload" then some (.dict e.payload)
    else if key = "ts" then some (.num e.ts.num)
    else if key = "kind" then some (.str e.kind)
    else none := by
  simp only [TraceEvent.toRecord, get_withText, JsonDict.get_set]
  split
  · rename_i same
    simp [same]
  · split
    · rename_i same
      simp [same]
    · rfl

section

variable [Builtins]

/-- A text that is not blank, without the space around it. -/
def trimmed (value : Option String) : Option String :=
  value.bind (fun text => if PyText.strip text = "" then none else some (PyText.strip text))

/-- An event as it is read: the ids of its spans are stripped. -/
def TraceEvent.readBack (e : TraceEvent) : TraceEvent :=
  { e with spanId := trimmed e.spanId, parentSpanId := trimmed e.parentSpanId }

theorem optionalString_str (value : Option String) : optionalString (value.map JsonValue.str) = trimmed value := by
  cases value with
  | none => rfl
  | some text => rfl

theorem floatAt_num {record : JsonDict} {key : String} {x default : Double}
    (found : record.get key = some (.num x.num)) : floatAt record key default = some x := by
  simp only [floatAt, found]
  exact PyValue.float_num x

theorem strAt_str {record : JsonDict} {key text default : String} (found : record.get key = some (.str text)) :
    strAt record key default = text := by
  simp only [strAt, found]
  rfl

theorem eventFromRecord_toRecord (now : Double) (e : TraceEvent) :
    eventFromRecord now e.toRecord = some e.readBack := by
  have ts : floatAt e.toRecord "ts" now = some e.ts := floatAt_num (by simp [get_toRecord])
  have kind : strAt e.toRecord "kind" "generic" = e.kind := strAt_str (by simp [get_toRecord])
  have payload : PyValue.dict (JsonValue.dict e.payload).json = some e.payload := by
    simp [PyValue.dict, JsonValue.load_json]
  have span : e.toRecord.get "span_id" = e.spanId.map JsonValue.str := by simp [get_toRecord]
  have parent : e.toRecord.get "parent_span_id" = e.parentSpanId.map JsonValue.str := by simp [get_toRecord]
  have stored : e.toRecord.get "payload" = some (.dict e.payload) := by simp [get_toRecord]
  simp only [eventFromRecord, ts, stored, payload, kind, span, parent, optionalString_str, Option.bind_eq_bind,
    Option.bind_some, Option.pure_def]
  rfl

theorem sessionFromRecord_toRecord (s : TraceSession) : sessionFromRecord s.toRecord = some s := by
  have id : s.toRecord.get "session_id" = some (.str s.sessionId) := by simp [TraceSession.toRecord, JsonDict.get_set]
  have started : s.toRecord.get "started_at" = some (.num s.startedAt.num) := by
    simp [TraceSession.toRecord, JsonDict.get_set]
  have label : strAt s.toRecord "label" "" = s.label := strAt_str (by simp [TraceSession.toRecord])
  have ended : s.toRecord.get "ended_at" = some (JsonValue.opt (fun x : Double => .num x.num) s.endedAt) := by
    simp [TraceSession.toRecord, JsonDict.get_set]
  have float (x : Double) : PyValue.float (JsonValue.num x.num).json = some x := PyValue.float_num x
  obtain ⟨sessionId, startedAt, endedAt, text⟩ := s
  simp only [sessionFromRecord, id, started, label, ended, float, Option.bind_eq_bind, Option.bind_some, Option.pure_def]
  cases endedAt with
  | none => rfl
  | some x =>
    have known : PyValue.float (.num x.num) = some x := PyValue.float_num x
    simp only [JsonValue.opt, JsonValue.num, known]
    rfl

/-! The lines of a log. -/

/-- What is in a log after the envelope. -/
inductive Entry
  | event (e : TraceEvent)
  | closed (sessionId : String) (now : Decimal)

def Entry.toRecord : Entry → JsonDict
  | .event e => e.toRecord
  | .closed sessionId now => tombstone sessionId (.ofDecimal now)

def eventsOf (entries : List Entry) : List TraceEvent :=
  entries.filterMap (fun
    | .event e => some e
    | .closed _ _ => none)

/-- When a session was closed last. -/
def closedAt (start : Option Double) (entries : List Entry) : Option Double :=
  entries.foldl (fun ended entry =>
    match entry with
    | .event _ => ended
    | .closed _ now => some (.ofDecimal now)) start

structure Book where
  session : TraceSession
  entries : List Entry

def Book.records (b : Book) : List JsonDict := b.session.toRecord :: b.entries.map Entry.toRecord

/-- The session as it is read. -/
def Book.closed (b : Book) : TraceSession := { b.session with endedAt := closedAt b.session.endedAt b.entries }

theorem readRecord_event (now : Double) (r : Reading) (e : TraceEvent) :
    readRecord now r (.dict e.toRecord) = some { r with events := r.events ++ [e.readBack] } := by
  have kind : e.toRecord.get "_type" = none := by simp [get_toRecord]
  simp [readRecord, kind, eventFromRecord_toRecord]

theorem readRecord_closed (now : Double) (s : TraceSession) (events : List TraceEvent) (sessionId : String)
    (moment : Decimal) : readRecord now ⟨some s, events⟩ (.dict (tombstone sessionId (.ofDecimal moment))) =
      some ⟨some { s with endedAt := some (.ofDecimal moment) }, events⟩ := by
  have kind : (tombstone sessionId (.ofDecimal moment)).get "_type" = some (.str "session_end") := by
    simp [tombstone, JsonDict.get_set]
  have ended : floatAt (tombstone sessionId (.ofDecimal moment)) "ended_at" (endedOrZero s) = some (.ofDecimal moment) :=
    floatAt_num (by simp [tombstone])
  simp [readRecord, kind, ended]

theorem readRecord_session (now : Double) (events : List TraceEvent) (s : TraceSession) :
    readRecord now ⟨none, events⟩ (.dict s.toRecord) = some ⟨some s, events⟩ := by
  have kind : s.toRecord.get "_type" = some (.str "session") := by simp [TraceSession.toRecord, JsonDict.get_set]
  simp [readRecord, kind, sessionFromRecord_toRecord]

theorem readLines_cons {now : Double} {r r' : Reading} {record : JsonDict} (rest : List String)
    (reads : readRecord now r (.dict record) = some r') :
    readLines now r (Json.dumpsAscii (JsonValue.dict record).json :: rest) = readLines now r' rest := by
  have some : Json.dumpsAscii (JsonValue.dict record).json ≠ "" := by
    intro empty
    apply Json.dumpsAscii_ne_nil (JsonValue.dict record).json
    rw [empty]
    rfl
  simp only [readLines, JsonLines.strip_dumps, some, if_false, JsonLines.read_dumps, Option.bind_some, reads]

theorem readLines_entries (now : Double) (s : TraceSession) (events : List TraceEvent) (entries : List Entry) :
    readLines now ⟨some s, events⟩ (entries.map (fun e => Json.dumpsAscii (JsonValue.dict e.toRecord).json)) =
      (⟨some { s with endedAt := closedAt s.endedAt entries },
        events ++ (eventsOf entries).map TraceEvent.readBack⟩, true) := by
  induction entries generalizing s events with
  | nil => simp [readLines, closedAt, eventsOf]
  | cons entry entries ih =>
    rw [List.map_cons]
    cases entry with
    | event e =>
      rw [Entry.toRecord, readLines_cons _ (readRecord_event now _ e), ih]
      simp [closedAt, eventsOf]
    | closed sessionId moment =>
      rw [Entry.toRecord, readLines_cons _ (readRecord_closed now s events sessionId moment), ih]
      simp [closedAt, eventsOf]

theorem readLines_book (now : Double) (b : Book) :
    readLines now ⟨none, []⟩ (Lines.splitlines (JsonLines.write b.records)) =
      (⟨some b.closed, (eventsOf b.entries).map TraceEvent.readBack⟩, true) := by
  have whole := readLines_entries now b.session [] b.entries
  rw [JsonLines.splitlines_write, Book.records, List.map_cons, readLines_cons _ (readRecord_session now [] b.session),
    List.map_map]
  exact whole

end

/-! What a run leaves. -/

theorem isHex_visible {c : Char} (hex : isHex c = true) : PyText.isSpace c = false := by
  simp only [isHex, Bool.or_eq_true, Bool.and_eq_true, decide_eq_true_eq] at hex
  have range : (48 ≤ c.toNat ∧ c.toNat ≤ 57) ∨ (97 ≤ c.toNat ∧ c.toNat ≤ 102) := hex
  simp only [PyText.isSpace, Bool.or_eq_false_iff, Bool.and_eq_false_iff, decide_eq_false_iff_not, beq_eq_false_iff_ne]
  omega

/-- Text without space is what is left of its line. -/
theorem stripChars_line {cs : List Char} (visible : ∀ c ∈ cs, PyText.isSpace c = false) (some : cs ≠ []) :
    PyText.stripChars (cs ++ ['\n']) = cs := by
  have start : (cs ++ ['\n']).dropWhile PyText.isSpace = cs ++ ['\n'] := by
    apply PyText.dropWhile_self
    intro c first
    cases cs with
    | nil => exact absurd rfl some
    | cons d ds =>
      obtain rfl : d = c := by simpa using first
      exact visible d List.mem_cons_self
  have back : cs.reverse.dropWhile PyText.isSpace = cs.reverse := by
    apply PyText.dropWhile_self
    intro c first
    exact visible c (List.mem_reverse.mp (List.mem_of_head? first))
  have feed : PyText.isSpace '\n' = true := by decide
  rw [PyText.stripChars, start, List.reverse_append, List.reverse_singleton, List.singleton_append,
    List.dropWhile_cons_of_pos feed, back, List.reverse_reverse]

theorem strip_pointer (token : Token) :
    PyText.strip (newSessionId token ++ "\n") = newSessionId token ∧ newSessionId token ≠ "" := by
  have chars : (newSessionId token).toList = 't' :: 'r' :: '_' :: token.text.toList := by simp [newSessionId]
  have visible : ∀ c ∈ (newSessionId token).toList, PyText.isSpace c = false := by
    intro c member
    rw [chars] at member
    have fixed : PyText.isSpace 't' = false ∧ PyText.isSpace 'r' = false ∧ PyText.isSpace '_' = false := by decide
    simp only [List.mem_cons] at member
    rcases member with rfl | rfl | rfl | hex
    · exact fixed.1
    · exact fixed.2.1
    · exact fixed.2.2
    · exact isHex_visible (List.all_eq_true.mp token.hex c hex)
  have some : (newSessionId token).toList ≠ [] := by simp [chars]
  constructor
  · rw [PyText.strip, String.toList_append, show "\n".toList = ['\n'] from rfl, stripChars_line visible some,
      String.ofList_toList]
  · intro empty
    rw [empty] at some
    exact some rfl

/-- The sessions that there are, each with what has been written to its log, and the one under way. -/
structure Observatory (F : Type) where
  current : Option Token
  books : F → Option Book

section

variable {F : Type} [DecidableEq F] (layout : Layout F)

def Observatory.put (o : Observatory F) (file : F) (book : Option Book) : Observatory F :=
  { o with books := fun f => if f = file then book else o.books f }

/-- One more entry in a book. -/
def Book.add (entry : Entry) (b : Book) : Book := { b with entries := b.entries ++ [entry] }

def Observatory.step (o : Observatory F) : Op → Observatory F
  | .start token now label =>
    { o.put (layout.sessionFile (newSessionId token))
        (some ⟨⟨newSessionId token, .ofDecimal now, none, label⟩, []⟩) with current := some token }
  | .record event span =>
    match o.current with
    | none => o
    | some token =>
      let file := layout.sessionFile (newSessionId token)
      o.put file ((o.books file).map (Book.add (.event (event.within span))))
  | .stop sessionId now =>
    match sessionId.or (o.current.map newSessionId) with
    | none => o
    | some sessionId =>
      let file := layout.sessionFile sessionId
      if (o.books file).isNone then o
      else { o.put file ((o.books file).map (Book.add (.closed sessionId now))) with current := none }

/-- The files are those of the observatory, and the session under way has a log. -/
structure Shows (t : Traces F) (o : Observatory F) : Prop where
  current : t.current = o.current.map (fun token => newSessionId token ++ "\n")
  logs : ∀ f, t.logs f = (o.books f).map (fun b => JsonLines.write b.records)
  kept : ∀ token, o.current = some token → (o.books (layout.sessionFile (newSessionId token))).isSome

variable {layout}

omit [DecidableEq F] in
theorem Shows.stripped {t : Traces F} {o : Observatory F} (shows : Shows layout t o) :
    t.current.map PyText.strip = o.current.map newSessionId := by
  rw [shows.current]
  cases o.current with
  | none => rfl
  | some token => simp [strip_pointer token]

omit [DecidableEq F] in
theorem Shows.currentSessionId {t : Traces F} {o : Observatory F} (shows : Shows layout t o) :
    currentSessionId t = o.current.map newSessionId := by
  simp only [Trace.currentSessionId, shows.current]
  cases o.current with
  | none => rfl
  | some token => simp [strip_pointer token]

/-- A line at the end of a log is an entry at the end of its book. -/
theorem write_add (book : Option Book) (there : book.isSome) (entry : Entry) :
    some ((book.map (fun b => JsonLines.write b.records)).getD "" ++ JsonLines.line entry.toRecord) =
      (book.map (Book.add entry)).map (fun b => JsonLines.write b.records) := by
  obtain ⟨b, rfl⟩ := Option.isSome_iff_exists.mp there
  have records : (Book.add entry b).records = b.records ++ [entry.toRecord] := by simp [Book.add, Book.records]
  simp only [Option.map_some, Option.getD_some, records, JsonLines.write_append]

theorem shows_step {t : Traces F} {o : Observatory F} (shows : Shows layout t o) (op : Op) :
    Shows layout (step layout t op) (o.step layout op) := by
  have stripped := shows.stripped
  cases op with
  | start token now label =>
    refine ⟨rfl, ?_, ?_⟩
    · intro f
      simp only [step, startSession, Traces.write, Observatory.step, Observatory.put]
      split
      · simp [JsonLines.write, Book.records]
      · exact shows.logs f
    · intro token' same
      obtain rfl := Option.some.inj same
      simp [Observatory.step, Observatory.put]
  | record event span =>
    simp only [step, recordTraceEvent, Observatory.step, shows.current]
    cases current : o.current with
    | none => exact shows
    | some token =>
      have book := shows.kept token current
      simp only [Option.map_some, strip_pointer token, if_false]
      refine ⟨?_, ?_, ?_⟩
      · simp [Traces.append, Traces.write, Observatory.put, shows.current, current]
      · intro f
        simp only [Traces.append, Traces.write, Observatory.put, shows.logs]
        split
        · exact write_add _ book (.event (event.within span))
        · rfl
      · intro token' same
        simp only [Observatory.put] at same ⊢
        split
        · simpa using book
        · exact shows.kept token' same
  | stop sessionId now =>
    simp only [step, stopSession, Observatory.step, stripped]
    cases named : sessionId.or (o.current.map newSessionId) with
    | none => exact shows
    | some id =>
      simp only [shows.logs, Option.isNone_map]
      split
      · exact shows
      · rename_i there
        have book : (o.books (layout.sessionFile id)).isSome := by simpa [Option.isSome_iff_ne_none] using there
        refine ⟨rfl, ?_, ?_⟩
        · intro f
          simp only [Traces.append, Traces.write, Observatory.put, shows.logs]
          split
          · exact write_add _ book (.closed id now)
          · rfl
        · intro token same
          cases same

variable (layout)

/-- Every start of the run finds no log under its new id. -/
def FreshStarts (t : Traces F) : List Op → Prop
  | [] => True
  | op :: ops =>
    (match op with
      | .start token _ _ => t.logs (layout.sessionFile (newSessionId token)) = none
      | _ => True) ∧ FreshStarts (step layout t op) ops

/-- The events of a run that are recorded while a session is the current one. -/
def recorded (sessionId : String) (t : Traces F) : List Op → List TraceEvent
  | [] => []
  | op :: ops =>
    (match op with
      | .record event span => if currentSessionId t = some sessionId then [event.within span] else []
      | _ => []) ++ recorded sessionId (step layout t op) ops

end

section

variable {F : Type} [DecidableEq F] (layout : Layout F)

/-- The events in the book of a file. -/
def Observatory.eventsAt (o : Observatory F) (file : F) : List TraceEvent :=
  match o.books file with
  | none => []
  | some b => eventsOf b.entries

variable {layout}

theorem eventsAt_step {t : Traces F} {o : Observatory F} (shows : Shows layout t o) (token : Token) {op : Op}
    {ops : List Op} (fresh : FreshStarts layout t (op :: ops)) :
    (o.step layout op).eventsAt (layout.sessionFile (newSessionId token)) =
      o.eventsAt (layout.sessionFile (newSessionId token)) ++
        recorded layout (newSessionId token) t [op] := by
  cases op with
  | start token' now label =>
    have unwritten : o.books (layout.sessionFile (newSessionId token')) = none := by
      have free := fresh.1
      simpa [shows.logs] using free
    simp only [Observatory.step, Observatory.put, Observatory.eventsAt, recorded, List.append_nil]
    by_cases same : layout.sessionFile (newSessionId token) = layout.sessionFile (newSessionId token')
    · simp [same, unwritten, eventsOf]
    · simp only [if_neg same]
  | record event span =>
    simp only [Observatory.step, recorded, shows.currentSessionId, List.append_nil]
    cases current : o.current with
    | none => simp
    | some token' =>
      obtain ⟨b, book⟩ := Option.isSome_iff_exists.mp (shows.kept token' current)
      simp only [Option.map_some, Option.some.injEq, Observatory.put, Observatory.eventsAt]
      by_cases same : newSessionId token' = newSessionId token
      · rw [same] at book
        simp [same, book, Book.add, eventsOf]
      · have other : layout.sessionFile (newSessionId token) ≠ layout.sessionFile (newSessionId token') :=
          fun equal => same (layout.distinct token' token equal.symm)
        simp [same, other]
  | stop sessionId now =>
    simp only [Observatory.step, recorded, List.append_nil]
    split
    · rfl
    · rename_i id named
      split
      · rfl
      · simp only [Observatory.put, Observatory.eventsAt]
        by_cases same : layout.sessionFile (newSessionId token) = layout.sessionFile id
        · rw [if_pos same, same]
          cases o.books (layout.sessionFile id) with
          | none => rfl
          | some b => simp [Book.add, eventsOf]
        · rw [if_neg same]

theorem recorded_cons (sessionId : String) (t : Traces F) (op : Op) (ops : List Op) :
    recorded layout sessionId t (op :: ops) =
      recorded layout sessionId t [op] ++ recorded layout sessionId (step layout t op) ops := by
  simp [recorded]

theorem run_shows {t : Traces F} {o : Observatory F} (shows : Shows layout t o) (ops : List Op) :
    ∃ o', Shows layout (run layout t ops) o' := by
  induction ops generalizing t o with
  | nil => exact ⟨o, shows⟩
  | cons op ops ih => exact ih (shows_step shows op)

/-- A run adds to the book of a session what is recorded in it while the session is the current one. -/
theorem recorded_run {t : Traces F} {o : Observatory F} (shows : Shows layout t o) (token : Token) {ops : List Op}
    (fresh : FreshStarts layout t ops) :
    ∃ o', Shows layout (run layout t ops) o' ∧ o'.eventsAt (layout.sessionFile (newSessionId token)) =
      o.eventsAt (layout.sessionFile (newSessionId token)) ++ recorded layout (newSessionId token) t ops := by
  induction ops generalizing t o with
  | nil => exact ⟨o, shows, by simp [recorded]⟩
  | cons op ops ih =>
    obtain ⟨o', after, events⟩ := ih (shows_step shows op) fresh.2
    refine ⟨o', after, ?_⟩
    rw [events, eventsAt_step shows token fresh, recorded_cons _ _ _ ops, List.append_assoc]

omit [DecidableEq F] in
theorem shows_none : Shows layout .none ⟨none, fun _ => none⟩ := ⟨rfl, fun _ => rfl, nofun⟩

end

/-! What is loaded. -/

/-- One event is not after another. -/
def NotAfter (a b : TraceEvent) : Prop := b.ts.num.lt a.ts.num = false

instance : DecidableRel NotAfter := fun _ _ => inferInstanceAs (Decidable (_ = false))

/-- The events of a log in the order of their times, and what was in this order before still is. -/
structure Ordered (logged events : List TraceEvent) : Prop where
  all : events.Perm logged
  sorted : (∀ e ∈ logged, e.ts.num ≠ .nan) → events.Pairwise NotAfter
  stable : ∀ some, List.Sublist some logged → some.Pairwise NotAfter → List.Sublist some events

theorem ordered_sortByTs (logged : List TraceEvent) : Ordered logged (sortByTs logged) := by
  have ranked (real : ∀ e ∈ logged, e.ts.num ≠ .nan) :
      sortByTs logged = logged.insertionSort (fun a b => a.ts.num.rank ≤ b.ts.num.rank) := by
    have agree : ∀ a ∈ logged, ∀ b ∈ logged, NotAfter a b ↔ (id a).ts.num.rank ≤ (id b).ts.num.rank :=
      fun a first b second => Num.lt_eq_false_iff (real a first) (real b second)
    have same := List.map_insertionSort NotAfter (fun a b : TraceEvent => a.ts.num.rank ≤ b.ts.num.rank) id logged agree
    simp only [List.map_id] at same
    exact same
  have total : Std.Total (fun a b : TraceEvent => a.ts.num.rank ≤ b.ts.num.rank) := ⟨fun a b => le_total _ _⟩
  have trans : IsTrans TraceEvent (fun a b => a.ts.num.rank ≤ b.ts.num.rank) := ⟨fun _ _ _ => le_trans⟩
  have perm : (sortByTs logged).Perm logged := List.perm_insertionSort _ _
  refine ⟨perm, fun real => ?_, fun some part ordered => List.sublist_insertionSort ordered part⟩
  have sorted := List.pairwise_insertionSort (fun a b : TraceEvent => a.ts.num.rank ≤ b.ts.num.rank) logged
  rw [← ranked real] at sorted
  apply sorted.imp_of_mem
  intro a b first second before
  exact (Num.lt_eq_false_iff (real a (perm.subset first)) (real b (perm.subset second))).mpr before

section

variable [Builtins] {F : Type} [DecidableEq F] (layout : Layout F)

/-- What is read of a session: its events, with the notifications of its time if they are asked for. -/
structure Loaded (kept : List TraceEvent) (includeNotifyWindow : Bool)
    (loaded : Option TraceSession × List TraceEvent) : Prop where
  session : loaded.1.isSome
  events : ∃ more, (includeNotifyWindow = false → more = []) ∧
    Ordered (kept.map TraceEvent.readBack ++ more) loaded.2

theorem loaded_run {ops : List Op} (fresh : FreshStarts layout .none ops) (token : Token) (includeNotifyWindow : Bool)
    (notify : Option String) (now : Double) :
    let kept := recorded layout (newSessionId token) .none ops
    let loaded := loadSessionEvents layout (run layout .none ops) (newSessionId token) includeNotifyWindow notify now
    Loaded kept includeNotifyWindow loaded ∨ (kept = [] ∧ loaded = (none, [])) := by
  intro kept loaded
  obtain ⟨o, shows, events⟩ := recorded_run shows_none token fresh
  have read : loaded = loadSessionEvents layout (run layout .none ops) (newSessionId token) includeNotifyWindow notify now := rfl
  rw [loadSessionEvents, shows.logs] at read
  cases book : o.books (layout.sessionFile (newSessionId token)) with
  | none =>
    right
    constructor
    · simpa [Observatory.eventsAt, book] using events.symm
    · simpa [book] using read
  | some b =>
    left
    have own : eventsOf b.entries = kept := by simpa [Observatory.eventsAt, book] using events
    simp only [book, Option.map_some, readLines_book, own, Bool.not_true, Bool.false_eq_true, if_false] at read
    rw [read]
    refine ⟨rfl, _, ?_, ordered_sortByTs _⟩
    intro alone
    simp [alone]

end

/-! Some runs. -/

/-- The logs of `.onmc/traces`, by their names. -/
def tracesDir : Layout String where
  sessionFile id := id ++ ".jsonl"
  distinct a b same := by simpa using same

def tokenA : Token := ⟨"a", by decide⟩

def tokenB : Token := ⟨"b", by decide⟩

def second (n : Int) : Decimal := .ofInt n

def moment (n : Int) : TraceEvent := ⟨"generic", .ofDecimal (second n), .empty, none, none⟩

/-- Two sessions, the one that started last recording an event at four and then one at three. -/
def twoSessions : List Op :=
  [.start tokenA (second 1) "a", .start tokenB (second 2) "b", .record (moment 4) none, .record (moment 3) none]

theorem twoSessions_fresh : FreshStarts tracesDir .none twoSessions := by
  refine ⟨rfl, ?_, trivial, trivial, trivial⟩
  rfl

/-- No text of Python is a number, and nothing but a dict is one. -/
@[reducible] def plainBuiltins : Builtins := ⟨fun _ => "", fun _ => none, fun _ => none⟩

section

attribute [local instance] plainBuiltins

end

end Onmc.Trace
