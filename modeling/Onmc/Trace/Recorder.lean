import Mathlib.Data.List.Sort
import Onmc.JsonLines
import Onmc.PyValue

/-! The trace recorder: one log a session, and a file that names the session under way. -/
namespace Onmc.Trace

open Onmc.PyValue (Builtins Double)

structure TraceEvent where
  kind : String
  ts : Double
  payload : JsonDict
  spanId : Option String
  parentSpanId : Option String

structure TraceSession where
  sessionId : String
  startedAt : Double
  endedAt : Option Double
  label : String

/-! Writing. -/

def withText (key : String) (value : Option String) (record : JsonDict) : JsonDict :=
  match value with
  | none => record
  | some text => record.set key (.str text)

def TraceEvent.toRecord (e : TraceEvent) : JsonDict :=
  let record := JsonDict.empty.set "kind" (.str e.kind)
  let record := record.set "ts" (.num e.ts.num)
  let record := record.set "payload" (.dict e.payload)
  withText "parent_span_id" e.parentSpanId (withText "span_id" e.spanId record)

def TraceSession.toRecord (s : TraceSession) : JsonDict :=
  let record := JsonDict.empty.set "_type" (.str "session")
  let record := record.set "session_id" (.str s.sessionId)
  let record := record.set "started_at" (.num s.startedAt.num)
  let record := record.set "ended_at" (JsonValue.opt (fun x : Double => .num x.num) s.endedAt)
  record.set "label" (.str s.label)

/-- `{"_type": "session_end", …}` -/
def tombstone (sessionId : String) (now : Double) : JsonDict :=
  let record := JsonDict.empty.set "_type" (.str "session_end")
  let record := record.set "session_id" (.str sessionId)
  record.set "ended_at" (.num now.num)

/-! Reading; nothing where Python raises. -/

section

variable [Builtins]

/-- `_optional_string` -/
def optionalString : Option JsonValue → Option String
  | none | some ⟨.null, _⟩ => none
  | some v =>
    let rendered := PyText.strip (PyValue.str v.json)
    if rendered = "" then none else some rendered

/-- `float(record.get(key, default))` -/
def floatAt (record : JsonDict) (key : String) (default : Double) : Option Double :=
  match record.get key with
  | none => some default
  | some v => PyValue.float v.json

/-- `str(record.get(key, default))` -/
def strAt (record : JsonDict) (key default : String) : String :=
  match record.get key with
  | none => default
  | some v => PyValue.str v.json

/-- `TraceEvent.from_record`, at a time of the clock. -/
def eventFromRecord (now : Double) (record : JsonDict) : Option TraceEvent := do
  let ts ← floatAt record "ts" now
  let payload ← match record.get "payload" with
    | none => some .empty
    | some v => PyValue.dict v.json
  return ⟨strAt record "kind" "generic", ts, payload, optionalString (record.get "span_id"),
    optionalString (record.get "parent_span_id")⟩

/-- `TraceEvent.from_notify_record` -/
def eventFromNotifyRecord (now : Double) (record : JsonDict) : Option TraceEvent := do
  let ts ← floatAt record "ts" now
  let payload := JsonDict.empty.set "title" ((record.get "title").getD (.str ""))
  let payload := payload.set "detail" ((record.get "detail").getD (.str ""))
  let payload := payload.set "severity" ((record.get "severity").getD (.str "routine"))
  return ⟨strAt record "kind" "generic", ts, payload, optionalString (record.get "span_id"),
    optionalString (record.get "parent_span_id")⟩

/-- `TraceSession.from_record` -/
def sessionFromRecord (record : JsonDict) : Option TraceSession := do
  let sessionId ← record.get "session_id"
  let started ← record.get "started_at"
  let startedAt ← PyValue.float started.json
  let endedAt ← match record.get "ended_at" with
    | none | some ⟨.null, _⟩ => some none
    | some v => (PyValue.float v.json).map some
  return ⟨PyValue.str sessionId.json, startedAt, endedAt, strAt record "label" ""⟩

/-- `session.ended_at or 0` -/
def endedOrZero (s : TraceSession) : Double :=
  match s.endedAt with
  | none => .ofDecimal (.ofInt 0)
  | some x => if x.num.eq (.int 0) then .ofDecimal (.ofInt 0) else x

/-- The session and the events of the lines so far. -/
structure Reading where
  session : Option TraceSession
  events : List TraceEvent

def readRecord (now : Double) (r : Reading) (value : JsonValue) : Option Reading := do
  let record ← value.asDict
  let recType := (record.get "_type").bind JsonValue.asStr
  if recType = some "session" then
    let session ← sessionFromRecord record
    return { r with session := some session }
  else if recType = some "session_end" then
    match r.session with
    | none => return r
    | some session =>
      let ended ← floatAt record "ended_at" (endedOrZero session)
      return { r with session := some { session with endedAt := some ended } }
  else
    let event ← eventFromRecord now record
    return { r with events := r.events ++ [event] }

/-- The lines up to the first that raises, and whether there was none. -/
def readLines (now : Double) (r : Reading) : List String → Reading × Bool
  | [] => (r, true)
  | raw :: rest =>
    let line := PyText.strip raw
    if line = "" then readLines now r rest
    else
      match (JsonLines.read line).bind (readRecord now r) with
      | none => (r, false)
      | some r => readLines now r rest

/-- The notifications between two instants, up to the first line that raises. -/
def notified (now since upTo : Double) : List String → List TraceEvent
  | [] => []
  | raw :: rest =>
    let line := PyText.strip raw
    if line = "" then notified now since upTo rest
    else
      match (JsonLines.read line).bind JsonValue.asDict with
      | none => []
      | some record =>
        match floatAt record "ts" (.ofDecimal (.ofInt 0)) with
        | none => []
        | some ts =>
          if since.num.le ts.num && ts.num.le upTo.num then
            match eventFromNotifyRecord now record with
            | none => []
            | some event => event :: notified now since upTo rest
          else notified now since upTo rest

end

/-- `events.sort(key=lambda e: e.ts)` -/
def sortByTs (events : List TraceEvent) : List TraceEvent :=
  events.insertionSort (fun a b => b.ts.num.lt a.ts.num = false)

/-! The files. -/

def isHex (c : Char) : Bool := ('0' ≤ c && c ≤ '9') || ('a' ≤ c && c ≤ 'f')

/-- What `secrets.token_hex(8)` draws. -/
structure Token where
  text : String
  hex : text.toList.all isHex = true

def newSessionId (token : Token) : String := "tr_" ++ token.text

/-- The file of `_session_file(repo_root, session_id)`; the ids of two new sessions name one file only if they
are one. -/
structure Layout (F : Type) where
  sessionFile : String → F
  distinct : ∀ a b : Token, sessionFile (newSessionId a) = sessionFile (newSessionId b) →
    newSessionId a = newSessionId b

/-- The texts of `traces/current` and of the logs, where they are there. -/
structure Traces (F : Type) where
  current : Option String
  logs : F → Option String

def Traces.none {F : Type} : Traces F := ⟨.none, fun _ => .none⟩

section

variable {F : Type} [DecidableEq F] (layout : Layout F)

def Traces.write (t : Traces F) (file : F) (text : String) : Traces F :=
  { t with logs := fun f => if f = file then some text else t.logs f }

/-- `open("a")` and a write -/
def Traces.append (t : Traces F) (file : F) (text : String) : Traces F :=
  t.write file ((t.logs file).getD "" ++ text)

def startSession (t : Traces F) (token : Token) (now : Decimal) (label : String) : Traces F :=
  let sessionId := newSessionId token
  let session : TraceSession := ⟨sessionId, .ofDecimal now, .none, label⟩
  { t.write (layout.sessionFile sessionId) (JsonLines.line session.toRecord) with current := some (sessionId ++ "\n") }

/-- What it returns, and the files afterwards. -/
def stopSession (t : Traces F) (sessionId : Option String) (now : Decimal) : Bool × Traces F :=
  match sessionId.or (t.current.map PyText.strip) with
  | .none => (false, t)
  | some sessionId =>
    let file := layout.sessionFile sessionId
    if (t.logs file).isNone then (false, t)
    else (true, { t.append file (JsonLines.line (tombstone sessionId (.ofDecimal now))) with current := .none })

/-- The parent that the context knows goes into an event without one. -/
def TraceEvent.within (e : TraceEvent) (span : Option String) : TraceEvent :=
  { e with parentSpanId := e.parentSpanId.or span }

def recordTraceEvent (t : Traces F) (event : TraceEvent) (span : Option String) : Traces F :=
  match t.current with
  | .none => t
  | some text =>
    let sessionId := PyText.strip text
    if sessionId = "" then t
    else t.append (layout.sessionFile sessionId) (JsonLines.line (event.within span).toRecord)

def currentSessionId (t : Traces F) : Option String :=
  match t.current with
  | .none => .none
  | some text => if PyText.strip text = "" then .none else some (PyText.strip text)

/-- The session, if its log tells of one, and the events; `notify` is the text of `notify.log`. -/
def loadSessionEvents [Builtins] (t : Traces F) (sessionId : String) (includeNotifyWindow : Bool)
    (notify : Option String) (now : Double) : Option TraceSession × List TraceEvent :=
  match t.logs (layout.sessionFile sessionId) with
  | .none => (.none, [])
  | some text =>
    let (r, complete) := readLines now ⟨.none, []⟩ (Lines.splitlines text)
    if !complete then (r.session, r.events)
    else
      match r.session with
      | .none => (.none, r.events)
      | some session =>
        let more := if includeNotifyWindow then
            notified now session.startedAt (session.endedAt.getD now) ((notify.map Lines.splitlines).getD [])
          else []
        (some session, sortByTs (r.events ++ more))

/-! Runs. -/

inductive Op
  | start (token : Token) (now : Decimal) (label : String)
  | record (event : TraceEvent) (span : Option String)
  | stop (sessionId : Option String) (now : Decimal)

def step (t : Traces F) : Op → Traces F
  | .start token now label => startSession layout t token now label
  | .record event span => recordTraceEvent layout t event span
  | .stop sessionId now => (stopSession layout t sessionId now).2

def run (t : Traces F) (ops : List Op) : Traces F := ops.foldl (step layout) t

end

end Onmc.Trace
