import Onmc.WorkingContext.Engine

/-! Rendering a packet within its budget, and the operations on a stored session. -/
namespace Onmc.WorkingContext

/-- The text so far, with what rendering it has gathered. -/
structure Draft where
  markdown : String
  warnings : List String
  hashes : List (String × String)
  noteDropped : Nat
  selected : List ContextItem
  seenTexts : List String
  exclusions : List (String × String)

namespace Draft

/-- `append`: whether the block still fits. -/
def fits (limit : Nat) (block : String) (d : Draft) : Bool := d.markdown.length + block.length ≤ limit

/-- `append(block)`, for its effect on the text. -/
def append (limit : Nat) (block : String) (d : Draft) : Draft :=
  if d.fits limit block then { d with markdown := d.markdown ++ block } else d

def warn (warning : String) (d : Draft) : Draft := { d with warnings := d.warnings ++ [warning] }

def warnIf (condition : Prop) [Decidable condition] (warning : String) (d : Draft) : Draft :=
  if condition then d.warn warning else d

/-- A block that counts as a dropped note when it does not fit. -/
def appendNote (limit : Nat) (block : String) (d : Draft) : Draft :=
  if d.fits limit block then d.append limit block else { d with noteDropped := d.noteDropped + 1 }

def exclude (id reason : String) (d : Draft) : Draft :=
  { d with exclusions := Dict.setItem id reason d.exclusions }

def select (item : ContextItem) (text : String) (d : Draft) : Draft :=
  { d with selected := d.selected ++ [item], seenTexts := text :: d.seenTexts }

end Draft

def withdrawnHeading : String :=
  "\n### Withdrawn evidence\nUse only this packet's memory as current evidence.\n"

def withdrawnLine (item : String × String) : String := "- " ++ item.1 ++ ": " ++ item.2 ++ "\n"

def renderWithdrawals (limit : Nat) (withdrawals : List (String × String)) (d : Draft) : Draft :=
  if withdrawals = [] then d
  else withdrawals.foldl (fun d item => d.append limit (withdrawnLine item))
    ((d.warn "Previously supplied memories withdrawn; recheck their sources.").append limit withdrawnHeading)

/-- `SOURCE CHANGED`, `SOURCE UNVERIFIED` or nothing. -/
def sourceStatus (w : World) (note : WorkingNote) (d : Draft) : Draft × String :=
  if note.anchors = [] then (d, "")
  else match hashFiles w d.hashes (Dict.keys note.anchors) with
  | (hashes, .error _) => ({ d with hashes }, "SOURCE UNVERIFIED")
  | (hashes, .ok files) =>
    ({ d with hashes }, if Dict.same files note.anchors then "" else "SOURCE CHANGED")

def noteLabel (kind : NoteKind) : String :=
  if kind = .hypothesis then "unverified hypothesis" else "recorded " ++ kind.value

variable [Lowercase]

def renderNote (w : World) (limit : Nat) (d : Draft) (note : WorkingNote) : Draft :=
  let (d, status) := sourceStatus w note d
  if status ≠ "" then
    (d.warn ("Note " ++ note.id ++ ": " ++ Lowercase.lower status ++ "; statement requires rechecking.")).appendNote
      limit ("\nWorking " ++ note.kind.value ++ " " ++ note.id ++ ": " ++ status ++ "; recheck before use.\n")
  else
    d.appendNote limit ("\nWorking " ++ noteLabel note.kind ++ " [" ++ note.id ++ "]: " ++ note.text ++ "\n")

/-- The next step first, the rest in order. -/
def orderedNotes (notes : List WorkingNote) : List WorkingNote :=
  notes.filter (fun n => n.kind = .nextStep) ++ notes.filter (fun n => n.kind ≠ .nextStep)

omit [Lowercase] in
def renderFocus (limit : Nat) (session : WorkingSession) (d : Draft) : Draft :=
  if session.focus ≠ "" ∧ session.focus ≠ session.goal then
    let block := "\nCurrent focus: " ++ session.focus ++ "\n"
    if d.fits limit block then d.append limit block
    else d.warn "Current focus omitted to preserve pinned constraints."
  else d

omit [Lowercase] in
def renderFiles (limit : Nat) (session : WorkingSession) (d : Draft) : Draft :=
  if session.activeFiles = [] then d
  else d.append limit ("\nActive files: " ++ PyText.join ", " session.activeFiles ++ "\n")

def normalized (text : String) : String := PyText.join " " (PyText.words (Lowercase.lower text))

omit [Lowercase] in
def itemBlock (item : ContextItem) : String :=
  "\nMemory [" ++ item.id ++ "] (" ++ item.kind ++ ", " ++ item.freshness ++ "; " ++ item.source ++ "):\n" ++
    item.text ++ "\n"

def renderItem (limit : Nat) (d : Draft) (item : ContextItem) : Draft :=
  if normalized item.text ∈ d.seenTexts then d.exclude item.id "duplicate"
  else if d.fits limit (itemBlock item) then (d.append limit (itemBlock item)).select item (normalized item.text)
  else d.exclude item.id "budget"

omit [Lowercase] in
/-- By score, then by id. -/
def ranked (candidates : List (String × ContextItem)) : List ContextItem :=
  (candidates.map Prod.snd).insertionSort (fun a b => b.score < a.score ∨ (a.score = b.score ∧ a.id ≤ b.id))

omit [Lowercase] in
def renderWarnings (limit : Nat) (d : Draft) : Draft :=
  d.warnings.foldl (fun d warning => d.append limit ("\nNotice: " ++ warning ++ "\n")) d

omit [Lowercase] in
def footer (d : Draft) : String :=
  "\nPacket: " ++ toString d.selected.length ++ " memories; " ++ toString d.exclusions.length ++ " excluded; " ++
    toString d.warnings.length ++ " notices. Full reasons: onmc working context --session " ++
    "<session-id> --json.\n"

/-- The packet's text before the memories. -/
def opening (w : World) (session : WorkingSession) (s : Screening) (budget : Nat) : Draft :=
  let limit := budget - 220
  let d : Draft := ⟨mandatory session, [], s.checks.hashes, 0, [], [], s.exclusions⟩
  let d := renderWithdrawals limit session.withdrawals d
  let d := d.warnIf (w.learningEnabled = false) "Learning disabled: no durable memory included."
  let d := d.warnIf (s.exclusions.any (fun item => PyText.startsWith item.2 "source_"))
    "Re-read changed or unverified sources before relying on excluded memory."
  let d := d.warnIf (s.exclusions.any (fun item => PyText.startsWith item.2 "conflicts_with:"))
    "Resolve recorded memory conflicts before relying on either claim."
  let d := d.warnIf (session.prunedNotes ≠ 0)
    (toString session.prunedNotes ++ " older working notes retired from bounded session state.")
  let d := (orderedNotes session.notes).foldl (renderNote w limit) d
  renderFiles limit session (renderFocus limit session d)

/-- The packet's text up to the footer. -/
def draft (w : World) (session : WorkingSession) (s : Screening) (budget : Nat) : Draft :=
  let limit := budget - 220
  let d := (ranked s.candidates).foldl (renderItem limit) (opening w session s budget)
  let d := d.warnIf (d.noteDropped ≠ 0) (toString d.noteDropped ++ " working notes omitted by budget.")
  renderWarnings limit d

def exceeded : Raised := ⟨.valueError, "Context renderer exceeded budget"⟩

omit [Lowercase] in
/-- The oldest bindings go, those of what is selected or withdrawn last. -/
def pruneBindings (session : WorkingSession) : List (String × AnchorBinding) :=
  if 240 < session.bindings.length then
    let keep := session.lastSelected ++ Dict.keys session.withdrawals
    let keys := (Dict.keys session.bindings).filter (fun key => key ∉ keep)
    let gone := keys.take (session.bindings.length - 240)
    session.bindings.filter (fun item => item.1 ∉ gone)
  else session.bindings

variable [Sha256]

/-- `_compile`: the packet, and the session that remembers it. -/
def compile (w : World) (session : WorkingSession) (budget : Nat) (force : Bool) :
    Outcome (ContextPacket × WorkingSession) := do
  let s ← screen w session
  let session := { session with bindings := s.checks.bindings, withdrawals := withdraw w session s }
  let d := draft w session s budget
  let markdown := d.markdown ++ footer d
  if budget < markdown.length then .error exceeded
  else
    let fingerprint := Sha256.hexdigest markdown
    let changed := decide (fingerprint ≠ session.lastFingerprint)
    let session := { session with
      revision := if changed then session.revision + 1 else session.revision
      lastFingerprint := fingerprint
      lastSelected := d.selected.map ContextItem.id }
    let session := { session with bindings := pruneBindings session }
    return (⟨session.sessionId, session.revision, markdown, if changed || force then markdown else "", changed,
      budget, markdown.length, (markdown.utf8ByteSize + 3) / 4, d.selected,
      d.exclusions.insertionSort (fun a b => a.1 ≤ b.1), Dict.keys session.withdrawals, d.warnings⟩, session)

/-! The stored sessions. -/

/-- The sessions in the metadata table, by their id. -/
abbrev Sessions := List (String × WorkingSession)

/-- `store.transaction`: a body that raises is rolled back. -/
def transaction (body : Sessions → Outcome (Sessions × α)) (sessions : Sessions) : Sessions × Outcome α :=
  match body sessions with
  | .ok (after, a) => (after, .ok a)
  | .error e => (sessions, .error e)

/-- `store.session_key`, for its check. -/
def validateSessionId (sessionId : String) : Outcome Unit :=
  raiseIf (PyText.strip sessionId = "" ∨ 256 < sessionId.length) "session_id must contain 1–256 characters"

def requireSession (sessions : Sessions) (sessionId : String) : Outcome WorkingSession := do
  validateSessionId sessionId
  match sessions.lookup sessionId with
  | some session => return session
  | none => valueError "No working session; run onmc working start first"

def readConfig (w : World) : Outcome WorkingConfig :=
  match w.config with
  | some config => .ok config
  | none => .error ⟨.validationError, "validation error for WorkingConfig"⟩

structure ContextArgs where
  focus : Option String
  files : Option (List String)
  force : Bool
  consume : Bool

def setFocus (focus : Option String) (session : WorkingSession) : Outcome WorkingSession :=
  match focus with
  | none => .ok session
  | some focus => do
    let focus ← cleanText focus 4000 "focus"
    return { session with focus }

def setFiles (w : World) (files : Option (List String)) (session : WorkingSession) : Outcome WorkingSession :=
  match files with
  | none => .ok session
  | some files => do
    let paths ← files.mapM (relative w)
    return { session with activeFiles := (PyText.fromKeys paths).take maxFiles }

/-- The session with the focus and the files of a call. -/
def focusSession (w : World) (session : WorkingSession) (args : ContextArgs) : Outcome WorkingSession := do
  setFiles w args.files (← setFocus args.focus session)

/-- The body of `context`. An inspection leaves the delivery state as it found it. -/
def contextSession (w : World) (config : WorkingConfig) (sessionId : String) (args : ContextArgs)
    (sessions : Sessions) : Outcome (Sessions × ContextPacket) := do
  let session ← requireSession sessions sessionId
  let session ← focusSession w session args
  checkBudget session config.budgetChars
  let (packet, compiled) ← compile w session config.budgetChars args.force
  let compiled := if args.consume then compiled
    else { compiled with lastFingerprint := session.lastFingerprint, lastSelected := session.lastSelected }
  return (Dict.setItem sessionId compiled sessions, packet)

/-- `context` -/
def context (w : World) (sessionId : String) (args : ContextArgs) (sessions : Sessions) :
    Sessions × Outcome ContextPacket :=
  match readConfig w with
  | .error e => (sessions, .error e)
  | .ok config => transaction (contextSession w config sessionId args) sessions

def cleanGiven (constraints : Option (List String)) : Outcome (Option (List String)) :=
  match constraints with
  | none => .ok none
  | some values => (cleanConstraints values).map some

def sessionExists : Outcome α := valueError "Session exists; use explicit replace to change its goal/constraints"

/-- The body of `start`. -/
def startSession (config : WorkingConfig) (sessionId goal : String) (constraints : Option (List String))
    (replace : Bool) (sessions : Sessions) : Outcome (Sessions × WorkingSession) := do
  match sessions.lookup sessionId, replace with
  | some current, false =>
    if current.goal ≠ goal then sessionExists
    match ← cleanGiven constraints with
    | none => return (sessions, current)
    | some cleaned => if current.constraints ≠ cleaned then sessionExists else return (sessions, current)
  | current, _ =>
    let revision := match current with
      | none => 1
      | some current => current.revision + 1
    let constraints := (← cleanGiven constraints).getD config.constraints
    let session := WorkingSession.fresh sessionId goal constraints revision
    checkBudget session config.budgetChars
    return (Dict.setItem sessionId session sessions, session)

/-- `start` -/
def start (w : World) (sessionId goal : String) (constraints : Option (List String)) (replace : Bool)
    (sessions : Sessions) : Sessions × Outcome WorkingSession :=
  match validateSessionId sessionId, readConfig w, cleanText goal 4000 "goal" with
  | .error e, _, _ | .ok _, .error e, _ | .ok _, .ok _, .error e => (sessions, .error e)
  | .ok _, .ok config, .ok goal => transaction (startSession config sessionId goal constraints replace) sessions

/-- The session with one note more: a new next step takes the place of the old, and the oldest notes
retire. -/
def addNote (session : WorkingSession) (note : WorkingNote) : WorkingSession :=
  let kept := if note.kind = .nextStep then session.notes.filter (fun n => n.kind ≠ .nextStep) else session.notes
  let notes := kept ++ [note]
  { session with
    notes := notes.drop (notes.length - maxNotes)
    prunedNotes := session.prunedNotes + (notes.length - maxNotes)
    revision := session.revision + 1
    notesFit := by
      simp only [List.length_drop, maxNotes, maxSize]
      omega }

/-- `note`, with the identifier it draws. -/
def note (w : World) (sessionId : String) (kind : NoteKind) (text : String) (files : List String) (noteId : String)
    (sessions : Sessions) : Sessions × Outcome WorkingSession :=
  match cleanText text 4000 "note", hashAnchors w files with
  | .error e, _ | .ok _, .error e => (sessions, .error e)
  | .ok text, .ok anchors =>
    transaction (fun sessions => do
      let session ← requireSession sessions sessionId
      if session.notes.any (fun n => n.kind = kind && n.text = text && Dict.same n.anchors anchors) then
        return (sessions, session)
      let session := addNote session ⟨noteId, kind, text, anchors⟩
      return (Dict.setItem sessionId session sessions, session)) sessions

/-- `invalidate_delivery` -/
def invalidateDelivery (sessionId : String) (sessions : Sessions) : Sessions × Outcome Unit :=
  transaction (fun sessions => do
    let session ← requireSession sessions sessionId
    return (Dict.setItem sessionId { session with lastFingerprint := "" } sessions, ())) sessions

end Onmc.WorkingContext
