import Onmc.Shelf
import Onmc.WorkingContext.Completeness

/-! The notes of a session over whole runs: a shelf for the newest of those recorded, with the next
step pinned. -/
namespace Onmc.WorkingContext

def isNextStep (note : WorkingNote) : Bool := note.kind = .nextStep

/-- `n.kind == kind and n.text == text and n.anchors == anchors` -/
def WorkingNote.same (n note : WorkingNote) : Bool :=
  n.kind = note.kind && n.text = note.text && Dict.same n.anchors note.anchors

/-- The note that a call of `note` records: what a session of another revision has at its end. -/
def recording (w : World) (sessionId : String) (kind : NoteKind) (text : String) (files : List String)
    (noteId : String) (sessions : Sessions) : Option WorkingNote :=
  match (note w sessionId kind text files noteId sessions).2, sessions.lookup sessionId with
  | .ok after, some before => if after.revision = before.revision then none else after.notes.getLast?
  | _, _ => none

/-- The notes recorded in a session once a call was made. A session that is replaced starts anew. -/
def noted (sessionId : String) (sessions : Sessions) (w : World) (earlier : List WorkingNote) : Command → List WorkingNote
  | .note id kind text files noteId =>
    if id = sessionId then earlier ++ (recording w id kind text files noteId sessions).toList else earlier
  | .start id goal constraints replace =>
    if id = sessionId ∧ replace = true ∧ (start w id goal constraints replace sessions).2.toOption.isSome then []
    else earlier
  | .context .. | .invalidateDelivery _ => earlier

/-- What the session has of the notes recorded in it. -/
structure NotesKept (recorded : List WorkingNote) (session : WorkingSession) : Prop where
  shelf : Shelf.Holds isNextStep maxNotes recorded session.notes session.prunedNotes
  distinct : session.notes.Pairwise (fun n note => n.same note = false)

/-- The same of a session that may not exist. -/
structure KeptIn (recorded : List WorkingNote) (found : Option WorkingSession) : Prop where
  absent : found = none → recorded = []
  present : ∀ session, found = some session → NotesKept recorded session

theorem NotesKept.keptIn {recorded : List WorkingNote} {session : WorkingSession} (h : NotesKept recorded session) :
    KeptIn recorded (some session) where
  absent := by simp
  present := by
    rintro _ ⟨⟩
    exact h

theorem notesKept_fresh (sessionId goal : String) (constraints : List String) (revision : Nat) :
    NotesKept [] (WorkingSession.fresh sessionId goal constraints revision) := ⟨.nil, .nil⟩

theorem NotesKept.congr {recorded : List WorkingNote} {session next : WorkingSession} (h : NotesKept recorded session)
    (notes : next.notes = session.notes) (pruned : next.prunedNotes = session.prunedNotes) : NotesKept recorded next := by
  constructor
  · rw [notes, pruned]
    exact h.shelf
  · rw [notes]
    exact h.distinct

theorem addNote_notes (session : WorkingSession) (note : WorkingNote) :
    (addNote session note).notes = Shelf.put isNextStep maxNotes session.notes note := by
  simp [addNote, Shelf.put, Shelf.kept, isNextStep]

theorem addNote_pruned (session : WorkingSession) (note : WorkingNote) : (addNote session note).prunedNotes =
    session.prunedNotes + Shelf.retires isNextStep maxNotes session.notes note := by
  simp [addNote, Shelf.retires, Shelf.kept, isNextStep]

theorem NotesKept.add {recorded : List WorkingNote} {session : WorkingSession} (h : NotesKept recorded session)
    {note : WorkingNote} (new : ∀ n ∈ session.notes, n.same note = false) :
    NotesKept (recorded ++ [note]) (addNote session note) := by
  constructor
  · rw [addNote_notes, addNote_pruned]
    exact h.shelf.put (by decide) note
  · rw [addNote_notes]
    have sublist : (Shelf.kept isNextStep session.notes note).Sublist session.notes := by
      unfold Shelf.kept
      split
      · exact List.filter_sublist
      · exact .refl _
    refine List.Pairwise.sublist (List.drop_sublist _ _) ?_
    rw [List.pairwise_append]
    refine ⟨h.distinct.sublist sublist, List.pairwise_singleton _ _, ?_⟩
    intro n member other last
    rw [List.mem_singleton.mp last]
    exact new n (sublist.subset member)

/-- A call of `note` records one note or leaves the sessions alone. -/
theorem note_cases (w : World) (sessionId : String) (kind : NoteKind) (text : String) (files : List String)
    (noteId : String) (sessions : Sessions) :
    ((note w sessionId kind text files noteId sessions).1 = sessions ∧
        recording w sessionId kind text files noteId sessions = none) ∨
      ∃ session added, sessions.lookup sessionId = some session ∧ (∀ n ∈ session.notes, n.same added = false) ∧
        recording w sessionId kind text files noteId sessions = some added ∧
        (note w sessionId kind text files noteId sessions).1 = Dict.setItem sessionId (addNote session added) sessions := by
  unfold recording
  unfold note
  split
  · exact .inl ⟨rfl, rfl⟩
  · exact .inl ⟨rfl, rfl⟩
  · rename_i text anchors _ _
    cases found : requireSession sessions sessionId with
    | error e => exact .inl (by simp [transaction, found, Except.error_bind])
    | ok session =>
      have stored := requireSession_ok found
      simp only [transaction, found, Except.ok_bind, stored]
      by_cases known : (session.notes.any fun n =>
          n.kind = kind && n.text = text && Dict.same n.anchors anchors) = true
      · left
        simp only [if_pos known]
        exact ⟨rfl, if_pos rfl⟩
      · right
        simp only [if_neg known]
        refine ⟨session, ⟨noteId, kind, text, anchors⟩, rfl, ?_, ?_, rfl⟩
        · intro n member
          rw [Bool.not_eq_true, List.any_eq_false] at known
          exact Bool.eq_false_iff.mpr (known n member)
        · have next : (addNote session ⟨noteId, kind, text, anchors⟩).revision ≠ session.revision :=
            Nat.succ_ne_self _
          obtain ⟨_, left, _, shelf, _⟩ := @Shelf.put_eq _ isNextStep maxNotes session.notes
            ⟨noteId, kind, text, anchors⟩ (by decide)
          refine (if_neg next).trans ?_
          rw [addNote_notes, shelf, List.getLast?_concat]

theorem start_cases (w : World) (sessionId goal : String) (constraints : Option (List String)) (replace : Bool)
    (sessions : Sessions) :
    ((start w sessionId goal constraints replace sessions).1 = sessions ∧
        (replace = true → ∃ e, (start w sessionId goal constraints replace sessions).2 = .error e)) ∨
      ∃ cleaned given revision, (start w sessionId goal constraints replace sessions).1 =
        Dict.setItem sessionId (WorkingSession.fresh sessionId cleaned given revision) sessions ∧
        (∃ session, (start w sessionId goal constraints replace sessions).2 = .ok session) ∧
        (replace = true ∨ sessions.lookup sessionId = none) := by
  unfold start
  split
  · exact .inl ⟨rfl, fun _ => ⟨_, rfl⟩⟩
  · exact .inl ⟨rfl, fun _ => ⟨_, rfl⟩⟩
  · exact .inl ⟨rfl, fun _ => ⟨_, rfl⟩⟩
  · rename_i config cleaned _ _ _
    cases body : startSession config sessionId cleaned constraints replace sessions with
    | error e =>
      left
      simp [transaction, body]
    | ok result =>
      obtain ⟨after, session⟩ := result
      simp only [transaction, body]
      rcases startSession_ok body with ⟨rfl, same⟩ | ⟨⟨given, revision, rfl⟩, new⟩
      · exact .inl ⟨rfl, fun asked => by rw [same] at asked; cases asked⟩
      · exact .inr ⟨cleaned, given, revision, rfl, ⟨session, rfl⟩, new⟩

variable [Lowercase] [Sha256]

/-- A packet leaves the notes alone. -/
theorem Compiled.notes {w : World} {sessionId : String} {args : ContextArgs} {sessions after : Sessions}
    {packet : ContextPacket} {current session next : WorkingSession} {s : Screening}
    (h : Compiled w sessionId args sessions after packet current session next s) :
    next.notes = current.notes ∧ next.prunedNotes = current.prunedNotes := by
  obtain ⟨stored, required, focusing⟩ := Except.bind_ok.mp h.focusing
  have same : stored = current := Option.some.inj ((requireSession_ok required).symm.trans h.found)
  obtain ⟨focus, activeFiles, set⟩ := focusSession_ok focusing
  have task := h.task
  simp only [WorkingSession.task, Prod.mk.injEq] at task
  rw [task.2.2.2.2.2.1, task.2.2.2.2.2.2, set, same]
  exact ⟨rfl, rfl⟩

/-- One call keeps the account of the notes. -/
theorem step_notes {state : State} {sessionId : String} {earlier : List WorkingNote}
    (h : KeptIn earlier (state.sessions.lookup sessionId)) (w : World) (command : Command) :
    KeptIn (noted sessionId state.sessions w earlier command) ((step state w command).sessions.lookup sessionId) := by
  have update : ∀ {id : String} {current next : WorkingSession}, state.sessions.lookup id = some current →
      next.notes = current.notes → next.prunedNotes = current.prunedNotes →
      KeptIn earlier ((Dict.setItem id next state.sessions).lookup sessionId) := by
    intro id current next found notes pruned
    rw [Dict.lookup_setItem]
    split
    · rename_i same
      subst same
      exact ((h.present current found).congr notes pruned).keptIn
    · exact h
  cases command with
  | context id args =>
    simp only [step, noted]
    split
    · rename_i sessions e failed
      rw [context_error failed]
      exact h
    · rename_i sessions packet ok
      obtain ⟨current, session, next, s, did⟩ := context_ok ok
      rw [did.saved]
      exact update did.found did.notes.1 did.notes.2
  | start id goal constraints replace =>
    simp only [step, noted]
    rcases start_cases w id goal constraints replace state.sessions with
      ⟨same, failed⟩ | ⟨cleaned, given, revision, saved, ⟨session, ok⟩, new⟩
    · rw [same, if_neg]
      · exact h
      · rintro ⟨_, asked, returned⟩
        obtain ⟨e, raised⟩ := failed asked
        rw [raised] at returned
        cases returned
    · rw [saved, ok, Dict.lookup_setItem]
      by_cases here : id = sessionId
      · subst here
        rw [if_pos rfl]
        have anew : (if id = id ∧ replace = true ∧ (Except.ok (ε := Raised) session).toOption.isSome = true then []
            else earlier) = [] := by
          rcases new with asked | none
          · exact if_pos ⟨rfl, asked, rfl⟩
          · rw [h.absent none, ite_self]
        rw [anew]
        exact (notesKept_fresh id cleaned given revision).keptIn
      · rw [if_neg (fun both => here both.1), if_neg (fun same => here same.symm)]
        exact h
  | note id kind text files noteId =>
    simp only [step, noted]
    rcases note_cases w id kind text files noteId state.sessions with
      ⟨same, unrecorded⟩ | ⟨session, added, found, new, recorded, saved⟩
    · rw [same, unrecorded, Option.toList_none, List.append_nil, ite_self]
      exact h
    · rw [saved, recorded, Dict.lookup_setItem]
      by_cases here : id = sessionId
      · subst here
        rw [if_pos rfl, if_pos rfl]
        exact ((h.present session found).add new).keptIn
      · rw [if_neg here, if_neg (fun same => here same.symm)]
        exact h
  | invalidateDelivery id =>
    simp only [step, noted, invalidateDelivery]
    unfold transaction
    split
    · rename_i after done ok
      obtain ⟨session, found, ok⟩ := Except.bind_ok.mp ok
      obtain ⟨rfl, _⟩ := Prod.mk.inj (Except.ok.inj ok)
      exact update (requireSession_ok found) rfl rfl
    · exact h

/-- The notes recorded in a session by the calls that follow. -/
def recordedFrom (sessionId : String) : State → List WorkingNote → List (World × Command) → List WorkingNote
  | _, earlier, [] => earlier
  | state, earlier, (w, command) :: calls =>
    recordedFrom sessionId (step state w command) (noted sessionId state.sessions w earlier command) calls

def recorded (sessionId : String) (calls : List (World × Command)) : List WorkingNote :=
  recordedFrom sessionId ⟨[], []⟩ [] calls

theorem recordedFrom_kept {sessionId : String} (calls : List (World × Command)) {state : State}
    {earlier : List WorkingNote} (h : KeptIn earlier (state.sessions.lookup sessionId)) :
    KeptIn (recordedFrom sessionId state earlier calls)
      ((calls.foldl (fun state call => step state call.1 call.2) state).sessions.lookup sessionId) := by
  induction calls generalizing state earlier with
  | nil => exact h
  | cons call calls ih =>
    obtain ⟨w, command⟩ := call
    exact ih (step_notes h w command)

/-- What is expected of the notes of a session, given those recorded in it since it was started. -/
structure NoteLaws (recorded : List WorkingNote) (session : WorkingSession) : Prop where
  few : session.notes.length ≤ maxNotes
  distinct : session.notes.Pairwise (fun n note => n.same note = false)
  ordered : session.notes.Sublist recorded
  nextStep : ∀ note after, Shelf.Latest isNextStep recorded note after →
    session.notes.filter isNextStep = if after.length < maxNotes then [note] else []
  pruned : recorded.length = session.notes.length + session.prunedNotes +
    Shelf.replaced isNextStep maxNotes recorded

omit [Lowercase] [Sha256] in
theorem NotesKept.laws {recorded : List WorkingNote} {session : WorkingSession} (h : NotesKept recorded session) :
    NoteLaws recorded session where
  few := h.shelf.fits
  distinct := h.distinct
  ordered := h.shelf.ordered
  nextStep := fun _ _ latest => h.shelf.pinned latest
  pruned := h.shelf.counted

/-- The notes of every session after any calls: at most 32 and no two alike, in the order they were
recorded; the last next step is among them until 32 more notes were recorded; and every other note that
is missing, but for next steps that a newer one replaced, counts as pruned. -/
theorem notes_of_run (sessionId : String) (calls : List (World × Command)) :
    match (run calls).sessions.lookup sessionId with
    | none => recorded sessionId calls = []
    | some session => NoteLaws (recorded sessionId calls) session := by
  have start : KeptIn [] ((⟨[], []⟩ : State).sessions.lookup sessionId) := ⟨fun _ => rfl, by simp⟩
  have kept : KeptIn (recorded sessionId calls) ((run calls).sessions.lookup sessionId) := recordedFrom_kept calls start
  split
  · rename_i missing
    exact kept.absent missing
  · rename_i session found
    exact (kept.present session found).laws

/-- A next step, and then as many other notes as a session holds. -/
def crowdedNotes : List (World × Command) :=
  (exampleWorld [], .note "s" .nextStep "ship" [] "next") ::
    (List.range maxNotes).map (fun i => (exampleWorld [], .note "s" .decision (toString i) [] (toString i)))

omit [Lowercase] [Sha256] in
/-- The other notes push the next step out. -/
theorem crowded_unpinned :
    let _ := Lowercase.ascii
    let _ := Sha256.standard
    ∃ session, (run ((exampleWorld [], begin) :: crowdedNotes)).sessions.lookup "s" = some session ∧
      (recorded "s" ((exampleWorld [], begin) :: crowdedNotes)).any isNextStep = true ∧
      session.notes.any isNextStep = false := by
  intro _ _
  have started : step ⟨[], []⟩ (exampleWorld []) begin = ⟨[("s", .fresh "s" "x1" [] 1)], []⟩ := by
    simp only [step, begin, start_example]
  have written : (recordedFrom "s" ⟨[("s", .fresh "s" "x1" [] 1)], []⟩ [] crowdedNotes).any isNextStep = true := by
    decide +kernel
  have left : ((crowdedNotes.foldl (fun state call => step state call.1 call.2)
      ⟨[("s", .fresh "s" "x1" [] 1)], []⟩).sessions.lookup "s").map (fun session => session.notes.any isNextStep) =
        some false := by
    decide +kernel
  obtain ⟨session, found, unpinned⟩ := Option.map_eq_some_iff.mp left
  refine ⟨session, ?_, ?_, unpinned⟩
  · rw [run, List.foldl_cons, started]
    exact found
  · have none_yet : noted "s" [] (exampleWorld []) [] begin = [] := by simp only [noted, begin, ite_self]
    rw [recorded, recordedFrom, started, none_yet]
    exact written

end Onmc.WorkingContext
