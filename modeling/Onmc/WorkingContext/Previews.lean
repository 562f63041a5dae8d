import Onmc.HexDigest
import Onmc.WorkingContext.Notes
import Onmc.WorkingContext.Repeats

/-! What a preview leaves behind, and that later calls do not see it. -/
namespace Onmc.WorkingContext

variable [Sha256]

/-! Screening again with exactly the bindings that the first screening left. -/

theorem freshness_settled {w : World} {memory : MemoryEntry} {bindings others : List (String × AnchorBinding)}
    {hashes : List (String × String)} {checks : Checks} {verdict : String × Option String} (faithful : Faithful w hashes)
    (ok : freshness w ⟨bindings, hashes⟩ memory = .ok (checks, verdict))
    (left : others.lookup memory.id = checks.bindings.lookup memory.id) :
    freshness w ⟨others, hashes⟩ memory = .ok (⟨others, checks.hashes⟩, verdict) := by
  rcases hashed_or w hashes memory with ⟨paths, files, after, anchors, anchored, hashed⟩ | ⟨after, label, rejected, all⟩
  · rw [freshness_judge ⟨bindings, hashes⟩ anchors anchored hashed] at ok
    rw [freshness_judge ⟨others, hashes⟩ anchors anchored hashed]
    cases judged : judge w memory paths files (bindings.lookup memory.id) with
    | error e =>
      simp only [judged] at ok
      cases ok
    | ok found =>
      obtain ⟨set, label, rejected⟩ := found
      simp only [judged] at ok
      cases ok
      obtain ⟨few, entries, read, _, files_eq, _⟩ := (hashFiles_ok faithful).mp hashed
      have once : (Dict.keys files).Nodup := files_eq ▸ nodup_store entries List.nodup_nil
      obtain ⟨set', again, settled⟩ := judge_again once judged
      rw [lookup_bind, if_pos rfl] at left
      simp only [left, again]
      have kept : bind memory.id set' others = others := by
        rcases settled with rfl | rfl
        · rfl
        · cases found : set.or (bindings.lookup memory.id) with
          | none => rfl
          | some binding => exact Dict.setItem_self (left.trans found)
      simp only [Except.map, kept]
  · rw [all] at ok ⊢
    cases ok
    rfl

variable [Lowercase]

/-- The screening with other bindings. -/
def Screening.rebind (s : Screening) (bindings : List (String × AnchorBinding)) : Screening :=
  { s with checks := ⟨bindings, s.checks.hashes⟩ }

theorem screenMemory_settled {w : World} {session next : WorkingSession} {queryTokens : List String} {s t : Screening}
    {memory : MemoryEntry} {others : List (String × AnchorBinding)} (files : next.activeFiles = session.activeFiles)
    (faithful : Faithful w s.checks.hashes) (ok : screenMemory w session queryTokens s memory = .ok t)
    (left : others.lookup memory.id = t.checks.bindings.lookup memory.id) :
    screenMemory w next queryTokens (s.rebind others) memory = .ok (t.rebind others) := by
  unfold screenMemory at ok ⊢
  split at ok
  · rename_i quarantined
    cases ok
    rw [if_pos quarantined]
    rfl
  · rename_i trusted
    rw [if_neg trusted]
    split at ok
    · rename_i rejected
      cases ok
      rw [if_pos rejected]
      rfl
    · rename_i accepted
      rw [if_neg accepted]
      obtain ⟨⟨checks, label, rejected⟩, fresh, ok⟩ := Except.bind_ok.mp ok
      have held : t.checks = checks := by
        cases rejected with
        | some reason =>
          cases ok
          rfl
        | none =>
          obtain ⟨paths, _, ok⟩ := Except.bind_ok.mp ok
          dsimp only at ok
          split at ok <;> (cases ok; rfl)
      rw [held] at left
      have again : freshness w (s.rebind others).checks memory = .ok (⟨others, checks.hashes⟩, label, rejected) :=
        freshness_settled faithful fresh left
      simp only [again, Except.ok_bind]
      cases rejected with
      | some reason =>
        cases ok
        rfl
      | none =>
        obtain ⟨paths, anchors, ok⟩ := Except.bind_ok.mp ok
        dsimp only at ok ⊢
        simp only [anchors, Except.ok_bind, files]
        split at ok
        · rename_i irrelevant
          cases ok
          rw [if_pos irrelevant]
          rfl
        · rename_i relevant
          cases ok
          rw [if_neg relevant]
          rfl

theorem screenAll_settled {w : World} {session next : WorkingSession} {queryTokens : List String}
    {memories : List MemoryEntry} {s t : Screening} {others : List (String × AnchorBinding)}
    (distinct : (memories.map MemoryEntry.id).Nodup) (files : next.activeFiles = session.activeFiles)
    (faithful : Faithful w s.checks.hashes) (ok : memories.foldlM (screenMemory w session queryTokens) s = .ok t)
    (left : ∀ memory ∈ memories, others.lookup memory.id = t.checks.bindings.lookup memory.id) :
    memories.foldlM (screenMemory w next queryTokens) (s.rebind others) = .ok (t.rebind others) := by
  induction memories generalizing s with
  | nil =>
    cases ok
    rfl
  | cons memory memories ih =>
    rw [List.foldlM_cons] at ok
    obtain ⟨first, screened, rest⟩ := Except.bind_ok.mp ok
    rw [List.map_cons, List.nodup_cons] at distinct
    have here := left memory List.mem_cons_self
    rw [screenAll_keeps rest distinct.1] at here
    rw [List.foldlM_cons, screenMemory_settled files faithful screened here, Except.ok_bind]
    exact ih distinct.2 (screenMemory_faithful faithful screened) rest
      (fun other member => left other (List.mem_cons_of_mem _ member))

/-- Two sessions that retrieval and screening see alike, but for the bindings. -/
structure LooksAlike (session next : WorkingSession) : Prop extends SeeksAlike session next where
  lastSelected : next.lastSelected = session.lastSelected

omit [Lowercase] [Sha256] in
theorem LooksAlike.retrieve {session next : WorkingSession} (alike : LooksAlike session next) (w : World) :
    retrieve w next = retrieve w session := by
  unfold WorkingContext.retrieve
  rw [alike.goal, alike.focus, alike.activeFiles, alike.lastSelected]

theorem screen_settled {w : World} {session next : WorkingSession} {s : Screening} (alike : LooksAlike session next)
    (screening : screen w session = .ok s) (left : next.bindings = s.checks.bindings) : screen w next = .ok s := by
  unfold screen at screening ⊢
  obtain ⟨raw, all, last⟩ := Except.bind_ok.mp screening
  have held : raw.checks = s.checks := by
    cases last
    rfl
  have distinct : ((if w.learningEnabled then retrieve w session else []).map MemoryEntry.id).Nodup := by
    split
    · exact nodup_retrieve w session
    · exact List.nodup_nil
  have bound : ∀ memory ∈ (if w.learningEnabled then retrieve w session else []),
      next.bindings.lookup memory.id = raw.checks.bindings.lookup memory.id := by
    intro memory _
    rw [left, held]
  have again := screenAll_settled distinct alike.activeFiles (.nil w) all bound
  have same : raw.rebind next.bindings = raw := by
    rw [left, ← held]
    rfl
  rw [same] at again
  have start : (⟨⟨session.bindings, []⟩, [], []⟩ : Screening).rebind next.bindings = ⟨⟨next.bindings, []⟩, [], []⟩ := rfl
  rw [start] at again
  simp only [alike.goal, alike.focus, alike.activeFiles, alike.retrieve w, again, Except.ok_bind]
  exact last

/-! Withdrawing again. -/

/-- Noting what is not eligible any more. -/
abbrev noteAll (eligible : List String) (reason : String → String) (ids : List String)
    (items : List (String × String)) : List (String × String) :=
  ids.foldl (fun items id => if id ∈ eligible then items else Dict.setItem id (reason id) items) items

omit [Lowercase] [Sha256] in
theorem lookup_noteAll (eligible : List String) (reason : String → String) (ids : List String)
    (items : List (String × String)) (id : String) : (noteAll eligible reason ids items).lookup id =
      if id ∈ ids ∧ id ∉ eligible then some (reason id) else items.lookup id := by
  induction ids generalizing items with
  | nil => simp
  | cons first ids ih =>
    rw [noteAll, List.foldl_cons, ← noteAll, ih]
    by_cases fit : first ∈ eligible
    · rw [if_pos fit]
      by_cases same : id = first
      · subst same
        simp [fit]
      · simp [same]
    · rw [if_neg fit, Dict.lookup_setItem]
      by_cases same : id = first
      · subst same
        simp [fit]
      · simp [same]

omit [Lowercase] [Sha256] in
theorem nodup_noteAll (eligible : List String) (reason : String → String) (ids : List String)
    {items : List (String × String)} (once : (Dict.keys items).Nodup) :
    (Dict.keys (noteAll eligible reason ids items)).Nodup := by
  induction ids generalizing items with
  | nil => exact once
  | cons first ids ih =>
    rw [noteAll, List.foldl_cons]
    split
    · exact ih once
    · exact ih (Dict.nodup_keys_setItem once)

omit [Lowercase] [Sha256] in
theorem noteAll_self {eligible : List String} {reason : String → String} {ids : List String}
    {items : List (String × String)}
    (noted : ∀ id ∈ ids, id ∉ eligible → items.lookup id = some (reason id)) :
    noteAll eligible reason ids items = items := by
  induction ids with
  | nil => rfl
  | cons first ids ih =>
    have rest := ih (fun id member => noted id (List.mem_cons_of_mem _ member))
    rw [noteAll, List.foldl_cons]
    split
    · exact rest
    · rename_i unfit
      rw [Dict.setItem_self (noted first List.mem_cons_self unfit)]
      exact rest

/-- Why a memory that is not eligible any more is withdrawn. -/
def withdrawalReason (w : World) (s : Screening) (id : String) : String :=
  (s.exclusions.lookup id).getD (if w.learningEnabled then "no_longer_retrieved" else "learning_disabled")

omit [Lowercase] [Sha256] in
theorem withdraw_eq (w : World) (session : WorkingSession) (s : Screening) :
    let current := (noteAll (Dict.keys s.candidates) (withdrawalReason w s) session.lastSelected
      session.withdrawals).filter (fun item => item.1 ∉ Dict.keys s.candidates)
    withdraw w session s = current.drop (current.length - maxCandidates) := by
  simp only [withdraw, Dict.foldl_pop]
  rfl

omit [Lowercase] [Sha256] in
theorem withdraw_settled {w : World} {session next : WorkingSession} {s : Screening} (tracked : Tracked session)
    (last : next.lastSelected = session.lastSelected) (withdrawals : next.withdrawals = withdraw w session s) :
    withdraw w next s = next.withdrawals := by
  obtain ⟨once, apart, kept, _⟩ := withdraw_tracked (w := w) (s := s) tracked
  have defined := withdraw_eq w session s
  have distinct := nodup_noteAll (Dict.keys s.candidates) (withdrawalReason w s) session.lastSelected tracked.once
  have reasons : ∀ id ∈ session.lastSelected, id ∉ Dict.keys s.candidates →
      next.withdrawals.lookup id = some (withdrawalReason w s id) := by
    intro id member unfit
    have listed := kept id member unfit
    rw [← withdrawals] at listed
    obtain ⟨reason, found⟩ := Option.isSome_iff_exists.mp (Dict.lookup_isSome_iff.mpr listed)
    have entry := Dict.mem_of_lookup found
    rw [withdrawals, defined] at entry
    have noted := (List.mem_filter.mp (List.mem_of_mem_drop entry)).1
    have given := Dict.lookup_of_mem distinct noted
    rw [lookup_noteAll, if_pos ⟨member, unfit⟩] at given
    rw [found, given]
  have few : next.withdrawals.length ≤ maxCandidates := by
    rw [withdrawals, defined, List.length_drop]
    omega
  have all : next.withdrawals.filter (fun item => item.1 ∉ Dict.keys s.candidates) = next.withdrawals := by
    rw [List.filter_eq_self]
    intro item member
    rw [withdrawals] at member
    exact decide_eq_true (apart item.1 (List.mem_map_of_mem member))
  rw [withdraw_eq, last, noteAll_self reasons, all, Nat.sub_eq_zero_of_le few, List.drop_zero]

/-! Sessions that differ in their revision. -/

def WorkingSession.unnumbered (session : WorkingSession) : WorkingSession := { session with revision := 0 }

def ContextPacket.unnumbered (packet : ContextPacket) : ContextPacket := { packet with revision := 0 }

omit [Sha256] in
theorem draft_congr {w : World} {session next : WorkingSession} {s : Screening} {budget : Nat}
    (task : next.task = session.task) (withdrawals : next.withdrawals = session.withdrawals) :
    draft w next s budget = draft w session s budget := by
  cases session
  cases next
  simp only [WorkingSession.task, Prod.mk.injEq] at task withdrawals
  obtain ⟨rfl, rfl, rfl, rfl, rfl, rfl, rfl⟩ := task
  subst withdrawals
  rfl

/-- The packet and the session but for their revisions. -/
def unnumberedPair (made : ContextPacket × WorkingSession) : ContextPacket × WorkingSession :=
  (made.1.unnumbered, made.2.unnumbered)

/-- What is compiled depends on the screening, the task, the withdrawals and the last fingerprint. -/
theorem compile_alike {w : World} {session next : WorkingSession} {s : Screening} (screening : screen w session = .ok s)
    (screening' : screen w next = .ok s) (withdrawn : withdraw w next s = withdraw w session s)
    (task : next.task = session.task) (fingerprint : next.lastFingerprint = session.lastFingerprint) (budget : Nat)
    (force : Bool) : (compile w next budget force).map unnumberedPair =
      (compile w session budget force).map unnumberedPair := by
  have drafts : draft w (shown w next s) s budget = draft w (shown w session s) s budget := draft_congr task withdrawn
  simp only [shown] at drafts
  simp only [compile, screening, screening', Except.ok_bind, drafts]
  split
  · rfl
  · simp only [WorkingSession.task, Prod.mk.injEq] at task
    obtain ⟨sessionId, goal, constraints, focus, files, notes, pruned⟩ := task
    simp only [pure, Except.pure, Except.map, unnumberedPair, ContextPacket.unnumbered, WorkingSession.unnumbered,
      pruneBindings, withdrawn, fingerprint, sessionId, goal, constraints, focus, files, notes, pruned]

/-! Calls, as they act on the one session they are about. -/

def Command.sessionId : Command → String
  | .context sessionId _ | .start sessionId _ _ _ | .note sessionId _ _ _ _ | .invalidateDelivery sessionId => sessionId

/-- What a call keeps of what was compiled: an inspection leaves the delivery state as it found it. -/
def restore (args : ContextArgs) (session : WorkingSession) (made : ContextPacket × WorkingSession) :
    ContextPacket × WorkingSession :=
  (made.1, if args.consume then made.2
    else { made.2 with lastFingerprint := session.lastFingerprint, lastSelected := session.lastSelected })

def contextOn (w : World) (config : WorkingConfig) (args : ContextArgs) (session : WorkingSession) :
    Outcome (ContextPacket × WorkingSession) := do
  let session ← focusSession w session args
  checkBudget session config.budgetChars
  (compile w session config.budgetChars args.force).map (restore args session)

def requireFound (sessionId : String) (found : Option WorkingSession) : Outcome WorkingSession := do
  validateSessionId sessionId
  match found with
  | some session => return session
  | none => valueError "No working session; run onmc working start first"

def contextFound (w : World) (sessionId : String) (args : ContextArgs) (found : Option WorkingSession) :
    Outcome (ContextPacket × WorkingSession) := do
  let config ← readConfig w
  let session ← requireFound sessionId found
  contextOn w config args session

def noteOn (w : World) (kind : NoteKind) (text : String) (files : List String) (noteId : String)
    (session : WorkingSession) : WorkingSession :=
  match cleanText text 4000 "note", hashAnchors w files with
  | .error _, _ | .ok _, .error _ => session
  | .ok text, .ok anchors =>
    if session.notes.any (fun n => n.kind = kind && n.text = text && Dict.same n.anchors anchors) then session
    else addNote session ⟨noteId, kind, text, anchors⟩

def startOn (w : World) (sessionId goal : String) (constraints : Option (List String)) (replace : Bool)
    (found : Option WorkingSession) : Outcome WorkingSession := do
  validateSessionId sessionId
  let config ← readConfig w
  let goal ← cleanText goal 4000 "goal"
  match found, replace with
  | some current, false =>
    if current.goal ≠ goal then sessionExists
    match ← cleanGiven constraints with
    | none => return current
    | some cleaned => if current.constraints ≠ cleaned then sessionExists else return current
  | current, _ =>
    let revision := match current with
      | none => 1
      | some current => current.revision + 1
    let constraints := (← cleanGiven constraints).getD config.constraints
    let session := WorkingSession.fresh sessionId goal constraints revision
    checkBudget session config.budgetChars
    return session

/-- The session that a call leaves. -/
def Command.onSession (w : World) (found : Option WorkingSession) : Command → Option WorkingSession
  | .context sessionId args =>
    match contextFound w sessionId args found with
    | .ok made => some made.2
    | .error _ => found
  | .start sessionId goal constraints replace =>
    match startOn w sessionId goal constraints replace found with
    | .ok session => some session
    | .error _ => found
  | .note sessionId kind text files noteId =>
    match requireFound sessionId found with
    | .ok session => some (noteOn w kind text files noteId session)
    | .error _ => found
  | .invalidateDelivery sessionId =>
    match requireFound sessionId found with
    | .ok session => some { session with lastFingerprint := "" }
    | .error _ => found

/-- What a call of `context` returns. -/
def Command.answer (w : World) (found : Option WorkingSession) : Command → Option (Outcome ContextPacket)
  | .context sessionId args => some ((contextFound w sessionId args found).map Prod.fst)
  | _ => none

theorem context_eq (w : World) (sessionId : String) (args : ContextArgs) (sessions : Sessions) :
    context w sessionId args sessions = match contextFound w sessionId args (sessions.lookup sessionId) with
      | .ok made => (Dict.setItem sessionId made.2 sessions, .ok made.1)
      | .error e => (sessions, .error e) := by
  have required : requireSession sessions sessionId = requireFound sessionId (sessions.lookup sessionId) := rfl
  unfold context contextFound
  cases readConfig w with
  | error e => rfl
  | ok config =>
    simp only [transaction, contextSession, required, Except.ok_bind]
    cases requireFound sessionId (sessions.lookup sessionId) with
    | error e => rfl
    | ok current =>
      simp only [contextOn, Except.ok_bind]
      cases focusSession w current args with
      | error e => rfl
      | ok session =>
        simp only [Except.ok_bind]
        cases checkBudget session config.budgetChars with
        | error e => rfl
        | ok _ =>
          simp only [Except.ok_bind]
          cases compile w session config.budgetChars args.force with
          | error e => rfl
          | ok made => rfl

omit [Lowercase] [Sha256] in
theorem start_lookup (w : World) (sessionId goal : String) (constraints : Option (List String)) (replace : Bool)
    (sessions : Sessions) (j : String) : (start w sessionId goal constraints replace sessions).1.lookup j =
      if j = sessionId then
        (match startOn w sessionId goal constraints replace (sessions.lookup sessionId) with
        | .ok session => some session
        | .error _ => sessions.lookup sessionId)
      else sessions.lookup j := by
  have untouched : sessions.lookup j = if j = sessionId then sessions.lookup sessionId else sessions.lookup j := by
    split
    · rename_i same
      rw [same]
    · rfl
  unfold start startOn
  cases validateSessionId sessionId with
  | error e => exact untouched
  | ok _ =>
    cases readConfig w with
    | error e => exact untouched
    | ok config =>
      cases cleanText goal 4000 "goal" with
      | error e => exact untouched
      | ok goal =>
        have fresh : ∀ revision : Nat, (transaction (fun sessions => do
              let constraints := (← cleanGiven constraints).getD config.constraints
              let session := WorkingSession.fresh sessionId goal constraints revision
              checkBudget session config.budgetChars
              return (Dict.setItem sessionId session sessions, session)) sessions).1.lookup j =
            if j = sessionId then
              (match (do
                  let constraints := (← cleanGiven constraints).getD config.constraints
                  let session := WorkingSession.fresh sessionId goal constraints revision
                  checkBudget session config.budgetChars
                  return session : Outcome WorkingSession) with
              | .ok session => some session
              | .error _ => sessions.lookup sessionId)
            else sessions.lookup j := by
          intro revision
          unfold transaction
          cases cleanGiven constraints with
          | error e => exact untouched
          | ok given =>
            simp only [Except.ok_bind]
            cases checkBudget (.fresh sessionId goal (given.getD config.constraints) revision) config.budgetChars with
            | error e => exact untouched
            | ok _ => exact Dict.lookup_setItem ..
        simp only [Except.ok_bind]
        cases found : sessions.lookup sessionId with
        | none =>
          have made := fresh 1
          simp only [found] at made
          simpa only [startSession, transaction, found] using made
        | some current =>
          cases replace with
          | true =>
            have made := fresh (current.revision + 1)
            simp only [found] at made
            simpa only [startSession, transaction, found] using made
          | false =>
            rw [found] at untouched
            simp only [transaction, startSession, found]
            by_cases other : current.goal ≠ goal
            · simp only [if_pos other]
              exact untouched
            · simp only [if_neg other]
              cases cleanGiven constraints with
              | error e => exact untouched
              | ok given =>
                cases given with
                | none => exact untouched
                | some cleaned =>
                  by_cases differ : current.constraints ≠ cleaned
                  · simp only [Except.ok_bind, if_pos differ]
                    exact untouched
                  · simp only [Except.ok_bind, if_neg differ]
                    exact untouched

omit [Lowercase] [Sha256] in
theorem requireFound_ok {sessionId : String} {found : Option WorkingSession} {session : WorkingSession}
    (ok : requireFound sessionId found = .ok session) : found = some session := by
  obtain ⟨_, _, ok⟩ := Except.bind_ok.mp ok
  cases found with
  | none => cases ok
  | some current =>
    cases ok
    rfl

omit [Lowercase] [Sha256] in
theorem note_lookup (w : World) (sessionId : String) (kind : NoteKind) (text : String) (files : List String)
    (noteId : String) (sessions : Sessions) (j : String) :
    (note w sessionId kind text files noteId sessions).1.lookup j = if j = sessionId then
      (match requireFound sessionId (sessions.lookup sessionId) with
      | .ok session => some (noteOn w kind text files noteId session)
      | .error _ => sessions.lookup sessionId)
      else sessions.lookup j := by
  have required : requireSession sessions sessionId = requireFound sessionId (sessions.lookup sessionId) := rfl
  unfold note noteOn
  cases found : requireFound sessionId (sessions.lookup sessionId) with
  | error e =>
    have untouched : sessions.lookup j = if j = sessionId then sessions.lookup sessionId else sessions.lookup j := by
      split
      · rename_i same
        rw [same]
      · rfl
    cases cleanText text 4000 "note" with
    | error e => exact untouched
    | ok text =>
      cases hashAnchors w files with
      | error e => exact untouched
      | ok anchors =>
        simp only [transaction, required, found, Except.error_bind]
        exact untouched
  | ok session =>
    have untouched : sessions.lookup j = if j = sessionId then some session else sessions.lookup j := by
      split
      · rename_i same
        rw [same, requireFound_ok found]
      · rfl
    cases cleanText text 4000 "note" with
    | error e => exact untouched
    | ok text =>
      cases hashAnchors w files with
      | error e => exact untouched
      | ok anchors =>
        simp only [transaction, required, found, Except.ok_bind]
        by_cases known : (session.notes.any fun n =>
            n.kind = kind && n.text = text && Dict.same n.anchors anchors) = true
        · simp only [if_pos known]
          exact untouched
        · simp only [if_neg known]
          exact Dict.lookup_setItem ..

/-- A call acts on the session it is about, by what it finds there, and on no other. -/
theorem step_lookup (state : State) (w : World) (command : Command) (j : String) :
    (step state w command).sessions.lookup j = if j = command.sessionId then
      command.onSession w (state.sessions.lookup command.sessionId) else state.sessions.lookup j := by
  have untouched : ∀ sessionId, state.sessions.lookup j =
      if j = sessionId then state.sessions.lookup sessionId else state.sessions.lookup j := by
    intro sessionId
    split
    · rename_i same
      rw [same]
    · rfl
  cases command with
  | context sessionId args =>
    simp only [step, context_eq, Command.onSession, Command.sessionId]
    cases contextFound w sessionId args (state.sessions.lookup sessionId) with
    | error e => exact untouched sessionId
    | ok made => exact Dict.lookup_setItem ..
  | start sessionId goal constraints replace =>
    simp only [step, Command.onSession, Command.sessionId]
    exact start_lookup w sessionId goal constraints replace state.sessions j
  | note sessionId kind text files noteId =>
    simp only [step, Command.onSession, Command.sessionId]
    exact note_lookup w sessionId kind text files noteId state.sessions j
  | invalidateDelivery sessionId =>
    have required : requireSession state.sessions sessionId =
      requireFound sessionId (state.sessions.lookup sessionId) := rfl
    simp only [step, invalidateDelivery, transaction, required, Command.onSession, Command.sessionId]
    cases requireFound sessionId (state.sessions.lookup sessionId) with
    | error e => exact untouched sessionId
    | ok session => exact Dict.lookup_setItem ..

/-! Stores whose sessions differ in their revisions. -/

/-- A session, but for its revision. -/
abbrev Alike (found other : Option WorkingSession) : Prop :=
  found.map WorkingSession.unnumbered = other.map WorkingSession.unnumbered

def WorkingSession.renumber (session : WorkingSession) (revision : Nat) : WorkingSession := { session with revision }

omit [Lowercase] [Sha256] in
theorem renumbered {session other : WorkingSession} (same : session.unnumbered = other.unnumbered) :
    other = session.renumber other.revision := by
  cases session
  cases other
  simp only [WorkingSession.unnumbered, WorkingSession.mk.injEq] at same
  simp only [WorkingSession.renumber, same]

/-- The focus that a call gives. -/
def givenFocus (focus : Option String) : Outcome (Option String) :=
  match focus with
  | none => .ok none
  | some focus => (cleanText focus 4000 "focus").map some

/-- The files that a call gives. -/
def givenFiles (w : World) (files : Option (List String)) : Outcome (Option (List String)) :=
  match files with
  | none => .ok none
  | some files => (files.mapM (relative w)).map fun paths => some ((PyText.fromKeys paths).take maxFiles)

def given (w : World) (args : ContextArgs) : Outcome (Option String × Option (List String)) := do
  let focus ← givenFocus args.focus
  let files ← givenFiles w args.files
  return (focus, files)

/-- The session with what a call gives. -/
def WorkingSession.refocus (session : WorkingSession) (set : Option String × Option (List String)) : WorkingSession :=
  { session with focus := set.1.getD session.focus, activeFiles := set.2.getD session.activeFiles }

omit [Lowercase] [Sha256] in
theorem focusSession_eq (w : World) (session : WorkingSession) (args : ContextArgs) :
    focusSession w session args = (given w args).map session.refocus := by
  have first : setFocus args.focus session =
      (givenFocus args.focus).map fun focus => session.refocus (focus, none) := by
    unfold setFocus givenFocus
    cases args.focus with
    | none => rfl
    | some focus =>
      dsimp only
      cases cleanText focus 4000 "focus" <;> rfl
  have second : ∀ session, setFiles w args.files session =
      (givenFiles w args.files).map fun files => session.refocus (none, files) := by
    intro session
    unfold setFiles givenFiles
    cases args.files with
    | none => rfl
    | some files =>
      dsimp only
      cases files.mapM (relative w) <;> rfl
  unfold focusSession given
  rw [first]
  cases givenFocus args.focus with
  | error e => rfl
  | ok focus =>
    simp only [Except.map, Except.ok_bind, second]
    cases givenFiles w args.files <;> rfl

theorem compile_renumbered (w : World) (session : WorkingSession) (revision budget : Nat) (force : Bool) :
    (compile w (session.renumber revision) budget force).map unnumberedPair =
      (compile w session budget force).map unnumberedPair := by
  have same : screen w (session.renumber revision) = screen w session := rfl
  cases screening : screen w session with
  | error e => simp only [compile, same, screening, Except.error_bind]
  | ok s => exact compile_alike screening (same.trans screening) rfl rfl rfl budget force

omit [Lowercase] [Sha256] in
theorem restore_renumbered (made : Outcome (ContextPacket × WorkingSession)) (args : ContextArgs)
    (session : WorkingSession) :
    (made.map (restore args session)).map unnumberedPair = (made.map unnumberedPair).map (restore args session) := by
  cases made with
  | error e => rfl
  | ok made =>
    cases consumed : args.consume with
    | true => simp only [Except.map, restore, unnumberedPair, consumed, if_true]
    | false =>
      simp only [Except.map, restore, unnumberedPair, consumed]
      rfl

/-- The rest of a call, on the session with its focus and files. -/
def contextFor (w : World) (config : WorkingConfig) (args : ContextArgs) (session : WorkingSession) :
    Outcome (ContextPacket × WorkingSession) := do
  checkBudget session config.budgetChars
  (compile w session config.budgetChars args.force).map (restore args session)

theorem contextOn_eq (w : World) (config : WorkingConfig) (args : ContextArgs) (session : WorkingSession) :
    contextOn w config args session = given w args >>= fun set => contextFor w config args (session.refocus set) := by
  unfold contextOn
  rw [focusSession_eq]
  generalize given w args = outcome
  cases outcome with
  | error e => rw [Except.error_bind, Except.map, Except.error_bind]
  | ok set => rw [Except.ok_bind, Except.map, Except.ok_bind, contextFor]

theorem contextFor_renumbered (w : World) (config : WorkingConfig) (args : ContextArgs) (session : WorkingSession)
    (revision : Nat) : (contextFor w config args (session.renumber revision)).map unnumberedPair =
      (contextFor w config args session).map unnumberedPair := by
  have budget : checkBudget (session.renumber revision) config.budgetChars = checkBudget session config.budgetChars := rfl
  have finish : restore args (session.renumber revision) = restore args session := rfl
  rw [contextFor, contextFor, budget, finish]
  generalize checkBudget session config.budgetChars = checked
  cases checked with
  | error e => rw [Except.error_bind, Except.error_bind]
  | ok _ => rw [Except.ok_bind, Except.ok_bind, restore_renumbered, restore_renumbered, compile_renumbered]

theorem contextOn_renumbered (w : World) (config : WorkingConfig) (args : ContextArgs) (session : WorkingSession)
    (revision : Nat) : (contextOn w config args (session.renumber revision)).map unnumberedPair =
      (contextOn w config args session).map unnumberedPair := by
  have focusing : ∀ set, (session.renumber revision).refocus set = (session.refocus set).renumber revision :=
    fun _ => rfl
  rw [contextOn_eq, contextOn_eq]
  generalize given w args = outcome
  cases outcome with
  | error e => rw [Except.error_bind, Except.error_bind]
  | ok set => rw [Except.ok_bind, Except.ok_bind, focusing, contextFor_renumbered]

/-- What a call finds and answers in sessions that differ in their revisions differs in them alone. -/
theorem contextFound_alike {found other : Option WorkingSession} (same : Alike found other) (w : World)
    (sessionId : String) (args : ContextArgs) :
    (contextFound w sessionId args other).map unnumberedPair = (contextFound w sessionId args found).map unnumberedPair := by
  unfold contextFound requireFound
  cases readConfig w with
  | error e => rfl
  | ok config =>
    simp only [Except.ok_bind]
    cases validateSessionId sessionId with
    | error e => rfl
    | ok _ =>
      simp only [Except.ok_bind]
      cases found with
      | none =>
        cases other with
        | none => rfl
        | some other => cases same
      | some session =>
        cases other with
        | none => cases same
        | some other =>
          rw [renumbered (Option.some.inj same)]
          exact contextOn_renumbered w config args session other.revision

omit [Lowercase] [Sha256] in
theorem Alike.cases {found other : Option WorkingSession} (same : Alike found other) :
    (found = none ∧ other = none) ∨ ∃ session revision, found = some session ∧ other = some (session.renumber revision) := by
  cases found with
  | none =>
    cases other with
    | none => exact .inl ⟨rfl, rfl⟩
    | some other => cases same
  | some session =>
    cases other with
    | none => cases same
    | some other => exact .inr ⟨session, other.revision, rfl, congrArg some (renumbered (Option.some.inj same))⟩

omit [Lowercase] [Sha256] in
theorem noteOn_renumbered (w : World) (kind : NoteKind) (text : String) (files : List String) (noteId : String)
    (session : WorkingSession) (revision : Nat) :
    (noteOn w kind text files noteId (session.renumber revision)).unnumbered =
      (noteOn w kind text files noteId session).unnumbered := by
  unfold noteOn
  generalize cleanText text 4000 "note" = cleaned
  generalize hashAnchors w files = hashed
  cases cleaned with
  | error e => rfl
  | ok text =>
    cases hashed with
    | error e => rfl
    | ok anchors =>
      have notes : (session.renumber revision).notes = session.notes := rfl
      dsimp only
      rw [notes]
      split
      · rfl
      · rfl

/-- What a start makes of every session with this goal and these constraints. -/
def Restarts (w : World) (sessionId goal : String) (constraints : Option (List String)) (replace : Bool)
    (held : String) (pinned : List String) (outcome : WorkingSession → Outcome WorkingSession) : Prop :=
  ∀ session : WorkingSession, session.goal = held → session.constraints = pinned →
    startOn w sessionId goal constraints replace (some session) = outcome session

omit [Lowercase] [Sha256] in
/-- Starting a session again raises, changes nothing or begins afresh, by its goal and its constraints alone. -/
theorem startOn_cases (w : World) (sessionId goal : String) (constraints : Option (List String)) (replace : Bool)
    (held : String) (pinned : List String) :
    (∃ e, Restarts w sessionId goal constraints replace held pinned fun _ => .error e) ∨
      Restarts w sessionId goal constraints replace held pinned .ok ∨
      ∃ goal' constraints', Restarts w sessionId goal constraints replace held pinned fun session =>
        .ok (.fresh sessionId goal' constraints' (session.revision + 1)) := by
  unfold Restarts startOn
  generalize validateSessionId sessionId = valid
  generalize readConfig w = read
  generalize cleanText goal 4000 "goal" = cleaned
  generalize cleanGiven constraints = given
  cases valid with
  | error e => exact .inl ⟨e, fun _ _ _ => rfl⟩
  | ok _ =>
    cases read with
    | error e => exact .inl ⟨e, fun _ _ _ => rfl⟩
    | ok config =>
      cases cleaned with
      | error e => exact .inl ⟨e, fun _ _ _ => rfl⟩
      | ok goal =>
        cases replace with
        | false =>
          obtain ⟨refused, refuses⟩ : ∃ e, (sessionExists : Outcome WorkingSession) = .error e := ⟨_, rfl⟩
          simp only [Except.ok_bind]
          by_cases other : held = goal
          · cases given with
            | error e =>
              refine .inl ⟨e, fun session goals _ => ?_⟩
              rw [if_neg (not_not.mpr (goals.trans other))]
              rfl
            | ok given =>
              cases given with
              | none =>
                refine .inr (.inl fun session goals _ => ?_)
                rw [if_neg (not_not.mpr (goals.trans other))]
                rfl
              | some given =>
                by_cases differ : pinned = given
                · refine .inr (.inl fun session goals pins => ?_)
                  rw [if_neg (not_not.mpr (goals.trans other))]
                  exact if_neg (not_not.mpr (pins.trans differ))
                · refine .inl ⟨refused, fun session goals pins => ?_⟩
                  rw [if_neg (not_not.mpr (goals.trans other))]
                  exact (if_pos fun same => differ (pins.symm.trans same)).trans refuses
          · refine .inl ⟨refused, fun session goals _ => ?_⟩
            exact (if_pos fun same => other (goals.symm.trans same)).trans refuses
        | true =>
          cases given with
          | error e => exact .inl ⟨e, fun _ _ _ => rfl⟩
          | ok given =>
            have budget : ∀ revision, checkBudget (.fresh sessionId goal (given.getD config.constraints) revision)
              config.budgetChars = checkBudget (.fresh sessionId goal (given.getD config.constraints) 0)
                config.budgetChars := fun _ => rfl
            simp only [Except.ok_bind, budget]
            generalize checkBudget (.fresh sessionId goal (given.getD config.constraints) 0) config.budgetChars =
              checked
            cases checked with
            | error e => exact .inl ⟨e, fun _ _ _ => rfl⟩
            | ok _ => exact .inr (.inr ⟨_, _, fun _ _ _ => rfl⟩)

/-- A call leaves sessions that differ in their revisions alike. -/
theorem onSession_alike {found other : Option WorkingSession} (same : Alike found other) (w : World)
    (command : Command) : Alike (command.onSession w found) (command.onSession w other) := by
  cases command with
  | context sessionId args =>
    have made := contextFound_alike same w sessionId args
    simp only [Command.onSession]
    cases first : contextFound w sessionId args found with
    | error e =>
      cases second : contextFound w sessionId args other with
      | error e' => exact same
      | ok made' => simp [first, second, Except.map] at made
    | ok pair =>
      cases second : contextFound w sessionId args other with
      | error e' => simp [first, second, Except.map] at made
      | ok pair' =>
        simp only [first, second, Except.map, Except.ok.injEq, unnumberedPair, Prod.mk.injEq] at made
        exact congrArg some made.2.symm
  | start sessionId goal constraints replace =>
    rcases same.cases with ⟨rfl, rfl⟩ | ⟨session, revision, rfl, rfl⟩
    · rfl
    · simp only [Command.onSession]
      obtain ⟨e, raises⟩ | keeps | ⟨goal', constraints', begins⟩ :=
        startOn_cases w sessionId goal constraints replace session.goal session.constraints
      · rw [raises session rfl rfl, raises (session.renumber revision) rfl rfl]
        exact same
      · rw [keeps session rfl rfl, keeps (session.renumber revision) rfl rfl]
        exact same
      · rw [begins session rfl rfl, begins (session.renumber revision) rfl rfl]
        rfl
  | note sessionId kind text files noteId =>
    rcases same.cases with ⟨rfl, rfl⟩ | ⟨session, revision, rfl, rfl⟩
    · rfl
    · simp only [Command.onSession, requireFound]
      cases validateSessionId sessionId with
      | error e => exact same
      | ok _ => exact congrArg some (noteOn_renumbered w kind text files noteId session revision).symm
  | invalidateDelivery sessionId =>
    rcases same.cases with ⟨rfl, rfl⟩ | ⟨session, revision, rfl, rfl⟩
    · rfl
    · simp only [Command.onSession, requireFound]
      cases validateSessionId sessionId with
      | error e => exact same
      | ok _ => rfl

/-! A session that a call has previewed. -/

/-- What a preview made of a session, as a later call with the same focus and files meets it. -/
structure Previewed (w : World) (args : ContextArgs) (current seen : WorkingSession)
    (set : Option String × Option (List String)) (s : Screening) : Prop where
  given : given w args = .ok set
  screening : screen w (current.refocus set) = .ok s
  few : s.checks.bindings.length ≤ 240
  tracked : Tracked current
  room : ∃ config, readConfig w = .ok config ∧ (mandatory current).length + 240 ≤ config.budgetChars
  seen : seen.unnumbered = (shown w (current.refocus set) s).unnumbered

theorem preview_leaves {w : World} {config : WorkingConfig} {args : ContextArgs} {session : WorkingSession}
    {made : ContextPacket × WorkingSession} {s : Screening} (inspects : args.consume = false)
    (screening : screen w session = .ok s) (few : s.checks.bindings.length ≤ 240)
    (ok : contextFor w config args session = .ok made) :
    made.2.unnumbered = (shown w session s).unnumbered := by
  obtain ⟨_, _, ok⟩ := Except.bind_ok.mp ok
  simp only [compile, screening, Except.ok_bind] at ok
  split at ok
  · cases ok
  · cases ok
    have unpruned : ∀ session : WorkingSession, session.bindings = s.checks.bindings →
        pruneBindings session = s.checks.bindings := by
      intro session same
      rw [pruneBindings, same, if_neg (by omega)]
    simp only [restore, inspects, unpruned, WorkingSession.unnumbered, shown]
    rfl

section Previewed

variable {w : World} {args : ContextArgs} {current seen : WorkingSession} {set : Option String × Option (List String)}
  {s : Screening}

theorem Previewed.renumber (h : Previewed w args current seen set s) (revision : Nat) :
    Previewed w args current (seen.renumber revision) set s :=
  ⟨h.given, h.screening, h.few, h.tracked, h.room, h.seen⟩

theorem Previewed.seen_eq (h : Previewed w args current seen set s) :
    seen = (shown w (current.refocus set) s).renumber seen.revision :=
  renumbered h.seen.symm

omit [Lowercase] [Sha256] in
theorem noteOn_shown (w' : World) (kind : NoteKind) (text : String) (files : List String) (noteId : String) :
    noteOn w' kind text files noteId (shown w (current.refocus set) s) =
      shown w ((noteOn w' kind text files noteId current).refocus set) s := by
  unfold noteOn
  generalize cleanText text 4000 "note" = cleaned
  generalize hashAnchors w' files = hashed
  cases cleaned with
  | error e => rfl
  | ok text =>
    cases hashed with
    | error e => rfl
    | ok anchors =>
      have notes : (shown w (current.refocus set) s).notes = current.notes := rfl
      dsimp only
      rw [notes]
      split
      · rfl
      · rfl

theorem noteOn_memory (w : World) (current : WorkingSession) (set : Option String × Option (List String)) (w' : World)
    (kind : NoteKind) (text : String) (files : List String) (noteId : String) :
    (noteOn w' kind text files noteId current).lastSelected = current.lastSelected ∧
      (noteOn w' kind text files noteId current).withdrawals = current.withdrawals ∧
      mandatory (noteOn w' kind text files noteId current) = mandatory current ∧
      screen w ((noteOn w' kind text files noteId current).refocus set) = screen w (current.refocus set) := by
  unfold noteOn
  generalize cleanText text 4000 "note" = cleaned
  generalize hashAnchors w' files = hashed
  cases cleaned with
  | error e => exact ⟨rfl, rfl, rfl, rfl⟩
  | ok text =>
    cases hashed with
    | error e => exact ⟨rfl, rfl, rfl, rfl⟩
    | ok anchors =>
      dsimp only
      split
      · exact ⟨rfl, rfl, rfl, rfl⟩
      · exact ⟨rfl, rfl, rfl, rfl⟩

/-- A note leaves a previewed session previewed. -/
theorem Previewed.note (h : Previewed w args current seen set s) (w' : World) (kind : NoteKind) (text : String)
    (files : List String) (noteId : String) :
    Previewed w args (noteOn w' kind text files noteId current) (noteOn w' kind text files noteId seen) set s := by
  obtain ⟨last, withdrawals, fixed, same⟩ :=
    noteOn_memory w current set w' kind text files noteId
  obtain ⟨few, once, split⟩ := h.tracked
  refine ⟨h.given, same.trans h.screening, h.few, ?_, ?_, ?_⟩
  · rw [← last] at few split
    rw [← withdrawals] at once split
    exact ⟨few, once, split⟩
  · rw [fixed]
    exact h.room
  · rw [h.seen_eq, noteOn_renumbered, noteOn_shown]

/-- So does forgetting the last delivery. -/
theorem Previewed.invalidateDelivery (h : Previewed w args current seen set s) :
    Previewed w args { current with lastFingerprint := "" } { seen with lastFingerprint := "" } set s := by
  refine ⟨h.given, h.screening, h.few, ⟨h.tracked.few, h.tracked.once, h.tracked.split⟩, h.room, ?_⟩
  rw [h.seen_eq]
  rfl

/-- The call for which the preview was made compiles the same packet, and leaves the same session. -/
theorem Previewed.contextFor (h : Previewed w args current seen set s) (config : WorkingConfig) :
    (contextFor w config args (seen.refocus set)).map unnumberedPair =
      (contextFor w config args (current.refocus set)).map unnumberedPair := by
  have again : seen.refocus set = (shown w (current.refocus set) s).renumber seen.revision := by
    obtain ⟨focus, files⟩ := set
    rw [h.seen_eq]
    cases focus with
    | none =>
      cases files with
      | none => rfl
      | some files => rfl
    | some focus =>
      cases files with
      | none => rfl
      | some files => rfl
  have alike : LooksAlike (current.refocus set) (shown w (current.refocus set) s) := ⟨⟨rfl, rfl, rfl⟩, rfl⟩
  have tracked : Tracked (current.refocus set) := ⟨h.tracked.few, h.tracked.once, h.tracked.split⟩
  have screening := screen_settled alike h.screening rfl
  have withdrawn : withdraw w (shown w (current.refocus set) s) s = withdraw w (current.refocus set) s :=
    withdraw_settled tracked rfl rfl
  have compiles := compile_alike h.screening screening withdrawn rfl rfl config.budgetChars args.force
  have budget : checkBudget (shown w (current.refocus set) s) config.budgetChars =
    checkBudget (current.refocus set) config.budgetChars := rfl
  have finish : restore args (shown w (current.refocus set) s) = restore args (current.refocus set) := rfl
  rw [again, contextFor_renumbered, WorkingContext.contextFor, WorkingContext.contextFor, budget, finish]
  generalize checkBudget (current.refocus set) config.budgetChars = checked
  cases checked with
  | error e => rw [Except.error_bind, Except.error_bind]
  | ok _ => rw [Except.ok_bind, Except.ok_bind, restore_renumbered, restore_renumbered, compiles]

end Previewed

/-! Runs, with a preview and without. -/

/-- What a call of `context` returns, but for the packet's revision. -/
def answer (state : State) (w : World) : Command → Option (Outcome ContextPacket)
  | .context sessionId args => some ((context w sessionId args state.sessions).2.map ContextPacket.unnumbered)
  | _ => none

/-- What the calls that follow return. -/
def answers : State → List (World × Command) → List (Option (Outcome ContextPacket))
  | _, [] => []
  | state, (w, command) :: calls => answer state w command :: answers (step state w command) calls

theorem answer_context (state : State) (w : World) (sessionId : String) (args : ContextArgs) :
    answer state w (.context sessionId args) =
      some (((contextFound w sessionId args (state.sessions.lookup sessionId)).map unnumberedPair).map Prod.fst) := by
  rw [answer, context_eq]
  generalize contextFound w sessionId args (state.sessions.lookup sessionId) = outcome
  cases outcome with
  | error e => rfl
  | ok made => rfl

/-- Stores whose sessions are alike answer the same call alike and stay alike. -/
theorem step_alike {plain viewed : State} (alike : ∀ j, Alike (plain.sessions.lookup j) (viewed.sessions.lookup j))
    (w : World) (command : Command) : answer viewed w command = answer plain w command ∧
      ∀ j, Alike ((step plain w command).sessions.lookup j) ((step viewed w command).sessions.lookup j) := by
  constructor
  · cases command with
    | context sessionId args => rw [answer_context, answer_context, contextFound_alike (alike sessionId)]
    | start sessionId goal constraints replace => rfl
    | note sessionId kind text files noteId => rfl
    | invalidateDelivery sessionId => rfl
  · intro j
    rw [step_lookup, step_lookup]
    split
    · exact onSession_alike (alike command.sessionId) w command
    · exact alike j

theorem answers_alike {plain viewed : State} (alike : ∀ j, Alike (plain.sessions.lookup j) (viewed.sessions.lookup j))
    (calls : List (World × Command)) : answers viewed calls = answers plain calls := by
  induction calls generalizing plain viewed with
  | nil => rfl
  | cons call calls ih =>
    obtain ⟨w, command⟩ := call
    obtain ⟨same, after⟩ := step_alike alike w command
    rw [answers, answers, same, ih after]

/-- A session with and without a preview of it. -/
inductive Foreseen (w : World) (args : ContextArgs) : Option WorkingSession → Option WorkingSession → Prop where
  | alike {found other : Option WorkingSession} : Alike found other → Foreseen w args found other
  | previewed {current seen : WorkingSession} {set : Option String × Option (List String)} {s : Screening} :
    Previewed w args current seen set s → Foreseen w args (some current) (some seen)

/-- Calls that compile no packet keep it so. -/
theorem Foreseen.onSession {w : World} {args : ContextArgs} {found other : Option WorkingSession}
    (h : Foreseen w args found other) (w' : World) {command : Command}
    (quiet : ∀ sessionId args', command ≠ .context sessionId args') :
    Foreseen w args (command.onSession w' found) (command.onSession w' other) := by
  cases h with
  | alike same => exact .alike (onSession_alike same w' command)
  | @previewed current seen set s h =>
    cases command with
    | context sessionId args' => exact absurd rfl (quiet sessionId args')
    | start sessionId goal constraints replace =>
      have goals : seen.goal = current.goal := by rw [h.seen_eq]; rfl
      have pins : seen.constraints = current.constraints := by rw [h.seen_eq]; rfl
      simp only [Command.onSession]
      obtain ⟨e, raises⟩ | keeps | ⟨goal', constraints', begins⟩ :=
        startOn_cases w' sessionId goal constraints replace current.goal current.constraints
      · rw [raises current rfl rfl, raises seen goals pins]
        exact .previewed h
      · rw [keeps current rfl rfl, keeps seen goals pins]
        exact .previewed h
      · rw [begins current rfl rfl, begins seen goals pins]
        exact .alike rfl
    | note sessionId kind text files noteId =>
      simp only [Command.onSession, requireFound]
      generalize validateSessionId sessionId = valid
      cases valid with
      | error e => exact .previewed h
      | ok _ => exact .previewed (h.note w' kind text files noteId)
    | invalidateDelivery sessionId =>
      simp only [Command.onSession, requireFound]
      generalize validateSessionId sessionId = valid
      cases valid with
      | error e => exact .previewed h
      | ok _ => exact .previewed h.invalidateDelivery

/-- The call for which the preview was made answers alike and leaves alike. -/
theorem Foreseen.contextFound {w : World} {args : ContextArgs} {found other : Option WorkingSession}
    (h : Foreseen w args found other) (sessionId : String) :
    (contextFound w sessionId args other).map unnumberedPair =
      (contextFound w sessionId args found).map unnumberedPair := by
  cases h with
  | alike same => exact contextFound_alike same w sessionId args
  | previewed h =>
    unfold WorkingContext.contextFound requireFound
    generalize readConfig w = read
    generalize validateSessionId sessionId = valid
    cases read with
    | error e => rw [Except.error_bind, Except.error_bind]
    | ok config =>
      cases valid with
      | error e => rfl
      | ok _ =>
        have made := h.contextFor config
        simp only [Except.ok_bind, contextOn_eq, h.given]
        exact made

/-- A call with room for the goal and the constraints returns, once its screening does. -/
theorem contextFound_returns {w : World} {config : WorkingConfig} {args : ContextArgs} {current : WorkingSession}
    {set : Option String × Option (List String)} {s : Screening} {sessionId : String}
    (read : readConfig w = .ok config) (valid : validateSessionId sessionId = .ok ()) (gives : given w args = .ok set)
    (room : (mandatory current).length + 240 ≤ config.budgetChars) (screening : screen w (current.refocus set) = .ok s) :
    ∃ made, contextFor w config args (current.refocus set) = .ok made ∧
      contextFound w sessionId args (some current) = .ok made := by
  have fixed : mandatory (current.refocus set) = mandatory current := rfl
  rw [← fixed] at room
  have checked : checkBudget (current.refocus set) config.budgetChars = .ok () := by
    rw [checkBudget, raiseIf, if_neg (Nat.not_lt.mpr room)]
  obtain ⟨packet, after, compiled⟩ := compile_defined args.force room screening
  refine ⟨restore args (current.refocus set) (packet, after), ?_, ?_⟩
  · rw [contextFor, checked, Except.ok_bind, compiled, Except.map]
  · simp only [contextFound, requireFound, read, valid, Except.ok_bind]
    rw [pure_bind, contextOn_eq, gives, Except.ok_bind, contextFor, checked, Except.ok_bind, compiled, Except.map]

theorem Foreseen.context {w : World} {args : ContextArgs} {found other : Option WorkingSession}
    (h : Foreseen w args found other) {sessionId : String} (valid : validateSessionId sessionId = .ok ()) :
    Alike ((Command.context sessionId args).onSession w found) ((Command.context sessionId args).onSession w other) := by
  have same := h.contextFound sessionId
  cases h with
  | alike alike => exact onSession_alike alike w (.context sessionId args)
  | previewed h =>
    obtain ⟨config, read, room⟩ := h.room
    obtain ⟨made, _, returned⟩ := contextFound_returns read valid h.given room h.screening
    simp only [Command.onSession, returned]
    simp only [returned, Except.map] at same
    split at same
    · cases same
    · rename_i made' returned'
      rw [returned']
      simp only [Except.ok.injEq, unnumberedPair, Prod.mk.injEq] at same
      exact congrArg some same.2.symm

theorem step_tracked {state : State} (h : ∀ j session, state.sessions.lookup j = some session → Tracked session)
    (w : World) (command : Command) (j : String) (session : WorkingSession)
    (found : (step state w command).sessions.lookup j = some session) : Tracked session := by
  have save : ∀ (id : String) (next : WorkingSession), Tracked next →
      (Dict.setItem id next state.sessions).lookup j = some session → Tracked session := by
    intro id next tracked found
    rw [Dict.lookup_setItem] at found
    split at found
    · obtain rfl := Option.some.inj found
      exact tracked
    · exact h j session found
  cases command with
  | context id args =>
    simp only [step] at found
    split at found
    · rename_i sessions e failed
      rw [context_error failed] at found
      exact h j session found
    · rename_i sessions packet ok
      obtain ⟨current, focus, next, s, did⟩ := context_ok ok
      rw [did.saved] at found
      exact save id next (did.tracked (h id current did.found)) found
  | start id goal constraints replace =>
    simp only [step] at found
    rcases start_cases w id goal constraints replace state.sessions with
      ⟨same, _⟩ | ⟨cleaned, given, revision, saved, _, _⟩
    · rw [same] at found
      exact h j session found
    · rw [saved] at found
      exact save id _ (tracked_fresh id cleaned given revision) found
  | note id kind text files noteId =>
    simp only [step] at found
    rcases note_cases w id kind text files noteId state.sessions with
      ⟨same, _⟩ | ⟨current, added, known, _, _, saved⟩
    · rw [same] at found
      exact h j session found
    · obtain ⟨few, once, split⟩ := h id current known
      rw [saved] at found
      exact save id (addNote current added) ⟨few, once, split⟩ found
  | invalidateDelivery id =>
    simp only [step, invalidateDelivery] at found
    unfold transaction at found
    split at found
    · rename_i after done ok
      obtain ⟨current, known, ok⟩ := Except.bind_ok.mp ok
      obtain ⟨rfl, _⟩ := Prod.mk.inj (Except.ok.inj ok)
      obtain ⟨few, once, split⟩ := h id current (requireSession_ok known)
      exact save id { current with lastFingerprint := "" } ⟨few, once, split⟩ found
    · exact h j session found

theorem run_tracked (calls : List (World × Command)) (j : String) (session : WorkingSession)
    (found : (run calls).sessions.lookup j = some session) : Tracked session := by
  induction calls using List.reverseRecOn generalizing j session with
  | nil => cases found
  | append_singleton calls call ih =>
    rw [run_snoc] at found
    exact step_tracked ih call.1 call.2 j session found

/-- Two stores alike but for one session, of which the second has seen a preview. -/
structure Foresees (w : World) (sessionId : String) (args : ContextArgs) (plain viewed : State) : Prop where
  here : Foreseen w args (plain.sessions.lookup sessionId) (viewed.sessions.lookup sessionId)
  others : ∀ j, j ≠ sessionId → Alike (plain.sessions.lookup j) (viewed.sessions.lookup j)

/-- A call that compiles no packet for that session. -/
theorem Foresees.step {w : World} {sessionId : String} {args : ContextArgs} {plain viewed : State}
    (h : Foresees w sessionId args plain viewed) (w' : World) {command : Command}
    (quiet : ∀ args', command ≠ .context sessionId args') : answer viewed w' command = answer plain w' command ∧
      Foresees w sessionId args (step plain w' command) (step viewed w' command) := by
  refine ⟨?_, ?_, ?_⟩
  · cases command with
    | context id args' =>
      have other : id ≠ sessionId := fun same => quiet args' (same ▸ rfl)
      rw [answer_context, answer_context, contextFound_alike (h.others id other)]
    | start id goal constraints replace => rfl
    | note id kind text files noteId => rfl
    | invalidateDelivery id => rfl
  · rw [step_lookup, step_lookup]
    by_cases same : sessionId = command.sessionId
    · rw [if_pos same, if_pos same, ← same]
      refine h.here.onSession w' ?_
      rintro id args' rfl
      exact quiet args' (same ▸ rfl)
    · rw [if_neg same, if_neg same]
      exact h.here
  · intro j other
    rw [step_lookup, step_lookup]
    split
    · rename_i same
      rw [← same]
      exact onSession_alike (h.others j other) w' command
    · exact h.others j other

/-- The call for which the preview was made, and whatever follows. -/
theorem Foresees.answers {w : World} {sessionId : String} {args : ContextArgs} {plain viewed : State}
    (valid : validateSessionId sessionId = .ok ()) (h : Foresees w sessionId args plain viewed)
    {between : List (World × Command)} (quiet : ∀ call ∈ between, ∀ args', call.2 ≠ .context sessionId args')
    (later : List (World × Command)) :
    answers viewed (between ++ (w, .context sessionId args) :: later) =
      answers plain (between ++ (w, .context sessionId args) :: later) := by
  induction between generalizing plain viewed with
  | nil =>
    have same := h.here.contextFound sessionId
    have after : ∀ j, Alike ((WorkingContext.step plain w (.context sessionId args)).sessions.lookup j)
        ((WorkingContext.step viewed w (.context sessionId args)).sessions.lookup j) := by
      intro j
      rw [step_lookup, step_lookup]
      split
      · exact h.here.context valid
      · rename_i other
        exact h.others j other
    rw [List.nil_append, WorkingContext.answers, WorkingContext.answers, answer_context, answer_context, same,
      answers_alike after]
  | cons call between ih =>
    obtain ⟨w', command⟩ := call
    obtain ⟨same, after⟩ := h.step w' (quiet (w', command) List.mem_cons_self)
    rw [List.cons_append, WorkingContext.answers, WorkingContext.answers, same,
      ih after (fun call member => quiet call (List.mem_cons_of_mem _ member))]

/-- What a call that returned did to the session it found. -/
theorem contextFound_ok {w : World} {sessionId : String} {args : ContextArgs} {found : Option WorkingSession}
    {made : ContextPacket × WorkingSession} (ok : contextFound w sessionId args found = .ok made) :
    ∃ config current set, readConfig w = .ok config ∧ validateSessionId sessionId = .ok () ∧ found = some current ∧
      given w args = .ok set ∧ contextFor w config args (current.refocus set) = .ok made := by
  obtain ⟨config, read, ok⟩ := Except.bind_ok.mp ok
  obtain ⟨current, required, ok⟩ := Except.bind_ok.mp ok
  obtain ⟨_, valid, _⟩ := Except.bind_ok.mp required
  rw [contextOn_eq] at ok
  obtain ⟨set, gives, ok⟩ := Except.bind_ok.mp ok
  exact ⟨config, current, set, read, valid, requireFound_ok required, gives, ok⟩

/-- A preview that evicts no source binding, for a call with the focus and the files it had. -/
theorem foresees_preview {state : State} {w : World} {sessionId : String} {preview args : ContextArgs}
    (tracked : ∀ current, state.sessions.lookup sessionId = some current → Tracked current)
    (inspects : preview.consume = false)
    (unevicted : ∀ s, focused w sessionId preview state.sessions >>= screen w = .ok s → s.checks.bindings.length ≤ 240)
    (same : focused w sessionId args state.sessions = focused w sessionId preview state.sessions) :
    (step state w (.context sessionId preview)).sessions = state.sessions ∨
      (validateSessionId sessionId = .ok () ∧
        Foresees w sessionId args state (step state w (.context sessionId preview))) := by
  cases outcome : contextFound w sessionId preview (state.sessions.lookup sessionId) with
  | error e =>
    left
    simp only [step, context_eq, outcome]
  | ok made =>
    right
    obtain ⟨config, current, set, read, valid, found, gives, made_ok⟩ := contextFound_ok outcome
    have focuses : ∀ args', focused w sessionId args' state.sessions = (given w args').map current.refocus := by
      intro args'
      have required : requireSession state.sessions sessionId = .ok current := by
        simp only [requireSession, valid, found, Except.ok_bind]
        rfl
      rw [focused, required, Except.ok_bind, focusSession_eq]
    obtain ⟨_, budget, compiled⟩ := Except.bind_ok.mp made_ok
    cases screening : screen w (current.refocus set) with
    | error e => simp [compile, screening, Except.error_bind, Except.map] at compiled
    | ok s =>
      have few : s.checks.bindings.length ≤ 240 := by
        apply unevicted
        rw [focuses, gives, Except.map, Except.ok_bind, screening]
      rw [focuses, focuses, gives] at same
      cases gives' : given w args with
      | error e => simp [gives', Except.map] at same
      | ok set' =>
        simp only [gives', Except.map, Except.ok.injEq] at same
        refine ⟨valid, ?_, ?_⟩
        · rw [step_lookup]
          simp only [Command.onSession, Command.sessionId, if_true, outcome]
          rw [found]
          refine .previewed ⟨gives', same ▸ screening, few, tracked current found, ⟨config, read, ?_⟩, ?_⟩
          · exact checkBudget_ok budget
          · rw [preview_leaves inspects screening few made_ok, same]
        · intro j other
          rw [step_lookup]
          split
          · rename_i here
            exact absurd here other
          · rfl

/-- After a preview that evicted no source binding, whatever calls follow return what they would have
returned without it, but for the revisions in their packets, as long as the first to compile a packet
for the session finds the repository, the focus and the files as the preview did. -/
theorem preview_unseen {calls between : List (World × Command)} {w : World} {sessionId : String}
    {preview args : ContextArgs} (inspects : preview.consume = false)
    (unevicted : ∀ s, focused w sessionId preview (run calls).sessions >>= screen w = .ok s →
      s.checks.bindings.length ≤ 240)
    (same : focused w sessionId args (run calls).sessions = focused w sessionId preview (run calls).sessions)
    (quiet : ∀ call ∈ between, ∀ args', call.2 ≠ .context sessionId args') (later : List (World × Command)) :
    answers (step (run calls) w (.context sessionId preview)) (between ++ (w, .context sessionId args) :: later) =
      answers (run calls) (between ++ (w, .context sessionId args) :: later) := by
  rcases foresees_preview (run_tracked calls sessionId) inspects unevicted same with unchanged | ⟨valid, foresees⟩
  · apply answers_alike
    intro j
    rw [unchanged]
  · exact foresees.answers valid quiet later

omit [Lowercase] [Sha256] in
/-- A memory is previewed and delivered, with a note in between, and quarantined. -/
theorem preview_unseen_begun :
    let _ := Lowercase.ascii
    let _ := Sha256.standard
    let before := run [(exampleWorld [], begin)]
    let calls := [(exampleWorld [], .note "s" .decision "x2" [] "n"),
      (exampleWorld [exampleMemory "b" false], .context "s" ⟨some "x1", none, false, true⟩),
      (exampleWorld [exampleMemory "b" true], consume)]
    answers (step before (exampleWorld [exampleMemory "b" false]) (.context "s" ⟨some "x1", none, false, false⟩)) calls =
      answers before calls := by
  intro _ _ before calls
  have evaluated : (focused (exampleWorld [exampleMemory "b" false]) "s" ⟨some "x1", none, false, false⟩
      [("s", .fresh "s" "x1" [] 1)] >>= screen (exampleWorld [exampleMemory "b" false])).toOption.map (fun s =>
        s.checks.bindings.length) = some 0 := by
    decide +kernel
  have started : (run [(exampleWorld [], begin)]).sessions = [("s", .fresh "s" "x1" [] 1)] := by
    simp only [run, List.foldl_cons, List.foldl_nil, step, begin, start_example]
  have unevicted : ∀ s, focused (exampleWorld [exampleMemory "b" false]) "s" ⟨some "x1", none, false, false⟩
      (run [(exampleWorld [], begin)]).sessions >>= screen (exampleWorld [exampleMemory "b" false]) = .ok s →
        s.checks.bindings.length ≤ 240 := by
    intro s ok
    rw [started] at ok
    rw [ok] at evaluated
    have unbound : s.checks.bindings.length = 0 := Option.some.inj evaluated
    omega
  have same : focused (exampleWorld [exampleMemory "b" false]) "s" ⟨some "x1", none, false, true⟩
      (run [(exampleWorld [], begin)]).sessions = focused (exampleWorld [exampleMemory "b" false]) "s"
        ⟨some "x1", none, false, false⟩ (run [(exampleWorld [], begin)]).sessions := rfl
  have quiet : ∀ call ∈ [(exampleWorld [], Command.note "s" .decision "x2" [] "n")], ∀ args',
      call.2 ≠ .context "s" args' := by
    intro call member args' same
    obtain rfl := List.mem_singleton.mp member
    cases same
  exact preview_unseen rfl unevicted same quiet [(exampleWorld [exampleMemory "b" true], consume)]

/-! What a preview does show. -/

/-- A session that has withdrawn a memory. -/
def withdrawing : WorkingSession :=
  { WorkingSession.fresh "s" "x1" [] 3 with withdrawals := [("b", "quarantined")] }

def previewing (focus : String) : ContextArgs := ⟨some focus, none, false, false⟩

def consuming (focus : String) : ContextArgs := ⟨some focus, none, false, true⟩

/-- A memory that the goal does not bring up. -/
def aside : MemoryEntry := { exampleMemory "b" false with title := "y1" }

theorem compile_revision {w : World} {session : WorkingSession} {made : ContextPacket × WorkingSession} {budget : Nat}
    {force : Bool} (ok : compile w session budget force = .ok made)
    (changes : Sha256.hexdigest made.1.markdown ≠ session.lastFingerprint) :
    made.1.revision = session.revision + 1 ∧ made.2.revision = session.revision + 1 := by
  obtain ⟨s, screening, ok⟩ := Except.bind_ok.mp ok
  dsimp only at ok
  split at ok
  · cases ok
  · obtain rfl := Except.ok.inj ok
    exact ⟨if_pos (decide_eq_true changes), if_pos (decide_eq_true changes)⟩

theorem contextFor_revision {w : World} {config : WorkingConfig} {args : ContextArgs} {session : WorkingSession}
    {made : ContextPacket × WorkingSession} (ok : contextFor w config args session = .ok made)
    (changes : Sha256.hexdigest made.1.markdown ≠ session.lastFingerprint) :
    made.1.revision = session.revision + 1 ∧ made.2.revision = session.revision + 1 := by
  obtain ⟨_, _, ok⟩ := Except.bind_ok.mp ok
  cases compiled : compile w session config.budgetChars args.force with
  | error e =>
    rw [compiled] at ok
    cases ok
  | ok pair =>
    rw [compiled] at ok
    obtain rfl := Except.ok.inj ok
    obtain ⟨first, second⟩ := compile_revision compiled changes
    refine ⟨first, ?_⟩
    unfold restore
    split
    · exact second
    · exact second

omit [Lowercase] [Sha256] in
theorem mandatory_example {session : WorkingSession} (head : mandatory session = mandatory (.fresh "s" "x1" [] 1)) :
    (mandatory session).length + 240 ≤ 1000 := by
  have plain : Plain (.fresh "s" "x1" [] 1) := ⟨rfl, rfl⟩
  have short := length_mandatory plain
  rw [head]
  omega

theorem context_example {memories : List MemoryEntry} (session : WorkingSession) (args : ContextArgs) {focus : String}
    {s : Screening} (head : mandatory session = mandatory (.fresh "s" "x1" [] 1))
    (gives : given (exampleWorld memories) args = .ok (some focus, none))
    (screening : screen (exampleWorld memories) (session.refocus (some focus, none)) = .ok s) :
    ∃ made, contextFor (exampleWorld memories) ⟨true, 1000, [], by decide⟩ args (session.refocus (some focus, none)) =
        .ok made ∧ context (exampleWorld memories) "s" args [("s", session)] = ([("s", made.2)], .ok made.1) := by
  have read : readConfig (exampleWorld memories) = .ok ⟨true, 1000, [], by decide⟩ := rfl
  obtain ⟨made, compiled, called⟩ :=
    contextFound_returns read valid_example gives (mandatory_example head) screening
  have found : [("s", session)].lookup "s" = some session := rfl
  refine ⟨made, compiled, ?_⟩
  rw [context_eq, found, called]
  rfl

theorem screen_of_toOption {w : World} {session : WorkingSession} {s : Screening}
    (found : (screen w session).toOption = some s) : screen w session = .ok s := by
  cases outcome : screen w session with
  | error e =>
    rw [outcome] at found
    cases found
  | ok t =>
    rw [outcome] at found
    exact congrArg Except.ok (Option.some.inj found)

/-- A consuming call withdraws what the screening makes it withdraw. -/
theorem consuming_example (memories : List MemoryEntry) (session : WorkingSession) (revision : Nat) (focus : String)
    (gone : List String)
    (head : mandatory session = mandatory (.fresh "s" "x1" [] 1))
    (gives : given (exampleWorld memories) (consuming focus) = .ok (some focus, none))
    (evaluated : (screen (exampleWorld memories) (session.refocus (some focus, none))).toOption.map (fun s =>
      Dict.keys (withdraw (exampleWorld memories) (session.refocus (some focus, none)) s)) = some gone) :
    ∃ packet, (context (exampleWorld memories) "s" (consuming focus) [("s", session.renumber revision)]).2 = .ok packet ∧
      packet.withdrawn = gone := by
  obtain ⟨s, screened, withdrawn⟩ := Option.map_eq_some_iff.mp evaluated
  have screening : screen (exampleWorld memories) ((session.renumber revision).refocus (some focus, none)) = .ok s :=
    screen_of_toOption screened
  obtain ⟨made, compiled, called⟩ := context_example (session.renumber revision) (consuming focus) head gives screening
  refine ⟨made.1, by rw [called], ?_⟩
  obtain ⟨_, _, compiled⟩ := Except.bind_ok.mp compiled
  cases outcome : compile (exampleWorld memories) ((session.renumber revision).refocus (some focus, none)) 1000
      (consuming focus).force with
  | error e =>
    rw [outcome] at compiled
    cases compiled
  | ok pair =>
    rw [outcome] at compiled
    obtain rfl := Except.ok.inj compiled
    obtain ⟨t, d, screening', _, _, listed, _⟩ := compile_ok outcome
    obtain rfl : s = t := Except.ok.inj (screening.symm.trans screening')
    exact listed.trans withdrawn

/-- The session that has withdrawn nothing. -/
def reminded (focus : String) : WorkingSession := { WorkingSession.fresh "s" "x1" [] 3 with focus }

/-- A preview that brings the withdrawn memory up leaves no withdrawal. -/
theorem previewing_example (memories : List MemoryEntry) (focus : String)
    (gives : given (exampleWorld memories) (previewing focus) = .ok (some focus, none))
    (evaluated : (screen (exampleWorld memories) (withdrawing.refocus (some focus, none))).toOption.map
      (fun s => (s.checks.bindings.length, withdraw (exampleWorld memories)
        (withdrawing.refocus (some focus, none)) s)) = some (0, [])) :
    ∃ revision, (context (exampleWorld memories) "s" (previewing focus) [("s", withdrawing)]).1 =
      [("s", (reminded focus).renumber revision)] := by
  obtain ⟨s, screened, values⟩ := Option.map_eq_some_iff.mp evaluated
  obtain ⟨unbound, withdrawn⟩ := Prod.mk.inj values
  have screening := screen_of_toOption screened
  obtain ⟨made, compiled, called⟩ := context_example withdrawing (previewing focus) rfl gives screening
  have few : s.checks.bindings.length ≤ 240 := by omega
  have left : made.2.unnumbered = (reminded focus).unnumbered := by
    rw [preview_leaves rfl screening few compiled]
    simp only [shown, withdrawn, List.eq_nil_of_length_eq_zero unbound]
    rfl
  refine ⟨made.2.revision, ?_⟩
  rw [called, ← renumbered left.symm]

/-- A preview takes a revision. -/
theorem revision_example (digests : ∀ text, Sha256.hexdigest text ≠ "")
    (evaluated : (screen (exampleWorld []) (withdrawing.refocus (some "x1", none))).toOption.map (fun s =>
      s.checks.bindings.length) = some 0) :
    ∃ packet packet', (context (exampleWorld []) "s" (consuming "x1") [("s", withdrawing)]).2 = .ok packet ∧
      (context (exampleWorld []) "s" (consuming "x1")
        (context (exampleWorld []) "s" (previewing "x1") [("s", withdrawing)]).1).2 = .ok packet' ∧
      packet.revision = 4 ∧ packet'.revision = 5 := by
  obtain ⟨s, screened, unbound⟩ := Option.map_eq_some_iff.mp evaluated
  have screening := screen_of_toOption screened
  have few : s.checks.bindings.length ≤ 240 := by omega
  obtain ⟨plain, first, called⟩ := context_example withdrawing (consuming "x1") rfl rfl screening
  obtain ⟨viewed, second, previewed⟩ := context_example withdrawing (previewing "x1") rfl rfl screening
  have numbered := contextFor_revision second (digests _)
  have left := preview_leaves rfl screening few second
  have seen : viewed.2 = (shown (exampleWorld []) (withdrawing.refocus (some "x1", none)) s).renumber 4 := by
    have next := renumbered left.symm
    rw [numbered.2] at next
    exact next
  have alike : LooksAlike (withdrawing.refocus (some "x1", none))
    ((shown (exampleWorld []) (withdrawing.refocus (some "x1", none)) s).renumber 4) := ⟨⟨rfl, rfl, rfl⟩, rfl⟩
  have again := screen_settled alike screening rfl
  obtain ⟨last, third, called'⟩ := context_example
    ((shown (exampleWorld []) (withdrawing.refocus (some "x1", none)) s).renumber 4) (consuming "x1") rfl rfl again
  refine ⟨plain.1, last.1, by rw [called], ?_, (contextFor_revision first (digests _)).1,
    (contextFor_revision third (digests _)).1⟩
  rw [previewed]
  dsimp only
  rw [seen, called']

omit [Lowercase] [Sha256] in
/-- The next packet has another revision; after a preview with another focus, or of another repository,
it does not withdraw what it would have withdrawn. -/
theorem preview_seen :
    let _ := Lowercase.ascii
    let _ := Sha256.standard
    let returned (memories : List MemoryEntry) (sessions : Sessions) :=
      (context (exampleWorld memories) "s" (consuming "x1") sessions).2
    let previewed (memories : List MemoryEntry) (focus : String) :=
      (context (exampleWorld memories) "s" (previewing focus) [("s", withdrawing)]).1
    (∃ packet packet', returned [] [("s", withdrawing)] = .ok packet ∧ returned [] (previewed [] "x1") = .ok packet' ∧
      packet.revision = 4 ∧ packet'.revision = 5) ∧
    (∃ packet packet', returned [aside] [("s", withdrawing)] = .ok packet ∧
      returned [aside] (previewed [aside] "y1") = .ok packet' ∧ packet.withdrawn = ["b"] ∧ packet'.withdrawn = []) ∧
    ∃ packet packet', returned [exampleMemory "b" true] [("s", withdrawing)] = .ok packet ∧
      returned [exampleMemory "b" true] (previewed [exampleMemory "b" false] "x1") = .ok packet' ∧
      packet.withdrawn = ["b"] ∧ packet'.withdrawn = [] := by
  intro _ _ returned previewed
  refine ⟨?_, ?_, ?_⟩
  · refine revision_example (fun text empty => ?_) (by decide +kernel)
    exact (Sha256.sha256_hex text).1 (congrArg String.toList empty)
  · obtain ⟨packet, called, withdrawn⟩ := consuming_example [aside] withdrawing 3 "x1" ["b"] rfl rfl
      (by decide +kernel)
    obtain ⟨revision, viewed⟩ := previewing_example [aside] "y1" rfl (by decide +kernel)
    obtain ⟨packet', called', withdrawn'⟩ := consuming_example [aside] (reminded "y1") revision "x1" [] rfl rfl
      (by decide +kernel)
    refine ⟨packet, packet', called, ?_, withdrawn, withdrawn'⟩
    simp only [returned, previewed, viewed]
    exact called'
  · obtain ⟨packet, called, withdrawn⟩ := consuming_example [exampleMemory "b" true] withdrawing 3 "x1" ["b"] rfl rfl
      (by decide +kernel)
    obtain ⟨revision, viewed⟩ := previewing_example [exampleMemory "b" false] "x1" rfl (by decide +kernel)
    obtain ⟨packet', called', withdrawn'⟩ :=
      consuming_example [exampleMemory "b" true] (reminded "x1") revision "x1" [] rfl rfl (by decide +kernel)
    refine ⟨packet, packet', called, ?_, withdrawn, withdrawn'⟩
    simp only [returned, previewed, viewed]
    exact called'

end Onmc.WorkingContext
