import Onmc.Delivery
import Onmc.WorkingContext.Withdrawals

/-! Runs of calls on the stored sessions, each in whatever world it finds, and what the consumed packets
deliver and withdraw over them. -/
namespace Onmc.WorkingContext

variable [Lowercase] [Sha256]

inductive Command where
  | context (sessionId : String) (args : ContextArgs)
  | start (sessionId goal : String) (constraints : Option (List String)) (replace : Bool)
  | note (sessionId : String) (kind : NoteKind) (text : String) (files : List String) (noteId : String)
  | invalidateDelivery (sessionId : String)

/-- The sessions, and what the consumed packets delivered in each. -/
structure State where
  sessions : Sessions
  log : List (String × Delivery String)

def State.deliveries (state : State) (sessionId : String) : List (Delivery String) :=
  (state.log.filter (fun entry => entry.1 = sessionId)).map Prod.snd

/-- The session a call of `context` compiles for. -/
def focused (w : World) (sessionId : String) (args : ContextArgs) (sessions : Sessions) : Outcome WorkingSession := do
  let session ← requireSession sessions sessionId
  focusSession w session args

/-- The memories that are eligible when `context` is called. -/
def eligible (w : World) (sessionId : String) (args : ContextArgs) (sessions : Sessions) : List String :=
  match focused w sessionId args sessions >>= screen w with
  | .ok s => Dict.keys s.candidates
  | .error _ => []

def step (state : State) (w : World) : Command → State
  | .context sessionId args =>
    match context w sessionId args state.sessions with
    | (sessions, .error _) => { state with sessions }
    | (sessions, .ok packet) =>
      let delivery := ⟨packet.selected.map ContextItem.id, eligible w sessionId args state.sessions, packet.withdrawn⟩
      { sessions, log := if args.consume then state.log ++ [(sessionId, delivery)] else state.log }
  | .start sessionId goal constraints replace =>
    { state with sessions := (start w sessionId goal constraints replace state.sessions).1 }
  | .note sessionId kind text files noteId =>
    { state with sessions := (note w sessionId kind text files noteId state.sessions).1 }
  | .invalidateDelivery sessionId => { state with sessions := (invalidateDelivery sessionId state.sessions).1 }

/-- A run from an empty store. -/
def run (calls : List (World × Command)) : State := calls.foldl (fun state call => step state call.1 call.2) ⟨[], []⟩

/-- Each eligible memory of the last packet is shown again: neither a duplicate nor over the budget. -/
def Keeps (w : World) (session : WorkingSession) (s : Screening) (budget : Nat) : Prop :=
  ∀ before item after, ranked s.candidates = before ++ item :: after → item.id ∈ session.lastSelected →
    Shown (budget - 220) (before.foldl (renderItem (budget - 220)) (opening w { session with
      bindings := s.checks.bindings
      withdrawals := withdraw w session s } s budget)) item

/-- A call that lets no delivered memory slip from the session's record unnoticed. -/
def Careful (sessions : Sessions) (w : World) : Command → Prop
  | .context sessionId args => args.consume = true → ∀ config session s, w.config = some config →
      focused w sessionId args sessions = .ok session → screen w session = .ok s → Keeps w session s config.budgetChars
  | .start sessionId goal constraints replace => replace = true → ∀ current, sessions.lookup sessionId = some current →
      (∃ session, (start w sessionId goal constraints replace sessions).2 = .ok session) → current.lastSelected = []
  | .note .. => True
  | .invalidateDelivery _ => True

/-! What is eligible. -/

/-- In the store, neither quarantined nor rejected, with sources that pass. -/
def Admissible (w : World) (id : String) : Prop :=
  ∃ memory ∈ w.memories, memory.id = id ∧ isQuarantined memory = false ∧ isRejected memory = false ∧
    ∃ before after label, freshness w before memory = .ok (after, label, none)

/-- Admissible, and no eligible memory supersedes it. -/
structure Current (w : World) (eligible : List String) (id : String) : Prop where
  admissible : Admissible w id
  unsuperseded : ∀ edge ∈ w.edges, 4 / 5 ≤ edge.confidence → edge.edgeType = .supersedes → edge.toId = id →
    edge.fromId ∉ eligible

theorem screenMemory_admissible {w : World} {session : WorkingSession} {queryTokens : List String}
    {s s' : Screening} {memory : MemoryEntry} (h : ∀ id ∈ Dict.keys s.candidates, Admissible w id)
    (known : memory ∈ w.memories) (ok : screenMemory w session queryTokens s memory = .ok s') :
    ∀ id ∈ Dict.keys s'.candidates, Admissible w id := by
  unfold screenMemory at ok
  split at ok
  · cases ok
    exact h
  · rename_i unquarantined
    split at ok
    · cases ok
      exact h
    · rename_i unrejected
      obtain ⟨⟨checks, label, rejected⟩, fresh, ok⟩ := Except.bind_ok.mp ok
      cases rejected with
      | some reason =>
        cases ok
        exact h
      | none =>
        obtain ⟨paths, _, ok⟩ := Except.bind_ok.mp ok
        dsimp only at ok
        split at ok
        · cases ok
          exact h
        · cases ok
          intro id member
          rcases Dict.mem_keys_setItem.mp member with rfl | member
          · refine ⟨memory, known, rfl, ?_, ?_, s.checks, checks, label, fresh⟩
            · simpa using unquarantined
            · simpa using unrejected
          · exact h id member

theorem screenAll_admissible {w : World} {session : WorkingSession} {queryTokens : List String}
    {memories : List MemoryEntry} {s s' : Screening} (h : ∀ id ∈ Dict.keys s.candidates, Admissible w id)
    (known : memories ⊆ w.memories) (ok : memories.foldlM (screenMemory w session queryTokens) s = .ok s') :
    ∀ id ∈ Dict.keys s'.candidates, Admissible w id := by
  induction memories generalizing s with
  | nil =>
    cases ok
    exact h
  | cons memory memories ih =>
    rw [List.foldlM_cons] at ok
    obtain ⟨next, first, rest⟩ := Except.bind_ok.mp ok
    have step := screenMemory_admissible h (known List.mem_cons_self) first
    exact ih step (fun other member => known (List.mem_cons_of_mem _ member)) rest

omit [Lowercase] [Sha256] in
theorem getMemory_mem {w : World} {id : String} {memory : MemoryEntry} (h : w.getMemory id = some memory) :
    memory ∈ w.memories := List.mem_of_find?_eq_some h

omit [Lowercase] [Sha256] in
theorem setDefault_subset {found memories pool : List MemoryEntry} (h : found ⊆ pool) (known : memories ⊆ pool) :
    memories.foldl setDefault found ⊆ pool := by
  induction memories generalizing found with
  | nil => exact h
  | cons memory memories ih =>
    refine ih ?_ (fun other member => known (List.mem_cons_of_mem _ member))
    unfold setDefault
    split
    · exact h
    · intro other member
      rcases List.mem_append.mp member with member | member
      · exact h member
      · rw [List.mem_singleton.mp member]
        exact known List.mem_cons_self

omit [Lowercase] [Sha256] in
theorem retrieve_subset (w : World) (session : WorkingSession) : retrieve w session ⊆ w.memories := by
  have retrieved : ∀ ids : List String, ids.filterMap w.getMemory ⊆ w.memories := by
    intro ids memory member
    obtain ⟨id, _, found⟩ := List.mem_filterMap.mp member
    exact getMemory_mem found
  unfold retrieve
  refine fun memory member => setDefault_subset (List.nil_subset _) ?_ (List.mem_of_mem_take member)
  intro memory member
  simp only [List.mem_append, List.mem_flatMap] at member
  rcases member with (member | ⟨query, _, member⟩) | member
  · split at member
    · cases member
    · have row := List.mem_of_mem_take member
      rw [List.mem_insertionSort] at row
      exact (List.mem_filter.mp row).1
  · exact retrieved _ (List.mem_of_mem_take member)
  · exact retrieved _ member

omit [Lowercase] [Sha256] in
theorem excludeEdge_keeps (exclusions : List (String × String)) (edge : String × String × EdgeType) :
    Dict.keys exclusions ⊆ Dict.keys (excludeEdge exclusions edge) := by
  intro id member
  obtain ⟨fromId, toId, edgeType⟩ := edge
  cases edgeType with
  | supersedes => exact Dict.mem_keys_setItem.mpr (.inr member)
  | contradicts => exact Dict.mem_keys_setItem.mpr (.inr (Dict.mem_keys_setItem.mpr (.inr member)))
  | relates => exact member
  | duplicateOf => exact member

omit [Lowercase] [Sha256] in
theorem excludeEdges_keeps (edges : List (String × String × EdgeType)) (exclusions : List (String × String)) :
    Dict.keys exclusions ⊆ Dict.keys (edges.foldl excludeEdge exclusions) := by
  induction edges generalizing exclusions with
  | nil => exact List.Subset.refl _
  | cons edge edges ih => exact fun id member => ih _ (excludeEdge_keeps exclusions edge member)

omit [Lowercase] [Sha256] in
theorem excludeEdges_superseded {edges : List (String × String × EdgeType)} {exclusions : List (String × String)}
    {fromId toId : String} (edge : (fromId, toId, EdgeType.supersedes) ∈ edges) :
    toId ∈ Dict.keys (edges.foldl excludeEdge exclusions) := by
  induction edges generalizing exclusions with
  | nil => cases edge
  | cons first edges ih =>
    rcases List.mem_cons.mp edge with rfl | edge
    · exact excludeEdges_keeps edges _ (Dict.mem_keys_setItem.mpr (.inl rfl))
    · exact ih edge

theorem screen_current {w : World} {session : WorkingSession} {s : Screening} (ok : screen w session = .ok s) :
    ∀ id ∈ Dict.keys s.candidates, Current w (Dict.keys s.candidates) id := by
  obtain ⟨found, all, ok⟩ := Except.bind_ok.mp ok
  have start : ∀ id ∈ Dict.keys ([] : List (String × ContextItem)), Admissible w id := by
    intro id member
    cases member
  have known : (if w.learningEnabled then retrieve w session else []) ⊆ w.memories := by
    split
    · exact retrieve_subset w session
    · exact List.nil_subset _
  have admissible := screenAll_admissible start known all
  cases ok
  have before : ∀ id ∈ Dict.keys (found.candidates.filter (fun item =>
      item.1 ∉ Dict.keys ((edgeRows w found.candidates).foldl excludeEdge found.exclusions))),
      id ∈ Dict.keys found.candidates := fun id member => (List.filter_sublist.map Prod.fst).subset member
  intro id member
  constructor
  · exact admissible id (before id member)
  · intro edge stored trusted supersedes target superseding
    have row : (edge.fromId, id, EdgeType.supersedes) ∈ edgeRows w found.candidates := by
      simp only [edgeRows, List.mem_insertionSort, List.mem_eraseDups, List.mem_map, List.mem_filter, decide_eq_true_eq]
      refine ⟨edge, ⟨stored, trusted, .inl supersedes, before _ superseding, ?_⟩, ?_⟩
      · rw [target]
        exact before id member
      · rw [target, supersedes]
    obtain ⟨item, kept, rfl⟩ := List.mem_map.mp member
    have unexcluded := (List.mem_filter.mp kept).2
    rw [decide_eq_true_eq] at unexcluded
    exact unexcluded (excludeEdges_superseded row)

theorem eligible_current (w : World) (sessionId : String) (args : ContextArgs) (sessions : Sessions) :
    ∀ id ∈ eligible w sessionId args sessions, Current w (eligible w sessionId args sessions) id := by
  unfold eligible
  split
  · rename_i s ok
    obtain ⟨session, _, screening⟩ := Except.bind_ok.mp ok
    exact screen_current screening
  · intro id member
    cases member

/-! What one call of `context` does. -/

/-- What a session says about its task, whatever was delivered. -/
def WorkingSession.task (session : WorkingSession) :
    String × String × List String × String × List String × List WorkingNote × Nat :=
  (session.sessionId, session.goal, session.constraints, session.focus, session.activeFiles, session.notes,
    session.prunedNotes)

theorem compile_ok {w : World} {session after : WorkingSession} {budget : Nat} {force : Bool} {packet : ContextPacket}
    (ok : compile w session budget force = .ok (packet, after)) : ∃ s d, screen w session = .ok s ∧
      d = draft w { session with bindings := s.checks.bindings, withdrawals := withdraw w session s } s budget ∧
      packet.selected = d.selected ∧ packet.withdrawn = Dict.keys (withdraw w session s) ∧
      after.lastSelected = d.selected.map ContextItem.id ∧ after.withdrawals = withdraw w session s ∧
      after.task = session.task := by
  obtain ⟨s, screening, ok⟩ := Except.bind_ok.mp ok
  dsimp only at ok
  split at ok
  · cases ok
  · obtain ⟨rfl, rfl⟩ := Prod.mk.inj (Except.ok.inj ok)
    exact ⟨s, _, screening, rfl, rfl, rfl, rfl, rfl, rfl⟩

omit [Lowercase] [Sha256] in
/-- The arguments of a call set the focus and the files, nothing else. -/
theorem focusSession_ok {w : World} {session session' : WorkingSession} {args : ContextArgs}
    (ok : focusSession w session args = .ok session') :
    ∃ focus activeFiles, session' = { session with focus, activeFiles } := by
  obtain ⟨middle, first, ok⟩ := Except.bind_ok.mp ok
  have focused : ∃ focus, middle = { session with focus } := by
    unfold setFocus at first
    split at first
    · cases first
      exact ⟨_, rfl⟩
    · obtain ⟨focus, _, first⟩ := Except.bind_ok.mp first
      cases first
      exact ⟨focus, rfl⟩
  obtain ⟨focus, rfl⟩ := focused
  unfold setFiles at ok
  split at ok
  · cases ok
    exact ⟨focus, _, rfl⟩
  · obtain ⟨paths, _, ok⟩ := Except.bind_ok.mp ok
    cases ok
    exact ⟨focus, _, rfl⟩

omit [Lowercase] [Sha256] in
theorem focusSession_memory {w : World} {session session' : WorkingSession} {args : ContextArgs}
    (ok : focusSession w session args = .ok session') :
    session'.lastSelected = session.lastSelected ∧ session'.withdrawals = session.withdrawals := by
  obtain ⟨focus, activeFiles, rfl⟩ := focusSession_ok ok
  exact ⟨rfl, rfl⟩

/-- What `context` did when it returned a packet. -/
structure Compiled (w : World) (sessionId : String) (args : ContextArgs) (sessions after : Sessions)
    (packet : ContextPacket) (current session next : WorkingSession) (s : Screening) : Prop where
  found : sessions.lookup sessionId = some current
  focusing : focused w sessionId args sessions = .ok session
  selected : session.lastSelected = current.lastSelected
  withdrawals : session.withdrawals = current.withdrawals
  screening : screen w session = .ok s
  budget : ∃ config, w.config = some config ∧ packet.selected = (draft w { session with
    bindings := s.checks.bindings
    withdrawals := withdraw w session s } s config.budgetChars).selected
  withdrawn : packet.withdrawn = Dict.keys (withdraw w session s)
  saved : after = Dict.setItem sessionId next sessions
  remembers : next.lastSelected = if args.consume then packet.selected.map ContextItem.id else session.lastSelected
  withdraws : next.withdrawals = withdraw w session s
  task : next.task = session.task

theorem context_ok {w : World} {sessionId : String} {args : ContextArgs} {sessions after : Sessions}
    {packet : ContextPacket} (ok : context w sessionId args sessions = (after, .ok packet)) :
    ∃ current session next s, Compiled w sessionId args sessions after packet current session next s := by
  unfold context at ok
  split at ok
  · cases (Prod.mk.inj ok).2
  · rename_i config read
    unfold transaction at ok
    split at ok
    · rename_i after' packet' body
      obtain ⟨rfl, same⟩ := Prod.mk.inj ok
      obtain rfl := Except.ok.inj same
      obtain ⟨current, found, body⟩ := Except.bind_ok.mp body
      obtain ⟨session, focusing, body⟩ := Except.bind_ok.mp body
      obtain ⟨_, _, body⟩ := Except.bind_ok.mp body
      obtain ⟨⟨made, compiled⟩, compiling, body⟩ := Except.bind_ok.mp body
      obtain ⟨rfl, rfl⟩ := Prod.mk.inj (Except.ok.inj body)
      obtain ⟨s, d, screening, rfl, chosen, withdrawn, last, withdrawals, task⟩ := compile_ok compiling
      obtain ⟨selected, earlier⟩ := focusSession_memory focusing
      have config' : w.config = some config := by
        unfold readConfig at read
        split at read
        · rename_i config' given
          obtain rfl := Except.ok.inj read
          exact given
        · cases read
      refine ⟨current, session, _, s, requireSession_ok found, ?_, selected, earlier, screening,
        ⟨config, config', chosen⟩, withdrawn, rfl, ?_, ?_, ?_⟩
      · exact Except.bind_ok.mpr ⟨current, found, focusing⟩
      · split
        · rw [last, chosen]
        · rfl
      · split
        · exact withdrawals
        · exact withdrawals
      · split
        · exact task
        · exact task
    · cases (Prod.mk.inj ok).2

section Compiled

variable {w : World} {sessionId : String} {args : ContextArgs} {sessions after : Sessions} {packet : ContextPacket}
  {current session next : WorkingSession} {s : Screening}

theorem Compiled.eligible_eq (h : Compiled w sessionId args sessions after packet current session next s) :
    eligible w sessionId args sessions = Dict.keys s.candidates := by
  unfold eligible
  rw [h.focusing, Except.ok_bind, h.screening]

omit [Lowercase] [Sha256] in
theorem mem_ranked {candidates : List (String × ContextItem)} {item : ContextItem} (h : item ∈ ranked candidates) :
    ∃ entry ∈ candidates, entry.2 = item := by
  simpa only [ranked, List.mem_insertionSort, List.mem_map] using h

/-- Only eligible memories are selected. -/
theorem Compiled.selects (h : Compiled w sessionId args sessions after packet current session next s) :
    ∀ item ∈ packet.selected, item.id ∈ Dict.keys s.candidates := by
  obtain ⟨config, _, chosen⟩ := h.budget
  rw [chosen]
  intro item member
  obtain ⟨entry, found, rfl⟩ := mem_ranked (draft_selected_ranked member)
  rw [(screen_screened h.screening).named entry found]
  exact List.mem_map_of_mem found

theorem Compiled.length_selected (h : Compiled w sessionId args sessions after packet current session next s) :
    packet.selected.length ≤ maxCandidates := by
  obtain ⟨config, _, chosen⟩ := h.budget
  have screened := screen_screened h.screening
  have candidates := length_le_of_nodup screened.candidateOnce screened.candidateKnown
  have few := length_screenedIds w session
  have grows := draft_grows w { session with
    bindings := s.checks.bindings
    withdrawals := withdraw w session s } s config.budgetChars
  have bound := grows.chosen
  simp only [Dict.keys, List.length_map] at candidates
  simp only [List.length_nil] at bound
  rw [chosen]
  omega

theorem Compiled.focus (h : Compiled w sessionId args sessions after packet current session next s)
    (before : Tracked current) : Tracked session := by
  obtain ⟨few, once, split⟩ := before
  rw [← h.withdrawals] at once split
  rw [← h.selected] at few split
  exact ⟨few, once, split⟩

theorem Compiled.tracked (h : Compiled w sessionId args sessions after packet current session next s)
    (before : Tracked current) : Tracked next := by
  have focus := h.focus before
  obtain ⟨once, apart, _, split⟩ := withdraw_tracked (w := w) (s := s) focus
  rw [← h.withdraws] at once apart split
  have remembers := h.remembers
  split_ifs at remembers with consumed
  · have selects := h.selects
    refine ⟨?_, once, next.withdrawals, [], by simp, ?_, by simp [Dict.keys]⟩
    · rw [remembers, List.length_map]
      exact h.length_selected
    · intro id member listed
      rw [remembers] at listed
      obtain ⟨item, chosen, rfl⟩ := List.mem_map.mp listed
      exact apart item.id member (selects item chosen)
  · rw [← remembers] at split
    exact ⟨remembers ▸ focus.few, once, split⟩

/-- What was delivered last and is not eligible any more is withdrawn. -/
theorem Compiled.withdrawsLast (h : Compiled w sessionId args sessions after packet current session next s)
    (before : Tracked current) : ∀ id ∈ current.lastSelected, id ∉ Dict.keys s.candidates → id ∈ packet.withdrawn := by
  have focus := h.focus before
  rw [h.withdrawn, ← h.selected]
  exact (withdraw_tracked focus).2.2.1

/-- A careful call shows each memory of the last packet that is still eligible. -/
theorem Compiled.keeps (h : Compiled w sessionId args sessions after packet current session next s)
    (consumed : args.consume = true) (careful : Careful sessions w (.context sessionId args)) :
    ∀ id ∈ current.lastSelected, id ∈ Dict.keys s.candidates → id ∈ packet.selected.map ContextItem.id := by
  obtain ⟨config, read, chosen⟩ := h.budget
  have keeps := careful consumed config session s read h.focusing h.screening
  intro id last fit
  obtain ⟨entry, found, rfl⟩ := List.mem_map.mp fit
  have named := (screen_screened h.screening).named entry found
  have known : entry.2 ∈ ranked s.candidates := by
    simp only [ranked, List.mem_insertionSort, List.mem_map]
    exact ⟨entry, found, rfl⟩
  obtain ⟨front, rest, order⟩ := List.append_of_mem known
  have delivered : entry.2.id ∈ session.lastSelected := by
    rw [named, h.selected]
    exact last
  have shown := draft_selected_of_shown order (keeps front entry.2 rest order delivered)
  rw [chosen, ← named]
  exact List.mem_map_of_mem shown

end Compiled

end Onmc.WorkingContext
