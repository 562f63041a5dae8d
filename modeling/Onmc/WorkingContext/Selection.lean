import Onmc.WorkingContext.Repeats

/-! What a packet selects, and why it excludes the rest. -/
namespace Onmc.WorkingContext

/-- An edge that displaces memories. -/
def MemoryEdge.Trusted (edge : MemoryEdge) : Prop :=
  4 / 5 ≤ edge.confidence ∧ (edge.edgeType = .supersedes ∨ edge.edgeType = .contradicts)

/-- What keeps a memory from being eligible. -/
def Ineligible (reason : String) : Prop :=
  reason ∈ ["quarantined", "rejected", "marked_stale", "source_changed", "source_unverified", "irrelevant"] ∨
    ∃ message, reason = "source_unavailable: " ++ message

/-- Why an eligible memory is displaced. -/
inductive Displaced (w : World) (eligible : List String) : String → String → Prop
  | superseded (edge : MemoryEdge) (known : edge ∈ w.edges) (trusted : 4 / 5 ≤ edge.confidence)
      (type : edge.edgeType = .supersedes) (left : edge.fromId ∈ eligible) (right : edge.toId ∈ eligible) :
      Displaced w eligible edge.toId ("superseded_by:" ++ edge.fromId)
  | conflictingTo (edge : MemoryEdge) (known : edge ∈ w.edges) (trusted : 4 / 5 ≤ edge.confidence)
      (type : edge.edgeType = .contradicts) (left : edge.fromId ∈ eligible) (right : edge.toId ∈ eligible) :
      Displaced w eligible edge.toId ("conflicts_with:" ++ edge.fromId)
  | conflictingFrom (edge : MemoryEdge) (known : edge ∈ w.edges) (trusted : 4 / 5 ≤ edge.confidence)
      (type : edge.edgeType = .contradicts) (left : edge.fromId ∈ eligible) (right : edge.toId ∈ eligible) :
      Displaced w eligible edge.fromId ("conflicts_with:" ++ edge.toId)

variable [Lowercase] [Sha256]

/-- The screening before the edges are looked at. -/
def review (w : World) (session : WorkingSession) : Outcome Screening :=
  (if w.learningEnabled then retrieve w session else []).foldlM
    (screenMemory w session (tokenize (PyText.join " " ([session.goal, session.focus] ++ session.activeFiles))))
    ⟨⟨session.bindings, []⟩, [], []⟩

/-- The memories that nothing but an edge, a duplicate or the budget can keep out. -/
def eligibleIds (w : World) (session : WorkingSession) : List String :=
  match review w session with
  | .ok s => Dict.keys s.candidates
  | .error _ => []

theorem screen_ok {w : World} {session : WorkingSession} {s : Screening} (ok : screen w session = .ok s) :
    ∃ reviewed, review w session = .ok reviewed ∧
      s.exclusions = (edgeRows w reviewed.candidates).foldl excludeEdge reviewed.exclusions ∧
      s.candidates = reviewed.candidates.filter (fun item => item.1 ∉ Dict.keys s.exclusions) := by
  obtain ⟨reviewed, all, ok⟩ := Except.bind_ok.mp ok
  cases ok
  exact ⟨reviewed, all, rfl, rfl⟩

/-! The loop over the retrieved memories. -/

/-- A candidate is made of a retrieved memory that passes; an exclusion has a reason of its own. -/
structure Reviewed (memories : List MemoryEntry) (s : Screening) : Prop where
  sourced : ∀ entry ∈ s.candidates, ∃ memory ∈ memories, ∃ label overlap fileMatch,
    entry = (memory.id, contextItem memory label overlap fileMatch) ∧ isQuarantined memory = false ∧
      isRejected memory = false
  reasoned : ∀ entry ∈ s.exclusions, Ineligible entry.2

omit [Lowercase] in
theorem freshness_reason {w : World} {checks after : Checks} {memory : MemoryEntry} {label reason : String}
    (ok : freshness w checks memory = .ok (after, label, some reason)) : Ineligible reason := by
  unfold freshness at ok
  split at ok
  · cases ok
    exact .inr ⟨_, rfl⟩
  · split at ok
    · cases ok
      exact .inl (by simp)
    · cases ok
  · split at ok
    · cases ok
      exact .inr ⟨_, rfl⟩
    · dsimp only at ok
      split at ok
      · cases ok
      · split at ok
        · cases ok
        · split at ok
          · split at ok
            · cases ok
            · cases ok
              exact .inl (by simp)
          · split at ok
            · cases ok
              exact .inl (by simp)
            · split at ok
              · cases ok
                exact .inl (by simp)
              · cases ok

namespace Reviewed

variable {memories : List MemoryEntry} {s : Screening}

omit [Lowercase] [Sha256] in
theorem exclude (h : Reviewed memories s) (checks : Checks) {id reason : String} (known : Ineligible reason) :
    Reviewed memories (({ s with checks } : Screening).exclude id reason) where
  sourced := h.sourced
  reasoned := by
    intro entry member
    rcases Dict.mem_setItem member with rfl | member
    · exact known
    · exact h.reasoned entry member

theorem screen (h : Reviewed memories s) {w : World} {session : WorkingSession} {queryTokens : List String}
    {memory : MemoryEntry} (known : memory ∈ memories) {t : Screening}
    (ok : screenMemory w session queryTokens s memory = .ok t) : Reviewed memories t := by
  unfold screenMemory at ok
  split at ok
  · cases ok
    exact h.exclude s.checks (.inl (by simp))
  · rename_i unquarantined
    split at ok
    · cases ok
      exact h.exclude s.checks (.inl (by simp))
    · rename_i unrejected
      obtain ⟨⟨checks, label, rejected⟩, fresh, ok⟩ := Except.bind_ok.mp ok
      cases rejected with
      | some reason =>
        cases ok
        exact h.exclude checks (freshness_reason fresh)
      | none =>
        obtain ⟨paths, _, ok⟩ := Except.bind_ok.mp ok
        dsimp only at ok
        split at ok
        · cases ok
          exact h.exclude checks (.inl (by simp))
        · cases ok
          refine ⟨?_, h.reasoned⟩
          intro entry member
          rcases Dict.mem_setItem member with rfl | member
          · exact ⟨memory, known, label, _, _, rfl, by simpa using unquarantined, by simpa using unrejected⟩
          · exact h.sourced entry member

theorem screenAll {w : World} {session : WorkingSession} {queryTokens : List String} {rest : List MemoryEntry}
    {t : Screening} (h : Reviewed memories s) (known : rest ⊆ memories)
    (ok : rest.foldlM (screenMemory w session queryTokens) s = .ok t) : Reviewed memories t := by
  induction rest generalizing s with
  | nil =>
    cases ok
    exact h
  | cons memory rest ih =>
    rw [List.foldlM_cons] at ok
    obtain ⟨next, first, later⟩ := Except.bind_ok.mp ok
    exact ih (h.screen (known List.mem_cons_self) first) (fun other member => known (List.mem_cons_of_mem _ member)) later

end Reviewed

theorem review_ok {w : World} {session : WorkingSession} {s : Screening} (ok : review w session = .ok s) :
    Reviewed (retrieve w session) s := by
  have start : Reviewed (retrieve w session) ⟨⟨session.bindings, []⟩, [], []⟩ := ⟨by simp, by simp⟩
  refine start.screenAll ?_ ok
  split
  · exact List.Subset.refl _
  · exact List.nil_subset _

/-! The edges between eligible memories. -/

omit [Lowercase] [Sha256] in
theorem edge_of_row {w : World} {candidates : List (String × ContextItem)} {row : String × String × EdgeType}
    (h : row ∈ edgeRows w candidates) : ∃ edge ∈ w.edges, edge.Trusted ∧ edge.fromId ∈ Dict.keys candidates ∧
      edge.toId ∈ Dict.keys candidates ∧ row = (edge.fromId, edge.toId, edge.edgeType) := by
  simp only [edgeRows, List.mem_insertionSort, List.mem_eraseDups, List.mem_map, List.mem_filter,
    decide_eq_true_eq] at h
  obtain ⟨edge, ⟨known, trusted, type, left, right⟩, rfl⟩ := h
  exact ⟨edge, known, ⟨trusted, type⟩, left, right, rfl⟩

omit [Lowercase] [Sha256] in
theorem row_of_edge {w : World} {candidates : List (String × ContextItem)} {edge : MemoryEdge} (known : edge ∈ w.edges)
    (trusted : edge.Trusted) (left : edge.fromId ∈ Dict.keys candidates) (right : edge.toId ∈ Dict.keys candidates) :
    (edge.fromId, edge.toId, edge.edgeType) ∈ edgeRows w candidates := by
  simp only [edgeRows, List.mem_insertionSort, List.mem_eraseDups, List.mem_map, List.mem_filter,
    decide_eq_true_eq]
  exact ⟨edge, ⟨known, trusted.1, trusted.2, left, right⟩, rfl⟩

omit [Lowercase] [Sha256] in
/-- Either end of a trusted edge is excluded. -/
theorem excludeEdges_end {rows : List (String × String × EdgeType)} {exclusions : List (String × String)}
    {row : String × String × EdgeType} (member : row ∈ rows)
    (type : row.2.2 = .supersedes ∨ row.2.2 = .contradicts) :
    row.2.1 ∈ Dict.keys (rows.foldl excludeEdge exclusions) := by
  induction rows generalizing exclusions with
  | nil => cases member
  | cons first rows ih =>
    rcases List.mem_cons.mp member with rfl | member
    · apply excludeEdges_keeps rows
      obtain ⟨left, right, edgeType⟩ := row
      rcases type with rfl | rfl
      · exact Dict.mem_keys_setItem.mpr (.inl rfl)
      · exact Dict.mem_keys_setItem.mpr (.inl rfl)
    · exact ih member

omit [Lowercase] [Sha256] in
/-- Each exclusion is from before, or of an edge between eligible memories. -/
theorem excludeEdges_reason {w : World} {candidates : List (String × ContextItem)}
    {rows : List (String × String × EdgeType)} (known : rows ⊆ edgeRows w candidates)
    {exclusions : List (String × String)} {entry : String × String}
    (member : entry ∈ rows.foldl excludeEdge exclusions) :
    entry ∈ exclusions ∨ Displaced w (Dict.keys candidates) entry.1 entry.2 := by
  induction rows generalizing exclusions with
  | nil => exact .inl member
  | cons row rows ih =>
    rcases ih (fun other listed => known (List.mem_cons_of_mem _ listed)) member with member | displaced
    · obtain ⟨edge, stored, ⟨trusted, _⟩, left, right, rfl⟩ := edge_of_row (known List.mem_cons_self)
      cases type : edge.edgeType with
      | supersedes =>
        rw [type] at member
        rcases Dict.mem_setItem member with rfl | member
        · exact .inr (.superseded edge stored trusted type left right)
        · exact .inl member
      | contradicts =>
        rw [type] at member
        rcases Dict.mem_setItem member with rfl | member
        · exact .inr (.conflictingTo edge stored trusted type left right)
        · rcases Dict.mem_setItem member with rfl | member
          · exact .inr (.conflictingFrom edge stored trusted type left right)
          · exact .inl member
      | relates =>
        rw [type] at member
        exact .inl member
      | duplicateOf =>
        rw [type] at member
        exact .inl member
    · exact .inr displaced

/-! Rendering the candidates. -/

/-- Why a memory is not in the packet. -/
inductive Excluded (w : World) (eligible : List String) (selected : List ContextItem) : String → String → Prop
  | ineligible (id reason : String) (h : Ineligible reason) : Excluded w eligible selected id reason
  | displaced (id reason : String) (h : Displaced w eligible id reason) : Excluded w eligible selected id reason
  | duplicate (item first : ContextItem) (fit : item.id ∈ eligible) (shown : first ∈ selected)
      (same : normalized item.text = normalized first.text) : Excluded w eligible selected item.id "duplicate"
  | budget (id : String) (fit : id ∈ eligible) : Excluded w eligible selected id "budget"

omit [Sha256] in
theorem Excluded.mono {w : World} {eligible : List String} {selected more : List ContextItem} {id reason : String}
    (h : Excluded w eligible selected id reason) (grown : selected ⊆ more) : Excluded w eligible more id reason := by
  cases h with
  | ineligible _ _ why => exact .ineligible id reason why
  | displaced _ _ why => exact .displaced id reason why
  | duplicate item first fit shown same => exact .duplicate item first fit (grown shown) same
  | budget _ fit => exact .budget id fit

/-- The texts shown are apart, and every exclusion has its reason. -/
structure Rendered (w : World) (eligible : List String) (d : Draft) : Prop where
  distinct : (d.selected.map (fun item => normalized item.text)).Nodup
  seen : ∀ text, text ∈ d.seenTexts ↔ ∃ item ∈ d.selected, normalized item.text = text
  reasoned : ∀ entry ∈ d.exclusions, Excluded w eligible d.selected entry.1 entry.2

omit [Sha256] in
theorem Rendered.congr {w : World} {eligible : List String} {d d' : Draft} (h : Rendered w eligible d)
    (same : d'.choice = d.choice) : Rendered w eligible d' := by
  simp only [Draft.choice, Prod.mk.injEq] at same
  obtain ⟨selected, seen, exclusions⟩ := same
  constructor
  · rw [selected]
    exact h.distinct
  · rw [selected, seen]
    exact h.seen
  · rw [selected, exclusions]
    exact h.reasoned

omit [Sha256] in
theorem Rendered.exclude {w : World} {eligible : List String} {d : Draft} (h : Rendered w eligible d)
    {id reason : String} (why : Excluded w eligible d.selected id reason) :
    Rendered w eligible (d.exclude id reason) where
  distinct := h.distinct
  seen := h.seen
  reasoned := by
    intro entry member
    rcases Dict.mem_setItem member with rfl | member
    · exact why
    · exact h.reasoned entry member

omit [Sha256] in
theorem Rendered.select {w : World} {eligible : List String} {d : Draft} (h : Rendered w eligible d)
    {item : ContextItem} (new : normalized item.text ∉ d.seenTexts) :
    Rendered w eligible (d.select item (normalized item.text)) where
  distinct := by
    simp only [Draft.select, List.map_append, List.map_cons, List.map_nil]
    rw [List.nodup_append]
    refine ⟨h.distinct, List.nodup_singleton _, ?_⟩
    intro text member other last same
    rw [List.mem_singleton.mp last] at same
    obtain ⟨shown, listed, rfl⟩ := List.mem_map.mp member
    exact new ((h.seen _).mpr ⟨shown, listed, same⟩)
  seen := by
    intro text
    simp only [Draft.select, List.mem_cons, h.seen, List.mem_append, List.not_mem_nil, or_false]
    constructor
    · rintro (rfl | ⟨shown, listed, rfl⟩)
      · exact ⟨item, .inr rfl, rfl⟩
      · exact ⟨shown, .inl listed, rfl⟩
    · rintro ⟨shown, listed | rfl, rfl⟩
      · exact .inr ⟨shown, listed, rfl⟩
      · exact .inl rfl
  reasoned := fun entry member => (h.reasoned entry member).mono (List.subset_append_left _ _)

omit [Sha256] in
theorem Rendered.item {w : World} {eligible : List String} {d : Draft} (h : Rendered w eligible d) (limit : Nat)
    {item : ContextItem} (fit : item.id ∈ eligible) : Rendered w eligible (renderItem limit d item) := by
  unfold renderItem
  split
  · rename_i seen
    obtain ⟨first, shown, same⟩ := (h.seen _).mp seen
    exact h.exclude (.duplicate item first fit shown same.symm)
  · rename_i new
    split
    · have appended := h.congr (choice_append limit d (itemBlock item))
      refine appended.select ?_
      have texts := congrArg (fun choice => choice.2.1) (choice_append limit d (itemBlock item))
      simp only [Draft.choice] at texts
      rw [texts]
      exact new
    · exact h.exclude (.budget item.id fit)

omit [Sha256] in
theorem Rendered.items {w : World} {eligible : List String} {d : Draft} (h : Rendered w eligible d) (limit : Nat)
    {items : List ContextItem} (fit : ∀ item ∈ items, item.id ∈ eligible) :
    Rendered w eligible (items.foldl (renderItem limit) d) := by
  induction items generalizing d with
  | nil => exact h
  | cons item items ih =>
    exact ih (h.item limit (fit item List.mem_cons_self)) (fun other member => fit other (List.mem_cons_of_mem _ member))

/-! Whole packets. -/

/-- What is expected of the packet compiled for a session. -/
structure Sound (w : World) (session : WorkingSession) (packet : ContextPacket) : Prop where
  admitted : ∀ item ∈ packet.selected, ∃ memory ∈ retrieve w session, ∃ label overlap fileMatch,
    item = contextItem memory label overlap fileMatch ∧ isQuarantined memory = false ∧ isRejected memory = false
  unrelated : ∀ a ∈ packet.selected, ∀ b ∈ packet.selected, ∀ edge ∈ w.edges, edge.Trusted →
    ¬ (edge.fromId = a.id ∧ edge.toId = b.id)
  distinct : (packet.selected.map (fun item => normalized item.text)).Nodup
  placed : (packet.selected.map ContextItem.id ++ packet.excluded.map Prod.fst).Perm (screenedIds w session)
  once : (screenedIds w session).Nodup
  reasoned : ∀ entry ∈ packet.excluded, Excluded w (eligibleIds w session) packet.selected entry.1 entry.2

theorem compile_chooses {w : World} {session after : WorkingSession} {budget : Nat} {force : Bool}
    {packet : ContextPacket} {s : Screening} (screening : screen w session = .ok s)
    (ok : compile w session budget force = .ok (packet, after)) :
    packet.selected = (draft w (shown w session s) s budget).selected ∧
      packet.excluded.Perm (draft w (shown w session s) s budget).exclusions := by
  simp only [compile, screening, Except.ok_bind] at ok
  split at ok
  · cases ok
  · cases ok
    exact ⟨rfl, List.perm_insertionSort _ _⟩

theorem compile_sound {w : World} {session after : WorkingSession} {budget : Nat} {force : Bool}
    {packet : ContextPacket} {s : Screening} (screening : screen w session = .ok s)
    (ok : compile w session budget force = .ok (packet, after)) : Sound w session packet := by
  obtain ⟨chosen, excluded⟩ := compile_chooses screening ok
  obtain ⟨reviewed, review, exclusions, candidates⟩ := screen_ok screening
  have fine := review_ok review
  have eligible : eligibleIds w session = Dict.keys reviewed.candidates := by
    simp only [eligibleIds, review]
  have named := (screen_screened screening).named
  have listed : ∀ item ∈ ranked s.candidates, ∃ entry ∈ reviewed.candidates, entry.2 = item ∧ entry.1 = item.id ∧
      item.id ∉ Dict.keys s.exclusions := by
    intro item member
    obtain ⟨entry, held, rfl⟩ := mem_ranked member
    have same := named entry held
    rw [candidates] at held
    obtain ⟨before, apart⟩ := List.mem_filter.mp held
    rw [decide_eq_true_eq, ← same] at apart
    exact ⟨entry, before, rfl, same.symm, apart⟩
  have fit : ∀ item ∈ ranked s.candidates, item.id ∈ eligibleIds w session := by
    intro item member
    obtain ⟨entry, before, _, same, _⟩ := listed item member
    rw [eligible, ← same]
    exact List.mem_map_of_mem before
  have opened : Rendered w (eligibleIds w session) (opening w (shown w session s) s budget) := by
    have start := opening_choice w (shown w session s) s budget
    simp only [Draft.choice, Prod.mk.injEq] at start
    obtain ⟨none, unseen, given⟩ := start
    refine ⟨by rw [none]; exact List.nodup_nil, by simp [none, unseen], ?_⟩
    intro entry member
    rw [given, exclusions] at member
    rcases excludeEdges_reason (List.Subset.refl _) member with before | displaced
    · exact .ineligible _ _ (fine.reasoned entry before)
    · rw [eligible]
      exact .displaced _ _ displaced
  have rendered : Rendered w (eligibleIds w session) (draft w (shown w session s) s budget) :=
    (opened.items (budget - 220) fit).congr (draft_choice w (shown w session s) s budget)
  constructor
  · intro item member
    rw [chosen] at member
    obtain ⟨entry, before, rfl, _⟩ := listed item (draft_selected_ranked member)
    obtain ⟨memory, known, label, overlap, fileMatch, rfl, unquarantined, unrejected⟩ := fine.sourced entry before
    exact ⟨memory, known, label, overlap, fileMatch, rfl, unquarantined, unrejected⟩
  · rintro a first b second edge known trusted ⟨left, right⟩
    rw [chosen] at first second
    obtain ⟨entry, before, _, same, _⟩ := listed a (draft_selected_ranked first)
    obtain ⟨other, before', _, same', apart⟩ := listed b (draft_selected_ranked second)
    have row := row_of_edge known trusted (by rw [left, ← same]; exact List.mem_map_of_mem before)
      (by rw [right, ← same']; exact List.mem_map_of_mem before')
    have out : edge.toId ∈ Dict.keys ((edgeRows w reviewed.candidates).foldl excludeEdge reviewed.exclusions) :=
      excludeEdges_end row trusted.2
    rw [← exclusions, right] at out
    exact apart out
  · rw [chosen]
    exact rendered.distinct
  · have placed := draft_places screening (shown w session s) budget
    rw [Draft.placed, ← chosen] at placed
    exact ((excluded.map Prod.fst).append_left _).trans placed
  · exact nodup_screenedIds w session
  · intro entry member
    rw [chosen]
    exact rendered.reasoned entry (excluded.subset member)

/-- The packet of every call is sound, for every store, session and policy. -/
theorem context_sound (w : World) (sessionId : String) (args : ContextArgs) (sessions : Sessions) :
    match (context w sessionId args sessions).2 with
    | .error _ => True
    | .ok packet => ∃ session, focused w sessionId args sessions = .ok session ∧ Sound w session packet := by
  cases called : context w sessionId args sessions with
  | mk after outcome =>
    cases outcome with
    | error e => trivial
    | ok packet =>
      obtain ⟨config, session, next, s, did⟩ := context_steps called
      exact ⟨session, did.focusing, compile_sound did.screening did.compiling⟩

/-! A chain: what supersedes is superseded itself. -/

omit [Sha256] in
theorem renderItem_keeps (limit : Nat) {d : Draft} {item : ContextItem} {id : String} (other : id ≠ item.id) :
    (renderItem limit d item).exclusions.lookup id = d.exclusions.lookup id := by
  unfold renderItem
  split
  · simp only [Draft.exclude, Dict.lookup_setItem, if_neg other]
  · split
    · have same := congrArg (fun choice => choice.2.2) (choice_append limit d (itemBlock item))
      simp only [Draft.choice] at same
      rw [Draft.select, same]
    · simp only [Draft.exclude, Dict.lookup_setItem, if_neg other]

omit [Sha256] in
theorem renderItems_keep (limit : Nat) {items : List ContextItem} {d : Draft} {id : String}
    (others : ∀ item ∈ items, id ≠ item.id) :
    (items.foldl (renderItem limit) d).exclusions.lookup id = d.exclusions.lookup id := by
  induction items generalizing d with
  | nil => rfl
  | cons item items ih =>
    rw [List.foldl_cons, ih (fun other member => others other (List.mem_cons_of_mem _ member)),
      renderItem_keeps limit (others item List.mem_cons_self)]

/-- What screening excludes stays excluded for the reason it has. -/
theorem compile_keeps {w : World} {session after : WorkingSession} {budget : Nat} {force : Bool}
    {packet : ContextPacket} {s : Screening} (screening : screen w session = .ok s)
    (ok : compile w session budget force = .ok (packet, after)) {id reason : String}
    (excluded : s.exclusions.lookup id = some reason) (out : id ∉ Dict.keys s.candidates) :
    (id, reason) ∈ packet.excluded := by
  obtain ⟨_, perm⟩ := compile_chooses screening ok
  apply perm.symm.subset
  apply Dict.mem_of_lookup
  have others : ∀ item ∈ ranked s.candidates, id ≠ item.id := by
    intro item member same
    obtain ⟨entry, held, rfl⟩ := mem_ranked member
    rw [(screen_screened screening).named entry held] at same
    exact out (same ▸ List.mem_map_of_mem held)
  have final := draft_choice w (shown w session s) s budget
  have start := opening_choice w (shown w session s) s budget
  simp only [Draft.choice, Prod.mk.injEq] at final start
  rw [final.2.2, renderItems_keep _ others, start.2.2]
  exact excluded

/-- "a" supersedes "b", and "b" supersedes "c". -/
def chainWorld : World :=
  { exampleWorld [exampleMemory "a" false, exampleMemory "b" false, exampleMemory "c" false] with
    edges := [⟨"a", "b", .supersedes, 1⟩, ⟨"b", "c", .supersedes, 1⟩] }

omit [Lowercase] [Sha256] in
/-- "c" is excluded for "b", which "a" supersedes. -/
theorem chain_displaces :
    let _ := Lowercase.ascii
    let _ := Sha256.standard
    ∃ packet, (context chainWorld "s" plainArgs [("s", exampleSession [])]).2 = .ok packet ∧
      ("b", "superseded_by:a") ∈ packet.excluded ∧ ("c", "superseded_by:b") ∈ packet.excluded := by
  intro _ _
  have screened : (screen chainWorld (exampleSession [])).toOption.map (fun s =>
      (s.exclusions, Dict.keys s.candidates)) =
        some ([("b", "superseded_by:a"), ("c", "superseded_by:b")], ["a"]) := by
    decide +kernel
  obtain ⟨s, found, values⟩ := Option.map_eq_some_iff.mp screened
  obtain ⟨exclusions, candidates⟩ := Prod.mk.inj values
  have screening : screen chainWorld (exampleSession []) = .ok s := by
    cases outcome : screen chainWorld (exampleSession []) with
    | error e =>
      rw [outcome] at found
      cases found
    | ok t =>
      rw [outcome] at found
      exact congrArg Except.ok (Option.some.inj found)
  obtain ⟨after, packet, called⟩ := context_defined rfl (plain_exampleSession []) screening
  obtain ⟨config, session, next, t, did⟩ := context_steps called
  obtain rfl : exampleSession [] = session :=
    Except.ok.inj ((focused_example [] (exampleSession [])).symm.trans did.focusing)
  obtain rfl : s = t := Except.ok.inj (screening.symm.trans did.screening)
  refine ⟨packet, by rw [called], ?_, ?_⟩
  · apply compile_keeps screening did.compiling
    · rw [exclusions]
      rfl
    · rw [candidates]
      decide
  · apply compile_keeps screening did.compiling
    · rw [exclusions]
      rfl
    · rw [candidates]
      decide

end Onmc.WorkingContext
