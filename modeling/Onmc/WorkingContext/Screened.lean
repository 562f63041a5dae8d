import Onmc.EventLog
import Onmc.WorkingContext.Packet

/-! What screening leaves: each memory it looked at is excluded or a candidate under its own id. -/
namespace Onmc.WorkingContext

/-- The exclusions and the candidates are of the given memories, each once. -/
structure Screened (ids : List String) (s : Screening) : Prop where
  excludedOnce : (Dict.keys s.exclusions).Nodup
  excludedKnown : ∀ id ∈ Dict.keys s.exclusions, id ∈ ids
  candidateOnce : (Dict.keys s.candidates).Nodup
  candidateKnown : ∀ id ∈ Dict.keys s.candidates, id ∈ ids
  named : ∀ item ∈ s.candidates, item.2.id = item.1

namespace Screened

variable {ids : List String} {s : Screening}

theorem nil (ids : List String) (checks : Checks) : Screened ids ⟨checks, [], []⟩ := by
  constructor <;> simp [Dict.keys]

theorem checked (h : Screened ids s) (checks : Checks) : Screened ids { s with checks } :=
  ⟨h.excludedOnce, h.excludedKnown, h.candidateOnce, h.candidateKnown, h.named⟩

theorem exclude (h : Screened ids s) {id : String} (known : id ∈ ids) (reason : String) :
    Screened ids (s.exclude id reason) where
  excludedOnce := Dict.nodup_keys_setItem h.excludedOnce
  excludedKnown := by
    intro other member
    rcases Dict.mem_keys_setItem.mp member with rfl | member
    · exact known
    · exact h.excludedKnown other member
  candidateOnce := h.candidateOnce
  candidateKnown := h.candidateKnown
  named := h.named

theorem accept (h : Screened ids s) {item : ContextItem} (known : item.id ∈ ids) :
    Screened ids { s with candidates := Dict.setItem item.id item s.candidates } where
  excludedOnce := h.excludedOnce
  excludedKnown := h.excludedKnown
  candidateOnce := Dict.nodup_keys_setItem h.candidateOnce
  candidateKnown := by
    intro other member
    rcases Dict.mem_keys_setItem.mp member with rfl | member
    · exact known
    · exact h.candidateKnown other member
  named := by
    intro entry member
    rcases Dict.mem_setItem member with rfl | member
    · rfl
    · exact h.named entry member

end Screened

variable [Lowercase] [Sha256]

theorem screenMemory_screened {w : World} {session : WorkingSession} {queryTokens ids : List String}
    {s s' : Screening} {memory : MemoryEntry} (h : Screened ids s) (known : memory.id ∈ ids)
    (ok : screenMemory w session queryTokens s memory = .ok s') : Screened ids s' := by
  unfold screenMemory at ok
  split at ok
  · cases ok
    exact h.exclude known _
  · split at ok
    · cases ok
      exact h.exclude known _
    · obtain ⟨⟨checks, label, rejected⟩, _, ok⟩ := Except.bind_ok.mp ok
      cases rejected with
      | some reason =>
        cases ok
        exact (h.checked checks).exclude known reason
      | none =>
        obtain ⟨paths, _, ok⟩ := Except.bind_ok.mp ok
        dsimp only at ok
        split at ok
        · cases ok
          exact (h.checked checks).exclude known _
        · cases ok
          have known : (contextItem memory label (overlapOf queryTokens memory)
            (session.activeFiles.any fun path => decide (path ∈ paths))).id ∈ ids := known
          exact (h.checked checks).accept known

theorem screenAll_screened {w : World} {session : WorkingSession} {queryTokens ids : List String}
    {memories : List MemoryEntry} {s s' : Screening} (h : Screened ids s)
    (known : ∀ memory ∈ memories, memory.id ∈ ids)
    (ok : memories.foldlM (screenMemory w session queryTokens) s = .ok s') : Screened ids s' := by
  induction memories generalizing s with
  | nil =>
    cases ok
    exact h
  | cons memory memories ih =>
    rw [List.foldlM_cons] at ok
    obtain ⟨next, first, rest⟩ := Except.bind_ok.mp ok
    have step := screenMemory_screened h (known memory List.mem_cons_self) first
    exact ih step (fun other member => known other (List.mem_cons_of_mem _ member)) rest

omit [Lowercase] [Sha256] in
theorem excludeEdge_keys {ids : List String} {exclusions : List (String × String)}
    {edge : String × String × EdgeType} (once : (Dict.keys exclusions).Nodup)
    (known : ∀ id ∈ Dict.keys exclusions, id ∈ ids) (left : edge.1 ∈ ids) (right : edge.2.1 ∈ ids) :
    (Dict.keys (excludeEdge exclusions edge)).Nodup ∧ ∀ id ∈ Dict.keys (excludeEdge exclusions edge), id ∈ ids := by
  obtain ⟨fromId, toId, edgeType⟩ := edge
  cases edgeType with
  | supersedes =>
    refine ⟨Dict.nodup_keys_setItem once, ?_⟩
    intro id member
    rcases Dict.mem_keys_setItem.mp member with rfl | member
    · exact right
    · exact known id member
  | contradicts =>
    refine ⟨Dict.nodup_keys_setItem (Dict.nodup_keys_setItem once), ?_⟩
    intro id member
    rcases Dict.mem_keys_setItem.mp member with rfl | member
    · exact right
    · rcases Dict.mem_keys_setItem.mp member with rfl | member
      · exact left
      · exact known id member
  | relates => exact ⟨once, known⟩
  | duplicateOf => exact ⟨once, known⟩

omit [Lowercase] [Sha256] in
theorem excludeEdges_keys {ids : List String} {edges : List (String × String × EdgeType)}
    {exclusions : List (String × String)} (once : (Dict.keys exclusions).Nodup)
    (known : ∀ id ∈ Dict.keys exclusions, id ∈ ids) (ends : ∀ edge ∈ edges, edge.1 ∈ ids ∧ edge.2.1 ∈ ids) :
    (Dict.keys (edges.foldl excludeEdge exclusions)).Nodup ∧
      ∀ id ∈ Dict.keys (edges.foldl excludeEdge exclusions), id ∈ ids := by
  induction edges generalizing exclusions with
  | nil => exact ⟨once, known⟩
  | cons edge edges ih =>
    obtain ⟨left, right⟩ := ends edge List.mem_cons_self
    obtain ⟨once, known⟩ := excludeEdge_keys once known left right
    exact ih once known (fun other member => ends other (List.mem_cons_of_mem _ member))

omit [Lowercase] [Sha256] in
theorem mem_edgeRows {w : World} {candidates : List (String × ContextItem)} {edge : String × String × EdgeType}
    (h : edge ∈ edgeRows w candidates) : edge.1 ∈ Dict.keys candidates ∧ edge.2.1 ∈ Dict.keys candidates := by
  simp only [edgeRows, List.mem_insertionSort, List.mem_eraseDups, List.mem_map, List.mem_filter,
    decide_eq_true_eq] at h
  obtain ⟨row, ⟨_, _, _, left, right⟩, rfl⟩ := h
  exact ⟨left, right⟩

def screenedIds (w : World) (session : WorkingSession) : List String :=
  if w.learningEnabled then (retrieve w session).map MemoryEntry.id else []

omit [Lowercase] [Sha256] in
theorem length_screenedIds (w : World) (session : WorkingSession) :
    (screenedIds w session).length ≤ maxCandidates := by
  unfold screenedIds retrieve
  split
  · simp only [List.length_map, List.length_take]
    omega
  · simp

theorem screen_screened {w : World} {session : WorkingSession} {s : Screening} (ok : screen w session = .ok s) :
    Screened (screenedIds w session) s := by
  obtain ⟨found, all, ok⟩ := Except.bind_ok.mp ok
  have start : Screened (screenedIds w session) ⟨⟨session.bindings, []⟩, [], []⟩ := .nil _ _
  have known : ∀ memory ∈ (if w.learningEnabled then retrieve w session else []),
      memory.id ∈ screenedIds w session := by
    intro memory member
    unfold screenedIds
    split at member
    · rename_i enabled
      rw [if_pos enabled]
      exact List.mem_map_of_mem member
    · cases member
  have screened := screenAll_screened start known all
  have ends : ∀ edge ∈ edgeRows w found.candidates,
      edge.1 ∈ screenedIds w session ∧ edge.2.1 ∈ screenedIds w session := by
    intro edge member
    obtain ⟨left, right⟩ := mem_edgeRows member
    exact ⟨screened.candidateKnown _ left, screened.candidateKnown _ right⟩
  have edges := excludeEdges_keys screened.excludedOnce screened.excludedKnown ends
  cases ok
  refine ⟨edges.1, edges.2, ?_, ?_, ?_⟩
  · exact screened.candidateOnce.sublist (List.filter_sublist.map Prod.fst)
  · intro id member
    exact screened.candidateKnown id ((List.filter_sublist.map Prod.fst).subset member)
  · intro item member
    exact screened.named item (List.mem_filter.mp member).1

omit [Lowercase] [Sha256] in
theorem length_le_of_nodup {α : Type} {xs ys : List α} (once : xs.Nodup) (known : ∀ x ∈ xs, x ∈ ys) :
    xs.length ≤ ys.length := (once.subperm known).length_le

end Onmc.WorkingContext
