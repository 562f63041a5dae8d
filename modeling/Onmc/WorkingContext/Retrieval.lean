import Mathlib.Data.List.Perm.Subperm
import Onmc.WorkingContext.Engine

/-! What is retrieved: what the session's files and queries find, then what was delivered last and they do
not find, each once and no more than fit. -/
namespace Onmc.WorkingContext

/-- `found.setdefault` for one memory after the other. -/
def gather (found memories : List MemoryEntry) : List MemoryEntry := memories.foldl setDefault found

def idsOf (memories : List MemoryEntry) : List String := memories.map MemoryEntry.id

theorem gather_append (found memories more : List MemoryEntry) :
    gather found (memories ++ more) = gather (gather found memories) more := List.foldl_append

theorem nodup_gather {found : List MemoryEntry} (memories : List MemoryEntry) (once : (idsOf found).Nodup) :
    (idsOf (gather found memories)).Nodup := by
  induction memories generalizing found with
  | nil => exact once
  | cons memory memories ih =>
    refine ih ?_
    unfold setDefault
    split
    · exact once
    · rename_i new
      rw [idsOf, List.map_append, List.nodup_append]
      refine ⟨once, List.nodup_singleton _, ?_⟩
      intro id member other last same
      rw [List.map_singleton, List.mem_singleton] at last
      rw [same, last] at member
      exact new member

/-- Gathering only adds, and adds what it was given and did not hold. -/
theorem gather_extends (found memories : List MemoryEntry) : ∃ added, gather found memories = found ++ added ∧
    added ⊆ memories ∧ (∀ memory ∈ added, memory.id ∉ idsOf found) ∧
      ∀ memory ∈ memories, memory.id ∉ idsOf found → memory.id ∈ idsOf added := by
  induction memories generalizing found with
  | nil => exact ⟨[], by simp [gather], List.Subset.refl _, by simp, by simp⟩
  | cons memory memories ih =>
    obtain ⟨added, split, given, new, all⟩ := ih (setDefault found memory)
    rw [gather, List.foldl_cons, ← gather, split]
    unfold setDefault at new all ⊢
    by_cases known : memory.id ∈ idsOf found
    · rw [idsOf] at known
      simp only [if_pos known] at new all ⊢
      refine ⟨added, rfl, fun m member => List.mem_cons_of_mem _ (given member), new, ?_⟩
      intro other member absent
      rcases List.mem_cons.mp member with rfl | member
      · exact absurd known absent
      · exact all other member absent
    · have unknown : memory.id ∉ found.map MemoryEntry.id := known
      simp only [if_neg unknown, List.append_assoc] at new all ⊢
      refine ⟨memory :: added, rfl, ?_, ?_, ?_⟩
      · intro other member
        rcases List.mem_cons.mp member with rfl | member
        · exact List.mem_cons_self
        · exact List.mem_cons_of_mem _ (given member)
      · intro other member
        rcases List.mem_cons.mp member with rfl | member
        · exact known
        · intro held
          refine new other member ?_
          simp only [idsOf, List.map_append, List.mem_append] at held ⊢
          exact .inl held
      · intro other member absent
        simp only [idsOf, List.map_cons, List.mem_cons]
        rcases List.mem_cons.mp member with rfl | member
        · exact .inl rfl
        · by_cases same : other.id = memory.id
          · exact .inl same
          · right
            refine all other member ?_
            simp only [idsOf, List.map_append, List.mem_append, List.map_singleton, List.mem_singleton, not_or] at absent ⊢
            exact ⟨absent, same⟩

/-- What the session's files and queries find. -/
def found (w : World) (session : WorkingSession) : List MemoryEntry :=
  let anchored := if session.activeFiles = [] then [] else activeMemories w session.activeFiles
  let queries := [PyText.join " " session.activeFiles, session.focus, session.goal].filter (fun q => q ≠ "")
  gather [] (anchored ++ queries.flatMap (fun query => searchMemories w (PyText.first 4000 query)))

/-- What was delivered last, as the store has it now. -/
def previous (w : World) (session : WorkingSession) : List MemoryEntry := session.lastSelected.filterMap w.getMemory

theorem retrieve_eq (w : World) (session : WorkingSession) :
    retrieve w session = (gather (found w session) (previous w session)).take maxCandidates := by
  rw [found, ← gather_append]
  rfl

theorem nodup_retrieve (w : World) (session : WorkingSession) : (idsOf (retrieve w session)).Nodup := by
  have all : (idsOf (gather (found w session) (previous w session))).Nodup :=
    nodup_gather _ (nodup_gather _ List.nodup_nil)
  rw [retrieve_eq]
  exact all.sublist ((List.take_sublist _ _).map MemoryEntry.id)

theorem getMemory_id {w : World} {id : String} {memory : MemoryEntry} (stored : w.getMemory id = some memory) :
    memory.id = id := by
  have named := List.find?_some stored
  simpa using named

theorem mem_previous {w : World} {session : WorkingSession} {memory : MemoryEntry} :
    memory ∈ previous w session ↔ memory.id ∈ session.lastSelected ∧ w.getMemory memory.id = some memory := by
  simp only [previous, List.mem_filterMap]
  constructor
  · rintro ⟨id, member, stored⟩
    obtain rfl := getMemory_id stored
    exact ⟨member, stored⟩
  · rintro ⟨member, stored⟩
    exact ⟨memory.id, member, stored⟩

/-- Two sessions whose files and queries are the same. -/
structure SeeksAlike (session next : WorkingSession) : Prop where
  goal : next.goal = session.goal
  focus : next.focus = session.focus
  activeFiles : next.activeFiles = session.activeFiles

/-- What is only retrieved because it was delivered last is delivered again. -/
def Carried (w : World) (session next : WorkingSession) : Prop :=
  ∀ memory ∈ retrieve w session, memory.id ∉ idsOf (found w session) → memory.id ∈ next.lastSelected

/-- Retrieval after a delivery from what was retrieved: what it adds to what the files and queries find was
added before. -/
theorem retrieve_next {w : World} {session next : WorkingSession} (alike : SeeksAlike session next)
    (delivers : next.lastSelected ⊆ idsOf (retrieve w session)) : ∃ held added added',
      retrieve w session = held ++ added ∧ retrieve w next = held ++ added' ∧
      (∀ memory, memory ∈ added' ↔ memory ∈ added ∧ memory.id ∈ next.lastSelected) ∧
      ∀ memory, memory ∈ added ↔ memory ∈ retrieve w session ∧ memory.id ∉ idsOf (found w session) := by
  have seeks : found w next = found w session := by
    simp only [found, alike.goal, alike.focus, alike.activeFiles]
  obtain ⟨added, split, given, new, _⟩ := gather_extends (found w session) (previous w session)
  obtain ⟨added', split', given', new', all'⟩ := gather_extends (found w session) (previous w next)
  have once : (idsOf (found w session ++ added')).Nodup := by
    rw [← split']
    exact nodup_gather _ (nodup_gather _ List.nodup_nil)
  have first : retrieve w session = (found w session).take maxCandidates ++
      added.take (maxCandidates - (found w session).length) := by
    rw [retrieve_eq, split, List.take_append]
  have second : retrieve w next = (found w session).take maxCandidates ++
      added'.take (maxCandidates - (found w session).length) := by
    rw [retrieve_eq, seeks, split', List.take_append]
  have taken : ∀ memory, memory ∈ added.take (maxCandidates - (found w session).length) ↔
      memory ∈ retrieve w session ∧ memory.id ∉ idsOf (found w session) := by
    intro memory
    rw [first, List.mem_append]
    constructor
    · exact fun member => ⟨.inr member, new memory (List.mem_of_mem_take member)⟩
    · rintro ⟨member | member, absent⟩
      · exact absurd (List.mem_map_of_mem (List.mem_of_mem_take member)) absent
      · exact member
  -- what the last delivery adds was retrieved before, and not by the files and queries
  have known : ∀ memory ∈ added', memory ∈ added.take (maxCandidates - (found w session).length) := by
    intro memory member
    obtain ⟨last, stored⟩ := mem_previous.mp (given' member)
    obtain ⟨earlier, retrieved, same⟩ := List.mem_map.mp (delivers last)
    have absent := new' memory member
    rw [← same] at absent
    have added := (taken earlier).mpr ⟨retrieved, absent⟩
    obtain ⟨_, stored'⟩ := mem_previous.mp (given (List.mem_of_mem_take added))
    rw [same, stored] at stored'
    obtain rfl := Option.some.inj stored'
    exact added
  have few : added'.length ≤ maxCandidates - (found w session).length := by
    have distinct : added'.Nodup := by
      rw [idsOf, List.map_append, List.nodup_append] at once
      exact List.Nodup.of_map _ once.2.1
    have bound := (distinct.subperm known).length_le
    rw [List.length_take] at bound
    omega
  refine ⟨_, _, added', first, ?_, ?_, taken⟩
  · rw [second, List.take_of_length_le few]
  · intro memory
    constructor
    · exact fun member => ⟨known memory member, (mem_previous.mp (given' member)).1⟩
    · rintro ⟨member, last⟩
      have stored := (mem_previous.mp (given (List.mem_of_mem_take member))).2
      have absent := new memory (List.mem_of_mem_take member)
      obtain ⟨other, listed, same⟩ := List.mem_map.mp (all' memory (mem_previous.mpr ⟨last, stored⟩) absent)
      have stored' := (mem_previous.mp (given' listed)).2
      rw [same, stored] at stored'
      obtain rfl := Option.some.inj stored'
      exact listed

end Onmc.WorkingContext
