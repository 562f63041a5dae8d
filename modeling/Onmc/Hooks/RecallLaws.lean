import Onmc.Hooks.PromptRecall

/-! What excluded entries can do to the recall of the others. -/
namespace Onmc.Hooks

open Onmc.Storage
open Onmc.Ranking (Uncrowded filter_insertionSort filter_take_iff filterMap_filter_of_none)

/-- Neither quarantined, nor rejected, nor of zero confidence. -/
def injectable (m : MemoryEntry) : Bool :=
  decide (m.promotionState ≠ .quarantined) && !rejected m && !worthless m

/-- The store that holds only the injectable memories. -/
def Memories.injectables (s : Memories) : Memories where
  entries := s.entries.filter injectable
  distinct := s.distinct.sublist (List.filter_sublist.map MemoryEntry.id)
  agreeing m member := s.agreeing m (List.mem_of_mem_filter member)

theorem Memories.ext {s t : Memories} (same : s.entries = t.entries) : s = t := by
  cases s
  cases t
  cases same
  rfl

theorem Memories.same_of_id {s : Memories} {a b : MemoryEntry} (ha : a ∈ s.entries) (hb : b ∈ s.entries)
    (id : a.id = b.id) : a = b := List.inj_on_of_nodup_map s.distinct ha hb id

theorem listMemories_injectables (s : Memories) :
    s.injectables.listMemories = s.listMemories.filter injectable := by
  have transitive : IsTrans MemoryEntry Memories.listOrder := by
    refine ⟨fun a b c ab bc => ?_⟩
    rcases ab with ab | ⟨ab, titles⟩
    · rcases bc with bc | ⟨bc, -⟩
      · exact .inl (Std.lt_trans bc ab)
      · exact .inl (by rw [← bc]; exact ab)
    · rcases bc with bc | ⟨bc, more⟩
      · exact .inl (by rw [ab]; exact bc)
      · exact .inr ⟨ab.trans bc, String.le_trans titles more⟩
  have total : Std.Total Memories.listOrder := by
    refine ⟨fun a b => ?_⟩
    by_cases same : a.updatedAt.iso = b.updatedAt.iso
    · rcases String.le_total a.title b.title with title | title
      · exact .inl (.inr ⟨same, title⟩)
      · exact .inr (.inr ⟨same.symm, title⟩)
    · rcases String.le_total a.updatedAt.iso b.updatedAt.iso with before | after
      · exact .inr (.inl (Std.lt_of_le_of_ne before same))
      · exact .inl (.inl (Std.lt_of_le_of_ne after (Ne.symm same)))
  exact (filter_insertionSort Memories.listOrder injectable s.entries).symm

theorem ranked_injectables (s : Memories) (rel : Relevance) (query : String) :
    s.injectables.ranked rel query = (s.ranked rel query).filter injectable := by
  have transitive : IsTrans MemoryEntry (fun a b => rel.before query a b = true) := ⟨rel.trans query⟩
  have total : Std.Total (fun a b => rel.before query a b = true) := ⟨rel.total query⟩
  rw [Memories.ranked, Memories.ranked, filter_insertionSort]
  simp only [Memories.injectables, List.filter_filter, Bool.and_comm]

theorem mem_ranked {s : Memories} {rel : Relevance} {query : String} {m : MemoryEntry}
    (member : m ∈ s.ranked rel query) : m ∈ s.entries := by
  rw [Memories.ranked, List.mem_insertionSort] at member
  exact List.mem_of_mem_filter member

section Scores

variable {V : Type} [LinearOrder V] [RecallFloats V] [Lowercase]

omit [Lowercase] in
theorem zero_lt_minScore : (zero : V) < minScore := RecallFloats.positive

theorem score_excluded {s : Memories} {m : MemoryEntry} (member : m ∈ s.entries) (excluded : injectable m = false)
    (tokens : List String) : scoreMemory m tokens = (zero : V) := by
  unfold scoreMemory
  by_cases marked : hasUnpromotedPrefix m.sourceRef = true
  · simp [isUnpromotedSource, marked]
  · have state : m.promotionState ≠ .quarantined := fun quarantined =>
      marked ((s.agreeing m member).mpr quarantined)
    by_cases scorned : rejected m = true
    · simp [isUnpromotedSource, marked, scorned]
    · by_cases empty : worthless m = true
      · simp [isUnpromotedSource, marked, scorned, empty]
      · simp [injectable, state, scorned, empty] at excluded

omit [Lowercase] in
theorem firstById_self (seen : List String) (ms : List MemoryEntry) (distinct : (ms.map MemoryEntry.id).Nodup)
    (fresh : ∀ m ∈ ms, m.id ∉ seen) : firstById seen ms = ms := by
  induction ms generalizing seen with
  | nil => rfl
  | cons m ms ih =>
    rw [List.map_cons, List.nodup_cons] at distinct
    have unseen : seen.contains m.id = false := by simpa using fresh m List.mem_cons_self
    simp only [firstById, unseen, Bool.false_eq_true, if_false]
    rw [ih (m.id :: seen) distinct.2]
    intro other member
    rw [List.mem_cons, not_or]
    exact ⟨fun same => distinct.1 (same ▸ List.mem_map_of_mem member), fresh other (List.mem_cons_of_mem _ member)⟩

/-- Excluded entries leave no trace among the scored ones. -/
theorem scored_filter {s : Memories} {cs : List MemoryEntry} (stored : ∀ m ∈ cs, m ∈ s.entries)
    (distinct : (cs.map MemoryEntry.id).Nodup) (tokens : List String) :
    (scored tokens cs : List (V × MemoryEntry)) = scored tokens (cs.filter injectable) := by
  have kept : ((cs.filter injectable).map MemoryEntry.id).Nodup :=
    distinct.sublist (List.filter_sublist.map MemoryEntry.id)
  rw [scored, scored, firstById_self [] cs distinct (fun _ _ => List.not_mem_nil),
    firstById_self [] _ kept (fun _ _ => List.not_mem_nil)]
  congr 1
  refine (filterMap_filter_of_none (fun m member excluded => ?_)).symm
  have low : ¬ (minScore : V) ≤ scoreMemory m tokens := by
    rw [score_excluded (stored m member) excluded tokens]
    exact not_le_of_gt zero_lt_minScore
  simp [low]

theorem mem_scored {tokens : List String} {cs : List MemoryEntry} {entry : V × MemoryEntry}
    (member : entry ∈ scored tokens cs) (distinct : (cs.map MemoryEntry.id).Nodup) :
    entry.2 ∈ cs ∧ entry.1 = scoreMemory entry.2 tokens ∧ minScore ≤ entry.1 := by
  rw [scored, List.mem_insertionSort, firstById_self [] cs distinct (fun _ _ => List.not_mem_nil),
    List.mem_filterMap] at member
  obtain ⟨m, member, found⟩ := member
  dsimp only at found
  split at found
  · obtain rfl := Option.some.inj found
    exact ⟨member, rfl, ‹_›⟩
  · cases found

end Scores

section Rerank

variable {V : Type} [LinearOrder V]

theorem mem_inOrder {results : List (V × MemoryEntry)} {m : MemoryEntry} :
    m ∈ inOrder results ↔ m ∈ results.map Prod.snd := by
  simp [inOrder, List.mem_insertionSort]

theorem mem_rerankViaSqlitevec {s : Memories} {distance : MemoryEntry → V} {cs : List MemoryEntry} {m : MemoryEntry}
    (member : m ∈ rerankViaSqlitevec s distance cs) : m ∈ cs := by
  rcases List.mem_append.mp member with near | far
  · obtain ⟨other, -, found⟩ := List.mem_filterMap.mp near
    exact List.mem_of_find?_eq_some found
  · exact List.mem_of_mem_filter far

/-- A rerank brings in nothing new. -/
theorem mem_rerank {reranker : Option (Reranker V)} {s : Memories} {query : String} {top : List (V × MemoryEntry)}
    {m : MemoryEntry} (member : m ∈ rerank reranker s query top) : m ∈ top.map Prod.snd := by
  cases reranker with
  | none => exact member
  | some models =>
    simp only [rerank] at member
    split at member
    · exact member
    · split at member
      · rw [mem_inOrder] at member
        obtain ⟨entry, kept, rfl⟩ := List.mem_map.mp member
        obtain ⟨result, -, found⟩ := List.mem_filterMap.mp kept
        obtain ⟨c, present, rfl⟩ := Option.map_eq_some_iff.mp found
        exact List.mem_of_getElem? present
      · split at member
        · exact mem_rerankViaSqlitevec member
        · split at member
          · exact member
          · rw [mem_inOrder] at member
            obtain ⟨entry, kept, rfl⟩ := List.mem_map.mp member
            obtain ⟨⟨c, i⟩, placed, rfl⟩ := List.mem_map.mp kept
            exact List.fst_mem_of_mem_zipIdx placed

/-- A rerank leaves something of something. -/
theorem rerank_ne_nil (reranker : Option (Reranker V)) (s : Memories) (query : String)
    {top : List (V × MemoryEntry)} (some_top : top ≠ []) : rerank reranker s query top ≠ [] := by
  have present : top.map Prod.snd ≠ [] := by simpa using some_top
  cases reranker with
  | none => exact present
  | some models =>
    simp only [rerank]
    split
    · exact present
    · split
      · rename_i results scored
        have places := models.complete query _ results scored
        have first : 0 ∈ results.map Prod.snd := by
          rw [places.mem_iff, List.mem_range]
          exact List.length_pos_iff.mpr present
        obtain ⟨result, member, place⟩ := List.mem_map.mp first
        obtain ⟨c, rest, split⟩ := List.exists_cons_of_ne_nil present
        apply List.ne_nil_of_mem
        rw [mem_inOrder]
        refine List.mem_map.mpr ⟨(result.1, c), List.mem_filterMap.mpr ⟨result, member, ?_⟩, rfl⟩
        rw [place, split]
        rfl
      · split
        · intro nothing
          obtain ⟨near, far⟩ := List.append_eq_nil_iff.mp nothing
          rw [near] at far
          exact present (by simpa using far)
        · split
          · exact present
          · obtain ⟨c, rest, split⟩ := List.exists_cons_of_ne_nil present
            apply List.ne_nil_of_mem
            rw [mem_inOrder, split]
            exact List.mem_map.mpr ⟨_, List.mem_cons_self, rfl⟩

/-- The rerank of the same candidates is the same, where no excluded entry takes a place among the nearest. -/
theorem rerank_injectables (reranker : Option (Reranker V)) (s : Memories) (query : String)
    {top : List (V × MemoryEntry)} (stored : ∀ entry ∈ top, entry.2 ∈ s.entries ∧ injectable entry.2 = true)
    (near : ∀ models distance, reranker = some models → models.distance = some distance →
      Uncrowded top.length injectable (s.entries.insertionSort (fun a b => distance query a ≤ distance query b))) :
    rerank reranker s query top = rerank reranker s.injectables query top := by
  cases reranker with
  | none => rfl
  | some models =>
    simp only [rerank]
    split
    · rfl
    · split
      · rfl
      · cases indexed : models.distance with
        | none => rfl
        | some distance =>
          have limited := (filter_take_iff _ _ _).mpr (near models distance rfl indexed)
          have transitive : IsTrans MemoryEntry (fun a b => distance query a ≤ distance query b) :=
            ⟨fun _ _ _ => le_trans⟩
          have total : Std.Total (fun a b : MemoryEntry => distance query a ≤ distance query b) :=
            ⟨fun _ _ => le_total _ _⟩
          rw [filter_insertionSort] at limited
          have foreign : ∀ m ∈ s.entries, injectable m = false →
              (top.map Prod.snd).find? (·.id = m.id) = none := by
            intro m held excluded
            rw [List.find?_eq_none]
            intro c member same
            obtain ⟨entry, scored, rfl⟩ := List.mem_map.mp member
            have equal := Memories.same_of_id (stored entry scored).1 held (by simpa using same)
            rw [← equal, (stored entry scored).2] at excluded
            cases excluded
          have search : ∀ m ∈ semanticSearch s (distance query) top.length, m ∈ s.entries := by
            intro m member
            exact (List.mem_insertionSort _).mp (List.mem_of_mem_take member)
          have same : (semanticSearch s (distance query) top.length).filter injectable =
              semanticSearch s.injectables (distance query) top.length := limited
          have hits := filterMap_filter_of_none (fun m member => foreign m (search m member))
          rw [same] at hits
          simp only [rerankViaSqlitevec, List.length_map, hits]

end Rerank

section Recall

variable {V : Type} [LinearOrder V] [RecallFloats V] [Lowercase]

omit [Lowercase] in
theorem mem_candidates {s : Memories} {rel : Relevance} {prompt : String} {limit : Nat} {m : MemoryEntry}
    (member : m ∈ candidates s rel prompt limit) : m ∈ s.entries := by
  unfold candidates at member
  split at member
  · exact (List.mem_insertionSort _).mp member
  · exact mem_ranked (List.mem_of_mem_take member)

omit [Lowercase] in
theorem candidates_distinct (s : Memories) (rel : Relevance) (prompt : String) (limit : Nat) :
    ((candidates s rel prompt limit).map MemoryEntry.id).Nodup := by
  unfold candidates
  split
  · exact ((List.perm_insertionSort _ s.entries).map MemoryEntry.id).nodup_iff.mpr s.distinct
  · have sorted := ((List.perm_insertionSort (fun a b => rel.before prompt a b = true)
      (s.entries.filter (rel.found prompt))).map MemoryEntry.id).nodup_iff.mpr
        (s.distinct.sublist (List.filter_sublist.map MemoryEntry.id))
    exact sorted.sublist ((List.take_sublist _ _).map MemoryEntry.id)

theorem scored_stored {s : Memories} {rel : Relevance} {prompt : String} {limit : Nat} {tokens : List String}
    {entry : V × MemoryEntry} (member : entry ∈ scored tokens (candidates s rel prompt limit)) :
    entry.2 ∈ s.entries ∧ injectable entry.2 = true ∧ entry.1 = scoreMemory entry.2 tokens ∧ minScore ≤ entry.1 := by
  obtain ⟨held, score, enough⟩ := mem_scored member (candidates_distinct s rel prompt limit)
  refine ⟨mem_candidates held, ?_, score, enough⟩
  by_contra excluded
  rw [score, score_excluded (mem_candidates held) (by simpa using excluded)] at enough
  exact not_le_of_gt zero_lt_minScore enough

omit [LinearOrder V] [RecallFloats V] [Lowercase] in
theorem mem_keepWithin {maxChars total : Int} {kept ms : List MemoryEntry} {m : MemoryEntry}
    (member : m ∈ keepWithin maxChars total kept ms) : m ∈ kept ∨ m ∈ ms := by
  induction ms generalizing total kept with
  | nil => exact .inl member
  | cons c ms ih =>
    simp only [keepWithin] at member
    split at member
    · rcases ih member with held | later
      · rcases List.mem_append.mp held with held | first
        · exact .inl held
        · exact .inr (List.mem_singleton.mp first ▸ List.mem_cons_self)
      · exact .inr (List.mem_cons_of_mem _ later)
    · exact (ih member).imp_right (List.mem_cons_of_mem _)

omit [LinearOrder V] [RecallFloats V] [Lowercase] in
theorem keepWithin_ne_nil {maxChars total : Int} {kept ms : List MemoryEntry} (held : kept ≠ []) :
    keepWithin maxChars total kept ms ≠ [] := by
  induction ms generalizing total kept with
  | nil => exact held
  | cons c ms ih =>
    simp only [keepWithin]
    split
    · exact ih (by simp)
    · exact ih held

omit [LinearOrder V] [RecallFloats V] [Lowercase] in
theorem mem_applyCharBudget {maxChars : Int} {ms : List MemoryEntry} {m : MemoryEntry}
    (member : m ∈ (applyCharBudget ms maxChars).1) : m ∈ ms := by
  unfold applyCharBudget at member
  split at member
  · exact member
  · exact (mem_keepWithin member).resolve_left List.not_mem_nil

omit [LinearOrder V] [RecallFloats V] [Lowercase] in
theorem applyCharBudget_ne_nil {maxChars : Int} {ms : List MemoryEntry} (some_ms : ms ≠ []) :
    (applyCharBudget ms maxChars).1 ≠ [] := by
  unfold applyCharBudget
  split
  · exact some_ms
  · cases ms with
    | nil => exact absurd rfl some_ms
    | cons m ms =>
      simp only [keepWithin, List.isEmpty_nil, true_or, if_true]
      exact keepWithin_ne_nil (by simp)

/-- What is injected is stored and injectable. -/
theorem select_injectable {reranker : Option (Reranker V)} {rel : Relevance} {opts : RecallOptions V} {s : Memories}
    {prompt : String} {top : List MemoryEntry} {dropped : Nat}
    (selected : select reranker rel opts s prompt = some (top, dropped)) :
    ∀ m ∈ top, m ∈ s.entries ∧ injectable m = true := by
  intro m member
  simp only [select] at selected
  split at selected
  · cases selected
  · split at selected
    · cases selected
    · rename_i best rest found
      split at selected
      · cases selected
      · have budget := congrArg Prod.fst (Option.some.inj selected)
        dsimp only at budget
        rw [← budget] at member
        have kept := mem_rerank (mem_applyCharBudget member)
        obtain ⟨entry, taken, rfl⟩ := List.mem_map.mp kept
        have stored := @scored_stored V _ _ _ s rel prompt opts.limit (tokenize prompt) entry
          (found ▸ List.mem_of_mem_take taken)
        exact ⟨stored.1, stored.2.1⟩

/-- No excluded entry takes a place of an injectable one: neither within the limit of the search, nor in
keeping it from being empty, nor among the nearest of the index. -/
structure Undisturbed (reranker : Option (Reranker V)) (rel : Relevance) (opts : RecallOptions V) (s : Memories)
    (prompt : String) : Prop where
  search : Uncrowded (opts.limit * 4) injectable (s.ranked rel prompt)
  answered : s.ranked rel prompt ≠ [] → ∃ m ∈ s.ranked rel prompt, injectable m = true
  near : ∀ models distance, reranker = some models → models.distance = some distance → ∀ k ≤ opts.limit,
    Uncrowded k injectable (s.entries.insertionSort (fun a b => distance prompt a ≤ distance prompt b))

omit [RecallFloats V] [Lowercase] in
theorem candidates_injectables {reranker : Option (Reranker V)} {rel : Relevance} {opts : RecallOptions V}
    {s : Memories} {prompt : String} (undisturbed : Undisturbed reranker rel opts s prompt) :
    candidates s.injectables rel prompt opts.limit = (candidates s rel prompt opts.limit).filter injectable := by
  have limited : s.injectables.searchMemories rel prompt (opts.limit * 4) =
      (s.searchMemories rel prompt (opts.limit * 4)).filter injectable := by
    rw [Memories.searchMemories, ranked_injectables]
    exact ((filter_take_iff _ _ _).mpr undisturbed.search).symm
  unfold candidates
  rw [limited]
  cases found : s.searchMemories rel prompt (opts.limit * 4) with
  | nil => exact listMemories_injectables s
  | cons m ms =>
    cases kept : (m :: ms).filter injectable with
    | cons c cs => rfl
    | nil =>
      -- Within the limit something was found and nothing of it is injectable: then nothing beyond it is.
      have present : s.ranked rel prompt ≠ [] := by
        intro none
        simp [Memories.searchMemories, none] at found
      obtain ⟨c, member, good⟩ := undisturbed.answered present
      have within : c ∈ m :: ms := by
        rcases undisturbed.search with all | none
        · rw [← found]
          have first : injectable m = true := all m (by
            rw [← Memories.searchMemories, found]
            exact List.mem_cons_self)
          simp [first] at kept
        · rw [← List.take_append_drop (opts.limit * 4) (s.ranked rel prompt), List.mem_append] at member
          rcases member with taken | dropped
          · exact found ▸ taken
          · cases (none c dropped).symm.trans good
      have := List.filter_eq_nil_iff.mp kept c within
      exact absurd good this

theorem select_injectables {reranker : Option (Reranker V)} {rel : Relevance} {opts : RecallOptions V}
    {s : Memories} {prompt : String} (undisturbed : Undisturbed reranker rel opts s prompt) :
    select reranker rel opts s prompt = select reranker rel opts s.injectables prompt := by
  have same : (scored (tokenize prompt) (candidates s.injectables rel prompt opts.limit) : List (V × MemoryEntry)) =
      scored (tokenize prompt) (candidates s rel prompt opts.limit) := by
    rw [candidates_injectables undisturbed]
    exact (scored_filter (fun m => mem_candidates) (candidates_distinct s rel prompt opts.limit) _).symm
  simp only [select, same]
  cases found : (scored (tokenize prompt) (candidates s rel prompt opts.limit) : List (V × MemoryEntry)) with
  | nil => rfl
  | cons best rest =>
    have stored : ∀ entry ∈ (best :: rest).take opts.limit, entry.2 ∈ s.entries ∧ injectable entry.2 = true := by
      intro entry taken
      have held := @scored_stored V _ _ _ s rel prompt opts.limit (tokenize prompt) entry
        (found ▸ List.mem_of_mem_take taken)
      exact ⟨held.1, held.2.1⟩
    have reranked := rerank_injectables reranker s prompt stored (fun models distance here indexed =>
      undisturbed.near models distance here indexed _ (List.length_take_le _ _))
    simp only [reranked]

end Recall

/-! A recalled entry leaves a text. -/

theorem ne_empty {text : String} : text ≠ "" ↔ text.toList ≠ [] := by
  rw [ne_eq, ne_eq, ← String.toList_inj]
  rfl

theorem join_cons_ne_nil {first : String} (sep : String) (rest : List String) (filled : first.toList ≠ []) :
    (PyText.join sep (first :: rest)).toList ≠ [] := by
  cases rest with
  | nil => simpa [PyText.join] using filled
  | cons next rest =>
    rw [PyText.join, String.intercalate_cons_cons]
    simp [filled]

theorem render_ne_empty {V : Type} {opts : RecallOptions V} {top : List MemoryEntry} (dropped : Nat)
    (some_top : top ≠ []) (room : 0 < opts.limit) : (render opts top dropped).1 ≠ "" := by
  obtain ⟨m, rest, rfl⟩ := List.exists_cons_of_ne_nil some_top
  unfold render
  split
  · have text : renderRecallTerse (m :: rest) opts.limit ≠ "" := by
      obtain ⟨n, limit⟩ := Nat.exists_eq_succ_of_ne_zero (Nat.ne_of_gt room)
      rw [ne_empty, renderRecallTerse, limit, List.take_succ_cons, List.map_cons, PyText.first]
      have line := @join_cons_ne_nil (kindLabel m.kind ++ ": " ++ m.title ++ " — " ++ truncate m.summary 120) "\n"
        ((rest.take n).map (fun m => kindLabel m.kind ++ ": " ++ m.title ++ " — " ++ truncate m.summary 120))
        (by simp)
      simpa using line
    simp only [text, if_false]
    split
    · exact text
    · rw [ne_empty] at text ⊢
      simp [text]
  · have first : entriesWithin opts.budgetTokens (countTokens header) false (m :: rest) ≠ [] := by
      simp [entriesWithin]
    simp only [first, if_false]
    rw [ne_empty]
    split <;> simp

section Noninterference

variable {V : Type} [LinearOrder V] [RecallFloats V] [Lowercase]

/-- Nothing of these entries can be recalled for the prompt, whatever the search finds. -/
def Idle (opts : RecallOptions V) (s : Memories) (prompt : String) : Prop :=
  PyText.strip prompt = "" ∨ Learning.isLearningEnabled opts.learning = false ∨ tokenize prompt = [] ∨
    opts.limit = 0 ∨ ∀ m ∈ s.entries, scoreMemory m (tokenize prompt) < (minScore : V) ∨
      (zero < opts.minScore ∧ scoreMemory m (tokenize prompt) < opts.minScore)

omit [LinearOrder V] [RecallFloats V] [Lowercase] in
theorem render_nil (opts : RecallOptions V) : render opts [] 0 = ("", 0) := by
  unfold render
  split <;> simp [renderRecallTerse, PyText.join, PyText.first, entriesWithin]

theorem idle_silent (reranker : Option (Reranker V)) (rel : Relevance) {opts : RecallOptions V} {s : Memories}
    {prompt : String} (idle : Idle opts s.injectables prompt) :
    compilePromptRecall reranker rel opts s prompt = ("", 0) := by
  unfold compilePromptRecall
  cases selected : select reranker rel opts s prompt with
  | none => rfl
  | some result =>
    simp only [select] at selected
    split at selected
    · cases selected
    · rename_i awake
      simp only [not_or] at awake
      split at selected
      · cases selected
      · rename_i best rest found
        split at selected
        · cases selected
        · rename_i gate
          rcases idle with blank | off | wordless | none | low
          · exact absurd blank awake.1
          · exact absurd off awake.2.1
          · exact absurd wordless awake.2.2
          · have nothing : rerank reranker s prompt ((best :: rest).take opts.limit) = [] := by
              rw [List.eq_nil_iff_forall_not_mem]
              intro m member
              simpa [none] using mem_rerank member
            obtain rfl := Option.some.inj selected
            simp only [nothing]
            have budget : applyCharBudget [] opts.maxChars = ([], 0) := by simp [applyCharBudget, keepWithin]
            rw [budget]
            exact render_nil opts
          · have stored := @scored_stored V _ _ _ s rel prompt opts.limit (tokenize prompt) best
              (found ▸ List.mem_cons_self)
            rcases low best.2 (List.mem_filter.mpr ⟨stored.1, stored.2.1⟩) with small | gated
            · exact absurd stored.2.2.2 (not_le_of_gt (stored.2.2.1 ▸ small))
            · exact absurd ⟨gated.1, stored.2.2.1 ▸ gated.2⟩ gate

end Noninterference

/-- An entry that an agent wrote about its own run, for every length of its id. -/
def noise (n : Nat) : MemoryEntry where
  id := String.ofList (List.replicate n 'q')
  kind := .docFact
  title := "noise"
  summary := "noise"
  details := ""
  sourceType := .manual
  sourceRef := "unpromoted:mcp:record_memory"
  tags := []
  confidence := half
  feedbackScore := .ofInt 0
  createdAt := ⟨0, DateTime.zero_inRange⟩
  updatedAt := ⟨0, DateTime.zero_inRange⟩
  staleness := none
  lastVerifiedAt := none
  promotionState := .quarantined

theorem noise_marked (n : Nat) : hasUnpromotedPrefix (noise n).sourceRef = true := by
  change hasUnpromotedPrefix "unpromoted:mcp:record_memory" = true
  decide

theorem noise_excluded (n : Nat) : injectable (noise n) = false := by
  simp [injectable, noise]

theorem noise_id_length (n : Nat) : (noise n).id.length = n := by
  simp [noise]

/-- So many entries with ids that are longer than those of a store. -/
def noises (beyond count : Nat) : List MemoryEntry := (List.range count).map (fun i => noise (beyond + i))

theorem mem_noises {beyond count : Nat} {m : MemoryEntry} (member : m ∈ noises beyond count) :
    ∃ n, beyond ≤ n ∧ m = noise n := by
  obtain ⟨i, -, rfl⟩ := List.mem_map.mp member
  exact ⟨beyond + i, Nat.le_add_right _ _, rfl⟩

theorem noises_distinct (beyond count : Nat) : ((noises beyond count).map MemoryEntry.id).Nodup := by
  rw [noises, List.map_map]
  refine List.Nodup.map_on ?_ List.nodup_range
  intro i _ j _ same
  have lengths := congrArg String.length same
  simp only [Function.comp_apply, noise_id_length] at lengths
  omega

/-- A store with noise in front of what it holds. -/
def crowded (s : Memories) (beyond count : Nat) (longer : ∀ m ∈ s.entries, m.id.length < beyond) : Memories where
  entries := noises beyond count ++ s.entries
  distinct := by
    rw [List.map_append, List.nodup_append]
    refine ⟨noises_distinct beyond count, s.distinct, ?_⟩
    intro a here b there same
    obtain ⟨m, member, rfl⟩ := List.mem_map.mp here
    obtain ⟨n, far, rfl⟩ := mem_noises member
    obtain ⟨m', member', rfl⟩ := List.mem_map.mp there
    have := longer m' member'
    rw [← same, noise_id_length] at this
    omega
  agreeing := by
    intro m member
    rcases List.mem_append.mp member with new | old
    · obtain ⟨n, -, rfl⟩ := mem_noises new
      exact ⟨fun _ => rfl, fun _ => noise_marked n⟩
    · exact s.agreeing m old

theorem exists_longer (ms : List MemoryEntry) : ∃ n, ∀ m ∈ ms, m.id.length < n := by
  induction ms with
  | nil => exact ⟨0, fun m member => absurd member List.not_mem_nil⟩
  | cons m ms ih =>
    obtain ⟨n, longer⟩ := ih
    refine ⟨max (m.id.length + 1) n, fun other member => ?_⟩
    rcases List.mem_cons.mp member with rfl | member
    · exact Nat.lt_of_lt_of_le (Nat.lt_succ_self _) (Nat.le_max_left _ _)
    · exact Nat.lt_of_lt_of_le (longer other member) (Nat.le_max_right _ _)

/-- A relevance that finds one entry and all noise, the noise first. -/
def noiseFirst (target : MemoryEntry) : Relevance where
  found _ m := decide (m = target) || decide (m.promotionState = .quarantined)
  before _ a b := decide (a.promotionState = .quarantined) || !decide (b.promotionState = .quarantined)
  total _ a b := by
    by_cases a.promotionState = .quarantined <;> by_cases b.promotionState = .quarantined <;> simp_all
  trans _ a b c ab bc := by
    by_cases a.promotionState = .quarantined <;> by_cases b.promotionState = .quarantined <;> simp_all

theorem injectable_state {m : MemoryEntry} (good : injectable m = true) : m.promotionState ≠ .quarantined := by
  simp only [injectable, Bool.and_eq_true, decide_eq_true_eq] at good
  exact good.1.1

theorem ranked_clean {s : Memories} (clean : ∀ m ∈ s.entries, injectable m = true) {target : MemoryEntry}
    (member : target ∈ s.entries) (query : String) : s.ranked (noiseFirst target) query = [target] := by
  have only : s.entries.filter ((noiseFirst target).found query) = [target] := by
    have narrow : s.entries.filter ((noiseFirst target).found query) = s.entries.filter (· = target) := by
      apply List.filter_congr
      intro m held
      simp only [noiseFirst, injectable_state (clean m held), decide_false, Bool.or_false]
    rw [narrow, List.filter_eq, List.count_eq_one_of_mem s.distinct.of_map member]
    rfl
  rw [Memories.ranked, only]
  rfl

theorem ranked_crowded {s : Memories} (clean : ∀ m ∈ s.entries, injectable m = true) {target : MemoryEntry}
    (member : target ∈ s.entries) {beyond count : Nat} (longer : ∀ m ∈ s.entries, m.id.length < beyond)
    (query : String) :
    (crowded s beyond count longer).ranked (noiseFirst target) query = noises beyond count ++ [target] := by
  have all : (noises beyond count).filter ((noiseFirst target).found query) = noises beyond count := by
    rw [List.filter_eq_self]
    intro m new
    obtain ⟨n, -, rfl⟩ := mem_noises new
    simp [noiseFirst, noise]
  have rest := ranked_clean clean member query
  have only : s.entries.filter ((noiseFirst target).found query) = [target] := by
    have perm := List.perm_insertionSort (fun a b => (noiseFirst target).before query a b = true)
      (s.entries.filter ((noiseFirst target).found query))
    rw [Memories.ranked] at rest
    rw [rest] at perm
    exact List.perm_singleton.mp perm.symm
  rw [Memories.ranked]
  simp only [crowded, List.filter_append, all, only]
  apply List.Pairwise.insertionSort_eq
  rw [List.pairwise_append]
  refine ⟨List.pairwise_of_forall_mem_list ?_, List.pairwise_singleton _ _, ?_⟩
  · intro a new b _
    obtain ⟨n, -, rfl⟩ := mem_noises new
    simp [noiseFirst, noise]
  · intro a new b _
    obtain ⟨n, -, rfl⟩ := mem_noises new
    simp [noiseFirst, noise]

theorem crowded_injectables {s : Memories} (clean : ∀ m ∈ s.entries, injectable m = true) {beyond count : Nat}
    (longer : ∀ m ∈ s.entries, m.id.length < beyond) : (crowded s beyond count longer).injectables = s := by
  apply Memories.ext
  have none : (noises beyond count).filter injectable = [] := by
    rw [List.filter_eq_nil_iff]
    intro m new
    obtain ⟨n, -, rfl⟩ := mem_noises new
    simp [noise_excluded]
  simp [Memories.injectables, crowded, none, List.filter_eq_self.mpr clean]

section Noninterference

variable {V : Type} [LinearOrder V] [RecallFloats V] [Lowercase]

/-- Enough noise that is found first leaves nothing to be recalled. -/
theorem crowded_silent (reranker : Option (Reranker V)) (opts : RecallOptions V) {s : Memories} {prompt : String}
    (clean : ∀ m ∈ s.entries, injectable m = true) {target : MemoryEntry} (member : target ∈ s.entries)
    {beyond : Nat} (longer : ∀ m ∈ s.entries, m.id.length < beyond) (room : 0 < opts.limit) :
    compilePromptRecall reranker (noiseFirst target) opts (crowded s beyond (opts.limit * 4) longer) prompt =
      ("", 0) := by
  have length : (noises beyond (opts.limit * 4)).length = opts.limit * 4 := by simp [noises]
  have search : (crowded s beyond (opts.limit * 4) longer).searchMemories (noiseFirst target) prompt
      (opts.limit * 4) = noises beyond (opts.limit * 4) := by
    rw [Memories.searchMemories, ranked_crowded clean member longer, List.take_left' length]
  have some_noise : noises beyond (opts.limit * 4) ≠ [] := by
    rw [← List.length_pos_iff, length]
    omega
  have found : candidates (crowded s beyond (opts.limit * 4) longer) (noiseFirst target) prompt opts.limit =
      noises beyond (opts.limit * 4) := by
    unfold candidates
    rw [search]
    split
    · rename_i nothing
      exact absurd nothing some_noise
    · rfl
  have nothing : (scored (tokenize prompt) (noises beyond (opts.limit * 4)) : List (V × MemoryEntry)) = [] := by
    have held : ∀ m ∈ noises beyond (opts.limit * 4), m ∈ (crowded s beyond (opts.limit * 4) longer).entries :=
      fun m new => List.mem_append_left _ new
    have none : (noises beyond (opts.limit * 4)).filter injectable = [] := by
      rw [List.filter_eq_nil_iff]
      intro m new
      obtain ⟨n, -, rfl⟩ := mem_noises new
      simp [noise_excluded]
    rw [scored_filter held (noises_distinct _ _), none]
    rfl
  unfold compilePromptRecall select
  rw [found, nothing]
  split <;> simp_all

/-- An entry that reaches the bar is recalled where it is all that is found. -/
theorem target_recalled (reranker : Option (Reranker V)) {opts : RecallOptions V} {s : Memories} {prompt : String}
    (clean : ∀ m ∈ s.entries, injectable m = true) {target : MemoryEntry} (member : target ∈ s.entries)
    (awake : ¬ (PyText.strip prompt = "" ∨ Learning.isLearningEnabled opts.learning = false ∨ tokenize prompt = []))
    (room : 0 < opts.limit) (enough : (minScore : V) ≤ scoreMemory target (tokenize prompt))
    (gate : ¬ (zero < opts.minScore ∧ scoreMemory target (tokenize prompt) < opts.minScore)) :
    compilePromptRecall reranker (noiseFirst target) opts s prompt ≠ ("", 0) := by
  obtain ⟨n, limit⟩ := Nat.exists_eq_succ_of_ne_zero (Nat.ne_of_gt room)
  have found : candidates s (noiseFirst target) prompt opts.limit = [target] := by
    have search : s.searchMemories (noiseFirst target) prompt (opts.limit * 4) = [target] := by
      rw [Memories.searchMemories, ranked_clean clean member, List.take_of_length_le]
      simp only [List.length_singleton]
      omega
    unfold candidates
    rw [search]
  have one : (scored (tokenize prompt) [target] : List (V × MemoryEntry)) =
      [(scoreMemory target (tokenize prompt), target)] := by
    simp [scored, firstById, enough]
  have top : [((scoreMemory target (tokenize prompt) : V), target)].take opts.limit =
      [(scoreMemory target (tokenize prompt), target)] := by
    rw [limit, List.take_succ_cons, List.take_nil]
  have selected : select reranker (noiseFirst target) opts s prompt = some (applyCharBudget
      (rerank reranker s prompt [((scoreMemory target (tokenize prompt) : V), target)]) opts.maxChars) := by
    unfold select
    rw [found, one, if_neg awake]
    dsimp only
    rw [if_neg gate, top]
  have recalled := rerank_ne_nil reranker s prompt
    (List.cons_ne_nil ((scoreMemory target (tokenize prompt) : V), target) [])
  intro silent
  rw [compilePromptRecall, selected] at silent
  exact render_ne_empty _ (applyCharBudget_ne_nil recalled) room (congrArg Prod.fst silent)

/-- What recall keeps apart, and what it does not: only injectable entries are injected; where the excluded
ones take no place the rest is recalled as without them; and a set of injectable entries is recalled alike
in every store only if nothing of it can be recalled at all. -/
theorem recall_noninterference (reranker : Option (Reranker V)) (opts : RecallOptions V) (prompt : String) :
    (∀ rel s top dropped, select reranker rel opts s prompt = some (top, dropped) →
      ∀ m ∈ top, m ∈ s.entries ∧ injectable m = true) ∧
    (∀ rel s, Undisturbed reranker rel opts s prompt →
      compilePromptRecall reranker rel opts s prompt = compilePromptRecall reranker rel opts s.injectables prompt) ∧
    ∀ part : Memories, part.injectables = part →
      ((∀ rel s, s.injectables = part →
        compilePromptRecall reranker rel opts s prompt = compilePromptRecall reranker rel opts part prompt) ↔
      Idle opts part prompt) := by
  refine ⟨fun rel s top dropped => select_injectable, fun rel s undisturbed => ?_, fun part pure => ?_⟩
  · unfold compilePromptRecall
    rw [select_injectables undisturbed]
  · constructor
    · intro alike
      by_contra busy
      simp only [Idle, not_or, not_forall, not_lt] at busy
      obtain ⟨worded, on, tokens, limited, target, member, enough, gate⟩ := busy
      have clean : ∀ m ∈ part.entries, injectable m = true := by
        rw [← pure]
        exact fun m held => List.of_mem_filter held
      obtain ⟨beyond, longer⟩ := exists_longer part.entries
      have room := Nat.pos_of_ne_zero limited
      have same := alike (noiseFirst target) _
        (@crowded_injectables part clean beyond (opts.limit * 4) longer)
      rw [crowded_silent reranker opts clean member longer room] at same
      exact target_recalled reranker clean member (by simp only [not_or]; exact ⟨worded, on, tokens⟩) room enough
        gate same.symm
    · rintro idle rel s rfl
      rw [idle_silent reranker rel idle, idle_silent reranker rel (by rw [pure]; exact idle)]

end Noninterference

section

theorem thousandths_positive : (0 : Int) * 1000 / 10 ^ 0 < 1 * 1000 / 10 ^ 1 := by decide

/-- Floats as whole thousandths. -/
@[reducible] def thousandths : RecallFloats Int where
  ofNat n := 1000 * n
  ofDecimal d := d.coef * 1000 / 10 ^ d.scale
  add a b := a + b
  mul a b := a * b / 1000
  positive := thousandths_positive

attribute [local instance] thousandths Lowercase.ascii

/-- The shorter title is the more relevant one. -/
def shortFirst : Relevance where
  found _ m := PyText.contains m.title "cache"
  before _ a b := decide (a.title.length ≤ b.title.length)
  total _ a b := by simpa using Nat.le_total a.title.length b.title.length
  trans _ a b c ab bc := by
    simp only [decide_eq_true_eq] at ab bc ⊢
    exact Nat.le_trans ab bc

def cachePolicy : MemoryEntry :=
  { noise 0 with
    id := "decision-1", kind := .decision, title := "cache policy", summary := "write through",
    sourceRef := "docs/cache.md", promotionState := .injectable }

def spam (count : Nat) : List MemoryEntry := (List.range count).map (fun n => { noise n with title := "cache" })

/-- A decision, and an agent's notes about its own runs that mention nothing but the cache. -/
def spammed (count : Nat) (distinct : ((cachePolicy :: spam count).map MemoryEntry.id).Nodup)
    (agreeing : ∀ m ∈ cachePolicy :: spam count,
      hasUnpromotedPrefix m.sourceRef = true ↔ m.promotionState = .quarantined) : Memories :=
  ⟨cachePolicy :: spam count, distinct, agreeing⟩

/-- The settings that a hook calls with. -/
def hookOptions : RecallOptions Int := ⟨5, 300, true, 1500, 4000, none⟩

theorem recall_noninterference_spammed :
    compilePromptRecall none shortFirst hookOptions (spammed 2 (by decide +kernel) (by decide +kernel)) "cache bug" =
      compilePromptRecall none shortFirst hookOptions (spammed 2 (by decide +kernel) (by decide +kernel)).injectables "cache bug" := by
  refine (recall_noninterference none hookOptions "cache bug").2.1 shortFirst _ ⟨?_, ?_, nofun⟩
  · exact .inr (by decide +kernel)
  · intro _
    exact ⟨cachePolicy, by decide +kernel, by decide⟩

/-- Twenty such notes, and the decision is gone. -/
theorem policy_crowded_out :
    compilePromptRecall none shortFirst hookOptions (spammed 20 (by decide +kernel) (by decide +kernel)) "cache bug" = ("", 0) ∧
    compilePromptRecall none shortFirst hookOptions (spammed 20 (by decide +kernel) (by decide +kernel)).injectables "cache bug" =
      ("DECISION: cache policy — write through", 6) := by
  constructor <;> decide +kernel

end




end Onmc.Hooks
