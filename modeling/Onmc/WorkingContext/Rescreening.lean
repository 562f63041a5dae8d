import Onmc.WorkingContext.Screened
import Onmc.WorkingContext.Verdicts

/-! Screening the same memories again, with the bindings that the first screening left, finds the same. -/
namespace Onmc.WorkingContext

variable [Sha256]

variable {w : World} {memory : MemoryEntry}

omit [Sha256] in
theorem nodup_store (entries : List (String × String)) {items : List (String × String)} (once : (Dict.keys items).Nodup) :
    (Dict.keys (store entries items)).Nodup := by
  induction entries generalizing items with
  | nil => exact once
  | cons entry entries ih => exact ih (Dict.nodup_keys_setItem once)

omit [Sha256] in
theorem length_le_of_keys {items others : List (String × String)} (once : (Dict.keys items).Nodup)
    (known : Dict.keys items ⊆ Dict.keys others) : items.length ≤ others.length := by
  have bound := length_le_of_nodup once known
  simpa only [Dict.keys, List.length_map] using bound

omit [Sha256] in
theorem length_store_mono (entries : List (String × String)) {items others : List (String × String)}
    (once : (Dict.keys items).Nodup) (known : Dict.keys items ⊆ Dict.keys others) :
    (store entries items).length ≤ (store entries others).length := by
  refine length_le_of_keys (nodup_store entries once) ?_
  intro key member
  rw [mem_keys_store] at member ⊢
  exact member.imp id (fun held => known held)

omit [Sha256] in
/-- What can be hashed with a cache can be hashed without. -/
theorem hashFiles_nil {hashes hashes' files : List (String × String)} {paths : List String}
    (faithful : Faithful w hashes) (ok : hashFiles w hashes paths = (hashes', .ok files)) :
    ∃ first, hashFiles w [] paths = (first, .ok files) := by
  obtain ⟨few, entries, read, rfl, rfl, room⟩ := (hashFiles_ok faithful).mp ok
  have less : (store entries []).length ≤ (store entries hashes).length :=
    length_store_mono entries List.nodup_nil (List.nil_subset _)
  exact ⟨_, (hashFiles_ok (.nil w)).mpr ⟨few, entries, read, rfl, rfl, by omega⟩⟩

/-- Either nothing of the memory's sources is hashed, or they are judged. -/
theorem hashed_or (w : World) (hashes : List (String × String)) (memory : MemoryEntry) :
    (∃ paths files after, anchorPaths w memory.sourceRef = .ok paths ∧ paths ≠ [] ∧
      hashFiles w hashes paths = (after, .ok files)) ∨
    ∃ after label rejected, ∀ bindings, freshness w ⟨bindings, hashes⟩ memory = .ok (⟨bindings, after⟩, label, rejected) := by
  by_cases hashed : ∃ paths files after, anchorPaths w memory.sourceRef = .ok paths ∧ paths ≠ [] ∧
      hashFiles w hashes paths = (after, .ok files)
  · exact .inl hashed
  · right
    refine freshness_unhashed ⟨[], hashes⟩ ?_
    intro paths files after anchors anchored ok
    exact hashed ⟨paths, files, after, anchors, anchored, ok⟩

/-- The verdict on a memory depends on its own binding. -/
theorem freshness_lookup {bindings others : List (String × AnchorBinding)} (hashes : List (String × String))
    (same : bindings.lookup memory.id = others.lookup memory.id) :
    (freshness w ⟨bindings, hashes⟩ memory).map Prod.snd = (freshness w ⟨others, hashes⟩ memory).map Prod.snd := by
  rcases hashed_or w hashes memory with ⟨paths, files, after, anchors, anchored, ok⟩ | ⟨after, label, rejected, all⟩
  · rw [freshness_judge ⟨bindings, hashes⟩ anchors anchored ok,
      freshness_judge ⟨others, hashes⟩ anchors anchored ok]
    dsimp only
    rw [same]
    cases judge w memory paths files (others.lookup memory.id) with
    | error e => rfl
    | ok verdict => rfl
  · rw [all, all]
    rfl

/-- What a memory's binding may have become since it was judged: what the judgement left, or nothing, where
the memory is judged the same without. -/
def Recalled (w : World) (memory : MemoryEntry) (bindings : List (String × AnchorBinding))
    (left held : Option AnchorBinding) : Prop :=
  held = left ∨ held = none ∧ (isQuarantined memory = false → isRejected memory = false →
    (freshness w ⟨bindings, []⟩ memory).map Prod.snd = (freshness w ⟨[], []⟩ memory).map Prod.snd)

theorem freshness_keeps {checks checks' : Checks} {verdict : String × Option String}
    (ok : freshness w checks memory = .ok (checks', verdict)) {id : String} (other : id ≠ memory.id) :
    checks'.bindings.lookup id = checks.bindings.lookup id := by
  rcases hashed_or w checks.hashes memory with ⟨paths, files, after, anchors, anchored, hashed⟩ | ⟨after, label, rejected, all⟩
  · rw [freshness_judge checks anchors anchored hashed] at ok
    cases judged : judge w memory paths files (checks.bindings.lookup memory.id) with
    | error e =>
      rw [judged] at ok
      cases ok
    | ok found =>
      rw [judged] at ok
      cases ok
      rw [lookup_bind, if_neg other]
  · have found := all checks.bindings
    rw [ok] at found
    cases found
    rfl

theorem freshness_faithful {checks checks' : Checks} {verdict : String × Option String}
    (faithful : Faithful w checks.hashes) (ok : freshness w checks memory = .ok (checks', verdict)) :
    Faithful w checks'.hashes := by
  have found : ∃ paths, checks'.hashes = checks.hashes ∨ checks'.hashes = (hashFiles w checks.hashes paths).1 := by
    unfold freshness at ok
    split at ok
    · cases ok
      exact ⟨[], .inl rfl⟩
    · split at ok
      · cases ok
        exact ⟨[], .inl rfl⟩
      · cases ok
        exact ⟨[], .inl rfl⟩
    · rename_i paths _ _
      refine ⟨paths, .inr ?_⟩
      split at ok
      · rename_i hashes e hashed
        cases ok
        rw [hashed]
      · rename_i hashes files hashed
        rw [hashed]
        dsimp only at ok
        split at ok
        · cases ok
        · split at ok
          · cases ok
            rfl
          · split at ok
            · split at ok <;> (cases ok; rfl)
            · split at ok
              · cases ok
                rfl
              · split at ok <;> (cases ok; rfl)
  obtain ⟨paths, same | same⟩ := found
  · rw [same]
    exact faithful
  · rw [same]
    exact hashFiles_faithful faithful paths

theorem freshness_again {bindings others : List (String × AnchorBinding)} {hashes : List (String × String)}
    {checks : Checks} {verdict : String × Option String} (faithful : Faithful w hashes)
    (trusted : isQuarantined memory = false) (accepted : isRejected memory = false)
    (ok : freshness w ⟨bindings, hashes⟩ memory = .ok (checks, verdict))
    (recalled : Recalled w memory bindings (checks.bindings.lookup memory.id) (others.lookup memory.id)) :
    ∃ again, freshness w ⟨others, hashes⟩ memory = .ok (again, verdict) ∧ again.hashes = checks.hashes := by
  rcases hashed_or w hashes memory with ⟨paths, files, after, anchors, anchored, hashed⟩ | ⟨after, label, rejected, all⟩
  · rw [freshness_judge ⟨bindings, hashes⟩ anchors anchored hashed] at ok
    cases judged : judge w memory paths files (bindings.lookup memory.id) with
    | error e =>
      simp only [judged] at ok
      cases ok
    | ok found =>
      obtain ⟨set, label, rejected⟩ := found
      simp only [judged] at ok
      cases ok
      obtain ⟨few, entries, read, _, files_eq, _⟩ := (hashFiles_ok faithful).mp hashed
      have once : (Dict.keys files).Nodup := files_eq ▸ nodup_store entries List.nodup_nil
      have again : ∃ set', judge w memory paths files (others.lookup memory.id) = .ok (set', label, rejected) := by
        rcases recalled with same | ⟨gone, unmoved⟩
        · rw [same, lookup_bind, if_pos rfl]
          obtain ⟨set', again, _⟩ := judge_again once judged
          exact ⟨set', again⟩
        · obtain ⟨first, empty⟩ := hashFiles_nil faithful hashed
          have unmoved := unmoved trusted accepted
          rw [freshness_judge ⟨bindings, []⟩ anchors anchored empty,
            freshness_judge ⟨[], []⟩ anchors anchored empty] at unmoved
          simp only [judged, List.lookup_nil] at unmoved
          rw [gone]
          cases rejudged : judge w memory paths files none with
          | error e =>
            rw [rejudged] at unmoved
            cases unmoved
          | ok found =>
            rw [rejudged] at unmoved
            obtain ⟨set', verdict⟩ := found
            obtain rfl : (label, rejected) = verdict := Except.ok.inj unmoved
            exact ⟨set', rfl⟩
      obtain ⟨set', again⟩ := again
      rw [freshness_judge ⟨others, hashes⟩ anchors anchored hashed]
      simp only [again]
      exact ⟨_, rfl, rfl⟩
  · rw [all] at ok ⊢
    cases ok
    exact ⟨_, rfl, rfl⟩

variable [Lowercase] {session session' : WorkingSession} {queryTokens : List String}

theorem screenMemory_keeps {s t : Screening} (ok : screenMemory w session queryTokens s memory = .ok t) {id : String}
    (other : id ≠ memory.id) : t.checks.bindings.lookup id = s.checks.bindings.lookup id := by
  unfold screenMemory at ok
  split at ok
  · cases ok
    rfl
  · split at ok
    · cases ok
      rfl
    · obtain ⟨⟨checks, label, rejected⟩, fresh, ok⟩ := Except.bind_ok.mp ok
      have kept := freshness_keeps fresh other
      cases rejected with
      | some reason =>
        cases ok
        exact kept
      | none =>
        obtain ⟨paths, _, ok⟩ := Except.bind_ok.mp ok
        dsimp only at ok
        split at ok
        · cases ok
          exact kept
        · cases ok
          exact kept

theorem screenAll_keeps {memories : List MemoryEntry} {s t : Screening}
    (ok : memories.foldlM (screenMemory w session queryTokens) s = .ok t) {id : String}
    (other : id ∉ memories.map MemoryEntry.id) : t.checks.bindings.lookup id = s.checks.bindings.lookup id := by
  induction memories generalizing s with
  | nil =>
    cases ok
    rfl
  | cons memory memories ih =>
    rw [List.foldlM_cons] at ok
    obtain ⟨next, first, rest⟩ := Except.bind_ok.mp ok
    rw [List.map_cons, List.mem_cons, not_or] at other
    rw [ih rest other.2, screenMemory_keeps first other.1]

theorem screenMemory_faithful {s t : Screening} (faithful : Faithful w s.checks.hashes)
    (ok : screenMemory w session queryTokens s memory = .ok t) : Faithful w t.checks.hashes := by
  unfold screenMemory at ok
  split at ok
  · cases ok
    exact faithful
  · split at ok
    · cases ok
      exact faithful
    · obtain ⟨⟨checks, label, rejected⟩, fresh, ok⟩ := Except.bind_ok.mp ok
      have kept : Faithful w checks.hashes := freshness_faithful faithful fresh
      cases rejected with
      | some reason =>
        cases ok
        exact kept
      | none =>
        obtain ⟨paths, _, ok⟩ := Except.bind_ok.mp ok
        dsimp only at ok
        split at ok
        · cases ok
          exact kept
        · cases ok
          exact kept

theorem screenAll_faithful {memories : List MemoryEntry} {s t : Screening} (faithful : Faithful w s.checks.hashes)
    (ok : memories.foldlM (screenMemory w session queryTokens) s = .ok t) : Faithful w t.checks.hashes := by
  induction memories generalizing s with
  | nil =>
    cases ok
    exact faithful
  | cons memory memories ih =>
    rw [List.foldlM_cons] at ok
    obtain ⟨next, first, rest⟩ := Except.bind_ok.mp ok
    exact ih (screenMemory_faithful faithful first) rest

/-- The same screening but for the bindings. -/
def Rebound (s t : Screening) : Prop :=
  s.checks.hashes = t.checks.hashes ∧ s.exclusions = t.exclusions ∧ s.candidates = t.candidates

theorem screenMemory_again {s s' t : Screening} (files : session'.activeFiles = session.activeFiles)
    (faithful : Faithful w s.checks.hashes) (rebound : Rebound s s')
    (ok : screenMemory w session queryTokens s memory = .ok t)
    (recalled : Recalled w memory s.checks.bindings (t.checks.bindings.lookup memory.id)
      (s'.checks.bindings.lookup memory.id)) :
    ∃ t', screenMemory w session' queryTokens s' memory = .ok t' ∧ Rebound t t' := by
  obtain ⟨⟨bindings, hashes⟩, exclusions, candidates⟩ := s
  obtain ⟨⟨others, hashes'⟩, exclusions', candidates'⟩ := s'
  obtain ⟨rfl, rfl, rfl⟩ : hashes = hashes' ∧ exclusions = exclusions' ∧ candidates = candidates' := rebound
  unfold screenMemory at ok ⊢
  split at ok
  · rename_i quarantined
    cases ok
    rw [if_pos quarantined]
    exact ⟨_, rfl, rfl, rfl, rfl⟩
  · rename_i trusted
    rw [if_neg trusted]
    split at ok
    · rename_i rejected
      cases ok
      rw [if_pos rejected]
      exact ⟨_, rfl, rfl, rfl, rfl⟩
    · rename_i accepted
      rw [if_neg accepted]
      obtain ⟨⟨checks, label, rejected⟩, fresh, ok⟩ := Except.bind_ok.mp ok
      have held : t.checks.bindings = checks.bindings := by
        cases rejected with
        | some reason =>
          cases ok
          rfl
        | none =>
          obtain ⟨paths, _, ok⟩ := Except.bind_ok.mp ok
          dsimp only at ok
          split at ok <;> (cases ok; rfl)
      rw [held] at recalled
      obtain ⟨again, fresh', same⟩ := freshness_again faithful (by simpa using trusted) (by simpa using accepted) fresh recalled
      simp only [fresh', Except.ok_bind]
      cases rejected with
      | some reason =>
        cases ok
        exact ⟨_, rfl, same.symm, rfl, rfl⟩
      | none =>
        obtain ⟨paths, anchors, ok⟩ := Except.bind_ok.mp ok
        dsimp only at ok ⊢
        simp only [anchors, Except.ok_bind, files]
        split at ok
        · rename_i irrelevant
          cases ok
          rw [if_pos irrelevant]
          exact ⟨_, rfl, same.symm, rfl, rfl⟩
        · rename_i relevant
          cases ok
          rw [if_neg relevant]
          exact ⟨_, rfl, same.symm, rfl, rfl⟩

omit [Lowercase] in
theorem Recalled.congr {bindings others : List (String × AnchorBinding)} {left held : Option AnchorBinding}
    (h : Recalled w memory bindings left held) (same : others.lookup memory.id = bindings.lookup memory.id) :
    Recalled w memory others left held := by
  refine h.imp id ?_
  rintro ⟨gone, unmoved⟩
  refine ⟨gone, fun trusted accepted => ?_⟩
  rw [freshness_lookup [] same]
  exact unmoved trusted accepted

theorem screenAll_again {memories : List MemoryEntry} {s s' t : Screening}
    (distinct : (memories.map MemoryEntry.id).Nodup) (files : session'.activeFiles = session.activeFiles)
    (faithful : Faithful w s.checks.hashes) (rebound : Rebound s s')
    (ok : memories.foldlM (screenMemory w session queryTokens) s = .ok t)
    (recalled : ∀ memory ∈ memories, Recalled w memory s.checks.bindings (t.checks.bindings.lookup memory.id)
      (s'.checks.bindings.lookup memory.id)) :
    ∃ t', memories.foldlM (screenMemory w session' queryTokens) s' = .ok t' ∧ Rebound t t' := by
  induction memories generalizing s s' with
  | nil =>
    cases ok
    exact ⟨s', rfl, rebound⟩
  | cons memory memories ih =>
    rw [List.foldlM_cons] at ok
    obtain ⟨next, first, rest⟩ := Except.bind_ok.mp ok
    rw [List.map_cons, List.nodup_cons] at distinct
    have here := recalled memory List.mem_cons_self
    rw [screenAll_keeps rest distinct.1] at here
    obtain ⟨next', first', rebound'⟩ := screenMemory_again files faithful rebound first here
    have later : ∀ other ∈ memories, Recalled w other next.checks.bindings (t.checks.bindings.lookup other.id)
        (next'.checks.bindings.lookup other.id) := by
      intro other member
      have apart : other.id ≠ memory.id := by
        intro same
        exact distinct.1 (same ▸ List.mem_map_of_mem member)
      rw [screenMemory_keeps first' apart]
      exact (recalled other (List.mem_cons_of_mem _ member)).congr (screenMemory_keeps first apart)
    obtain ⟨t', rest', all⟩ := ih distinct.2 (screenMemory_faithful faithful first) rebound' rest later
    refine ⟨t', ?_, all⟩
    rw [List.foldlM_cons, first', Except.ok_bind, rest']

end Onmc.WorkingContext
