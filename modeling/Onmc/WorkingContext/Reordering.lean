import Onmc.WorkingContext.Rescreening

/-! Memories that all enter the candidates may be screened in any order. -/
namespace Onmc.WorkingContext

variable [Sha256]

/-- Two screenings that found the same, in whatever order. -/
structure Like (w : World) (s t : Screening) : Prop where
  hashes : Agree w s.checks.hashes t.checks.hashes
  bindings : ∀ id, s.checks.bindings.lookup id = t.checks.bindings.lookup id
  exclusions : s.exclusions = t.exclusions
  once : (Dict.keys s.candidates).Nodup ∧ (Dict.keys t.candidates).Nodup
  candidates : ∀ id, s.candidates.lookup id = t.candidates.lookup id

variable {w : World} {s t u : Screening}

omit [Sha256] in
theorem Like.refl (faithful : Faithful w s.checks.hashes) (once : (Dict.keys s.candidates).Nodup) : Like w s s :=
  ⟨.refl faithful, fun _ => rfl, rfl, ⟨once, once⟩, fun _ => rfl⟩

omit [Sha256] in
theorem Agree.trans {hashes others third : List (String × String)} (h : Agree w hashes others) (h' : Agree w others third) :
    Agree w hashes third :=
  ⟨h.left, h'.right, fun path => (h.keys path).trans (h'.keys path)⟩

omit [Sha256] in
theorem Like.trans (h : Like w s t) (h' : Like w t u) : Like w s u where
  hashes := h.hashes.trans h'.hashes
  bindings := fun id => (h.bindings id).trans (h'.bindings id)
  exclusions := h.exclusions.trans h'.exclusions
  once := ⟨h.once.1, h'.once.2⟩
  candidates := fun id => (h.candidates id).trans (h'.candidates id)

/-- What a memory that enters the candidates adds to a screening: the digests read, the binding set, and the
item. -/
structure Addition where
  entries : List (String × String)
  set : Option AnchorBinding
  item : ContextItem

def Addition.to (a : Addition) (id : String) (s : Screening) : Screening :=
  ⟨⟨bind id a.set s.checks.bindings, store a.entries s.checks.hashes⟩, s.exclusions, Dict.setItem id a.item s.candidates⟩

variable [Lowercase] {session : WorkingSession} {queryTokens : List String} {memory : MemoryEntry} {a : Addition}

/-- The memory enters the candidates with this addition, given its binding and room for the digests. -/
def Adds (w : World) (session : WorkingSession) (queryTokens : List String) (memory : MemoryEntry)
    (held : Option AnchorBinding) (a : Addition) : Prop :=
  isQuarantined memory = false ∧ isRejected memory = false ∧ ∃ paths label,
    anchorPaths w memory.sourceRef = .ok paths ∧
    (paths = [] ∧ markedStale memory = false ∧ label = "unanchored" ∧ a.entries = [] ∧ a.set = none ∨
      paths ≠ [] ∧ paths.length ≤ maxFiles ∧ readAll w paths = .ok a.entries ∧
      judge w memory paths (store a.entries []) held = .ok (a.set, label, none)) ∧
    ¬ (overlapOf queryTokens memory = 0 ∧ session.activeFiles.any (fun path => path ∈ paths) = false) ∧
    a.item = contextItem memory label (overlapOf queryTokens memory) (session.activeFiles.any (fun path => path ∈ paths))

omit [Lowercase] in
theorem freshness_adds {checks checks' : Checks} {label : String} {paths : List String}
    (faithful : Faithful w checks.hashes) (anchors : anchorPaths w memory.sourceRef = .ok paths)
    (ok : freshness w checks memory = .ok (checks', label, none)) : ∃ entries set,
      checks' = ⟨bind memory.id set checks.bindings, store entries checks.hashes⟩ ∧
      (store entries checks.hashes).length ≤ maxSources ∧
      (paths = [] ∧ markedStale memory = false ∧ label = "unanchored" ∧ entries = [] ∧ set = none ∨
        paths ≠ [] ∧ paths.length ≤ maxFiles ∧ readAll w paths = .ok entries ∧
        judge w memory paths (store entries []) (checks.bindings.lookup memory.id) = .ok (set, label, none)) := by
  by_cases anchored : paths = []
  · subst anchored
    unfold freshness at ok
    simp only [anchors] at ok
    split at ok
    · cases ok
    · rename_i stale
      cases ok
      exact ⟨[], none, rfl, faithful.few, .inl ⟨rfl, by simpa using stale, rfl, rfl, rfl⟩⟩
  · cases hashed : hashFiles w checks.hashes paths with
    | mk hashes result =>
      cases result with
      | error e =>
        obtain ⟨path, rest, rfl⟩ := List.exists_cons_of_ne_nil anchored
        unfold freshness at ok
        simp only [anchors, hashed] at ok
        cases ok
      | ok files =>
        obtain ⟨few, entries, read, rfl, rfl, room⟩ := (hashFiles_ok faithful).mp hashed
        rw [freshness_judge checks anchors anchored hashed] at ok
        cases judged : judge w memory paths (store entries []) (checks.bindings.lookup memory.id) with
        | error e =>
          rw [judged] at ok
          cases ok
        | ok verdict =>
          rw [judged] at ok
          obtain ⟨set, label', rejected⟩ := verdict
          cases ok
          exact ⟨entries, set, rfl, room, .inr ⟨anchored, few, read, judged⟩⟩

theorem screenMemory_excludes {id : String} (ok : screenMemory w session queryTokens s memory = .ok t)
    (member : id ∈ Dict.keys s.exclusions) : id ∈ Dict.keys t.exclusions := by
  unfold screenMemory at ok
  split at ok
  · cases ok
    exact Dict.mem_keys_setItem.mpr (.inr member)
  · split at ok
    · cases ok
      exact Dict.mem_keys_setItem.mpr (.inr member)
    · obtain ⟨⟨checks, label, rejected⟩, _, ok⟩ := Except.bind_ok.mp ok
      cases rejected with
      | some reason =>
        cases ok
        exact Dict.mem_keys_setItem.mpr (.inr member)
      | none =>
        obtain ⟨paths, _, ok⟩ := Except.bind_ok.mp ok
        dsimp only at ok
        split at ok
        · cases ok
          exact Dict.mem_keys_setItem.mpr (.inr member)
        · cases ok
          exact member

theorem screenAll_excludes {memories : List MemoryEntry} {id : String}
    (ok : memories.foldlM (screenMemory w session queryTokens) s = .ok t) (member : id ∈ Dict.keys s.exclusions) :
    id ∈ Dict.keys t.exclusions := by
  induction memories generalizing s with
  | nil =>
    cases ok
    exact member
  | cons memory memories ih =>
    rw [List.foldlM_cons] at ok
    obtain ⟨next, first, rest⟩ := Except.bind_ok.mp ok
    exact ih rest (screenMemory_excludes first member)

theorem screenMemory_adds (faithful : Faithful w s.checks.hashes)
    (ok : screenMemory w session queryTokens s memory = .ok t) (kept : memory.id ∉ Dict.keys t.exclusions) :
    ∃ a, Adds w session queryTokens memory (s.checks.bindings.lookup memory.id) a ∧ t = a.to memory.id s ∧
      (store a.entries s.checks.hashes).length ≤ maxSources := by
  have excluded : ∀ reason (checks : Checks), t = ({ s with checks } : Screening).exclude memory.id reason → False := by
    rintro reason checks rfl
    exact kept (Dict.mem_keys_setItem.mpr (.inl rfl))
  unfold screenMemory at ok
  split at ok
  · exact (excluded "quarantined" s.checks (Except.ok.inj ok).symm).elim
  · rename_i trusted
    split at ok
    · exact (excluded "rejected" s.checks (Except.ok.inj ok).symm).elim
    · rename_i accepted
      obtain ⟨⟨checks, label, rejected⟩, fresh, ok⟩ := Except.bind_ok.mp ok
      cases rejected with
      | some reason => exact (excluded reason checks (Except.ok.inj ok).symm).elim
      | none =>
        obtain ⟨paths, anchors, ok⟩ := Except.bind_ok.mp ok
        dsimp only at ok
        split at ok
        · exact (excluded "irrelevant" checks (Except.ok.inj ok).symm).elim
        · rename_i relevant
          obtain ⟨entries, set, rfl, room, sources⟩ := freshness_adds faithful anchors fresh
          refine ⟨⟨entries, set, _⟩, ⟨by simpa using trusted, by simpa using accepted, paths, label, anchors, sources,
            relevant, rfl⟩, (Except.ok.inj ok).symm, room⟩

theorem Adds.screens (faithful : Faithful w s.checks.hashes)
    (h : Adds w session queryTokens memory (s.checks.bindings.lookup memory.id) a)
    (room : (store a.entries s.checks.hashes).length ≤ maxSources) :
    screenMemory w session queryTokens s memory = .ok (a.to memory.id s) := by
  obtain ⟨trusted, accepted, paths, label, anchors, sources, relevant, item⟩ := h
  have fresh : freshness w s.checks memory =
      .ok (⟨bind memory.id a.set s.checks.bindings, store a.entries s.checks.hashes⟩, label, none) := by
    rcases sources with ⟨rfl, stale, rfl, entries, set⟩ | ⟨anchored, few, read, judged⟩
    · unfold freshness
      simp only [anchors, stale, Bool.false_eq_true, if_false, entries, set]
      rfl
    · have hashed := (hashFiles_ok faithful).mpr ⟨few, a.entries, read, rfl, rfl, room⟩
      rw [freshness_judge s.checks anchors anchored hashed, judged]
      rfl
  unfold screenMemory
  simp only [trusted, accepted, Bool.false_eq_true, if_false, fresh, Except.ok_bind, anchors]
  rw [if_neg relevant, ← item]
  rfl

theorem Like.step {s' : Screening} (like : Like w s s') (ok : screenMemory w session queryTokens s memory = .ok t)
    (kept : memory.id ∉ Dict.keys t.exclusions) :
    ∃ t', screenMemory w session queryTokens s' memory = .ok t' ∧ Like w t t' ∧ t.exclusions = s.exclusions := by
  obtain ⟨a, adds, rfl, room⟩ := screenMemory_adds like.hashes.left ok kept
  have same : (store a.entries s'.checks.hashes).length ≤ (store a.entries s.checks.hashes).length :=
    length_store_mono a.entries like.hashes.right.once (fun key member => (like.hashes.keys key).mpr member)
  have adds' : Adds w session queryTokens memory (s'.checks.bindings.lookup memory.id) a := by
    rw [← like.bindings]
    exact adds
  have again := adds'.screens like.hashes.right (by omega)
  refine ⟨_, again, ⟨?_, ?_, like.exclusions, ?_, ?_⟩, rfl⟩
  · refine ⟨screenMemory_faithful like.hashes.left ok, screenMemory_faithful like.hashes.right again, ?_⟩
    intro path
    simp only [Addition.to, mem_keys_store, like.hashes.keys]
  · intro id
    simp only [Addition.to, lookup_bind, like.bindings]
  · exact ⟨Dict.nodup_keys_setItem like.once.1, Dict.nodup_keys_setItem like.once.2⟩
  · intro id
    simp only [Addition.to, Dict.lookup_setItem, like.candidates]

/-- Two memories that both enter the candidates enter them in the other order too. -/
theorem Like.swap {s' : Screening} (like : Like w s s') {other : MemoryEntry} (apart : memory.id ≠ other.id)
    (first : screenMemory w session queryTokens s other = .ok t) (firstKept : other.id ∉ Dict.keys t.exclusions)
    (second : screenMemory w session queryTokens t memory = .ok u) (kept : memory.id ∉ Dict.keys u.exclusions) :
    ∃ t' u', screenMemory w session queryTokens s' memory = .ok t' ∧
      screenMemory w session queryTokens t' other = .ok u' ∧ Like w u u' ∧ u.exclusions = s.exclusions := by
  obtain ⟨a, adds, rfl, _⟩ := screenMemory_adds like.hashes.left first firstKept
  have between := screenMemory_faithful like.hashes.left first
  obtain ⟨b, adds', rfl, room⟩ := screenMemory_adds between second kept
  have final := screenMemory_faithful between second
  have held : (a.to other.id s).checks.bindings.lookup memory.id = s'.checks.bindings.lookup memory.id := by
    rw [Addition.to, lookup_bind, if_neg apart, like.bindings]
  rw [held] at adds'
  have room' : (store b.entries s'.checks.hashes).length ≤ (b.to memory.id (a.to other.id s)).checks.hashes.length := by
    refine length_le_of_keys (nodup_store b.entries like.hashes.right.once) ?_
    intro key member
    simp only [Addition.to, mem_keys_store, like.hashes.keys] at member ⊢
    tauto
  have few := final.few
  have first' := adds'.screens like.hashes.right (by omega)
  have between' := screenMemory_faithful like.hashes.right first'
  have held' : (b.to memory.id s').checks.bindings.lookup other.id = s.checks.bindings.lookup other.id := by
    rw [Addition.to, lookup_bind, if_neg (Ne.symm apart), like.bindings]
  rw [← held'] at adds
  have room'' : (store a.entries (b.to memory.id s').checks.hashes).length ≤
      (b.to memory.id (a.to other.id s)).checks.hashes.length := by
    refine length_le_of_keys (nodup_store a.entries between'.once) ?_
    intro key member
    simp only [Addition.to, mem_keys_store, like.hashes.keys] at member ⊢
    tauto
  have second' := adds.screens between' (by omega)
  refine ⟨_, _, first', second', ⟨⟨final, screenMemory_faithful between' second', ?_⟩, ?_, like.exclusions, ?_, ?_⟩, rfl⟩
  · intro path
    simp only [Addition.to, mem_keys_store, like.hashes.keys]
    tauto
  · intro id
    simp only [Addition.to, lookup_bind, like.bindings]
    by_cases here : id = memory.id
    · subst here
      simp [apart]
    · by_cases there : id = other.id
      · subst there
        simp [here]
      · simp [here, there]
  · exact ⟨Dict.nodup_keys_setItem (Dict.nodup_keys_setItem like.once.1),
      Dict.nodup_keys_setItem (Dict.nodup_keys_setItem like.once.2)⟩
  · intro id
    simp only [Addition.to, Dict.lookup_setItem, like.candidates]
    by_cases here : id = memory.id
    · subst here
      simp [apart]
    · simp [here]

theorem screenAll_like {memories : List MemoryEntry} {s' : Screening} (like : Like w s s')
    (ok : memories.foldlM (screenMemory w session queryTokens) s = .ok t)
    (kept : ∀ memory ∈ memories, memory.id ∉ Dict.keys t.exclusions) :
    ∃ t', memories.foldlM (screenMemory w session queryTokens) s' = .ok t' ∧ Like w t t' ∧
      t.exclusions = s.exclusions := by
  induction memories generalizing s s' with
  | nil =>
    cases ok
    exact ⟨s', rfl, like, rfl⟩
  | cons memory memories ih =>
    rw [List.foldlM_cons] at ok
    obtain ⟨next, first, rest⟩ := Except.bind_ok.mp ok
    have here : memory.id ∉ Dict.keys next.exclusions :=
      fun member => kept memory List.mem_cons_self (screenAll_excludes rest member)
    obtain ⟨next', first', like', same⟩ := like.step first here
    obtain ⟨t', rest', all, same'⟩ := ih like' rest (fun other member => kept other (List.mem_cons_of_mem _ member))
    refine ⟨t', ?_, all, same'.trans same⟩
    rw [List.foldlM_cons, first', Except.ok_bind, rest']

/-- Memories that all enter the candidates may be screened in any order. -/
theorem screenAll_perm {memories others : List MemoryEntry} (perm : memories.Perm others) {s' : Screening}
    (distinct : (memories.map MemoryEntry.id).Nodup) (like : Like w s s')
    (ok : memories.foldlM (screenMemory w session queryTokens) s = .ok t)
    (kept : ∀ memory ∈ memories, memory.id ∉ Dict.keys t.exclusions) :
    ∃ t', others.foldlM (screenMemory w session queryTokens) s' = .ok t' ∧ Like w t t' ∧
      t.exclusions = s.exclusions := by
  induction perm generalizing s s' t with
  | nil =>
    cases ok
    exact ⟨s', rfl, like, rfl⟩
  | cons memory perm ih =>
    rw [List.foldlM_cons] at ok
    obtain ⟨next, first, rest⟩ := Except.bind_ok.mp ok
    rw [List.map_cons, List.nodup_cons] at distinct
    have here : memory.id ∉ Dict.keys next.exclusions :=
      fun member => kept memory List.mem_cons_self (screenAll_excludes rest member)
    obtain ⟨next', first', like', same⟩ := like.step first here
    obtain ⟨t', rest', all, same'⟩ := ih distinct.2 like' rest
      (fun other member => kept other (List.mem_cons_of_mem _ member))
    refine ⟨t', ?_, all, same'.trans same⟩
    rw [List.foldlM_cons, first', Except.ok_bind, rest']
  | swap memory other memories =>
    rw [List.foldlM_cons] at ok
    obtain ⟨next, first, rest⟩ := Except.bind_ok.mp ok
    rw [List.foldlM_cons] at rest
    obtain ⟨second, then_, rest⟩ := Except.bind_ok.mp rest
    have keptMemory : memory.id ∉ Dict.keys second.exclusions :=
      fun member => kept memory (by simp) (screenAll_excludes rest member)
    have keptOther : other.id ∉ Dict.keys next.exclusions :=
      fun member => kept other (by simp) (screenAll_excludes rest (screenMemory_excludes then_ member))
    have apart : memory.id ≠ other.id := by
      rw [List.map_cons, List.nodup_cons] at distinct
      intro same
      exact distinct.1 (same ▸ List.mem_cons_self)
    obtain ⟨next', second', first', then', like', same⟩ := like.swap apart first keptOther then_ keptMemory
    obtain ⟨t', rest', all, same'⟩ := screenAll_like like' rest
      (fun m member => kept m (List.mem_cons_of_mem _ (List.mem_cons_of_mem _ member)))
    refine ⟨t', ?_, all, same'.trans same⟩
    rw [List.foldlM_cons, first', Except.ok_bind, List.foldlM_cons, then', Except.ok_bind, rest']
  | @trans _ between _ perm perm' ih ih' =>
    obtain ⟨middle, ok', like', same⟩ := ih distinct like ok kept
    have distinct' := (perm.map MemoryEntry.id).nodup_iff.mp distinct
    have kept' : ∀ memory ∈ between, memory.id ∉ Dict.keys middle.exclusions := by
      intro memory member
      rw [← like'.exclusions]
      exact kept memory (perm.mem_iff.mpr member)
    obtain ⟨t', ok'', like'', _⟩ := ih' distinct' (.refl like.hashes.right like.once.2) ok' kept'
    exact ⟨t', ok'', like'.trans like'', same⟩

end Onmc.WorkingContext
