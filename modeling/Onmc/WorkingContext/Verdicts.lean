import Onmc.WorkingContext.Hashes

/-! How a memory's sources are judged once they are hashed: from the memory, its binding and its explicit
acknowledgement, whatever else the session and the packet hold. -/
namespace Onmc.WorkingContext

variable [Sha256]

/-- The part of `freshness` that follows hashing: the binding it sets, the label, and the rejection. -/
def judge (w : World) (memory : MemoryEntry) (paths : List String) (files : List (String × String))
    (bound : Option AnchorBinding) : Outcome (Option AnchorBinding × String × Option String) :=
  let current (binding : AnchorBinding) : Bool :=
    binding.memoryDigest = memoryDigest memory && Dict.same binding.files files
  match w.acknowledged memory.id with
  | none => .error ⟨.validationError, "validation error for AnchorBinding"⟩
  | some explicit =>
    match explicit.filter current with
    | some acknowledged => .ok (some acknowledged, "acknowledged", none)
    | none =>
      match bound.filter (fun binding => binding.memoryDigest = memoryDigest memory) with
      | some binding =>
        if Dict.same binding.files files then .ok (none, "unchanged", none)
        else .ok (none, "changed", some "source_changed")
      | none =>
        if markedStale memory then .ok (none, "unknown", some "marked_stale")
        else if initialSourceFresh w memory paths = false then .ok (none, "unknown", some "source_unverified")
        else .ok (some ⟨memoryDigest memory, files⟩, "unchanged", none)

omit [Sha256] in
/-- The bindings with the one that a judgement sets. -/
def bind (id : String) (set : Option AnchorBinding) (bindings : List (String × AnchorBinding)) :
    List (String × AnchorBinding) :=
  match set with
  | none => bindings
  | some binding => Dict.setItem id binding bindings

omit [Sha256] in
theorem lookup_bind (id : String) (set : Option AnchorBinding) (bindings : List (String × AnchorBinding))
    (other : String) : (bind id set bindings).lookup other =
      if other = id then set.or (bindings.lookup id) else bindings.lookup other := by
  cases set with
  | none =>
    simp only [bind, Option.none_or]
    split_ifs with here
    · rw [here]
    · rfl
  | some binding => simp only [bind, Dict.lookup_setItem, Option.some_or]

theorem freshness_judge (checks : Checks) {w : World} {memory : MemoryEntry} {paths : List String}
    {hashes files : List (String × String)} (anchors : anchorPaths w memory.sourceRef = .ok paths) (anchored : paths ≠ [])
    (hashed : hashFiles w checks.hashes paths = (hashes, .ok files)) :
    freshness w checks memory = (judge w memory paths files (checks.bindings.lookup memory.id)).map
      (fun verdict => (⟨bind memory.id verdict.1 checks.bindings, hashes⟩, verdict.2)) := by
  obtain ⟨path, rest, rfl⟩ := List.exists_cons_of_ne_nil anchored
  unfold freshness judge
  simp only [anchors, hashed]
  cases w.acknowledged memory.id with
  | none => rfl
  | some explicit =>
    dsimp only
    generalize explicit.filter _ = acknowledged
    generalize (checks.bindings.lookup memory.id).filter _ = bound
    cases acknowledged with
    | some acknowledged => rfl
    | none =>
      cases bound with
      | some binding =>
        dsimp only
        split <;> rfl
      | none =>
        dsimp only
        split
        · rfl
        · split <;> rfl

/-- The label and the rejection of a memory whose sources are not hashed, or cannot be. -/
theorem freshness_unhashed {w : World} {memory : MemoryEntry} (checks : Checks)
    (unhashed : ∀ paths files hashes, anchorPaths w memory.sourceRef = .ok paths → paths ≠ [] →
      hashFiles w checks.hashes paths ≠ (hashes, .ok files)) :
    ∃ hashes label rejected, ∀ bindings,
      freshness w { checks with bindings } memory = .ok (⟨bindings, hashes⟩, label, rejected) := by
  unfold freshness
  cases anchors : anchorPaths w memory.sourceRef with
  | error e => exact ⟨checks.hashes, _, _, fun bindings => rfl⟩
  | ok paths =>
    cases paths with
    | nil =>
      by_cases stale : markedStale memory
      · refine ⟨checks.hashes, "unknown", some "marked_stale", fun bindings => ?_⟩
        simp only [stale, if_true]
      · refine ⟨checks.hashes, "unanchored", none, fun bindings => ?_⟩
        simp only [stale, Bool.false_eq_true, if_false]
    | cons path rest =>
      cases hashed : hashFiles w checks.hashes (path :: rest) with
      | mk hashes result =>
        cases result with
        | error e =>
          refine ⟨hashes, "unknown", some ("source_unavailable: " ++ e.message), fun bindings => ?_⟩
          simp only [hashed]
        | ok files => exact absurd hashed (unhashed (path :: rest) files hashes anchors (by simp))

/-- Judged again with the binding it set, a memory gets the same verdict, and no other binding. -/
theorem judge_again {w : World} {memory : MemoryEntry} {paths : List String} {files : List (String × String)}
    {bound set : Option AnchorBinding} {verdict : String × Option String} (once : (Dict.keys files).Nodup)
    (judged : judge w memory paths files bound = .ok (set, verdict)) :
    ∃ set', judge w memory paths files (set.or bound) = .ok (set', verdict) ∧
      (set' = none ∨ set' = set.or bound) := by
  have same : Dict.same files files = true := by
    simp only [Dict.same, decide_true, Bool.true_and, List.all_eq_true, decide_eq_true_eq]
    intro item member
    exact Dict.lookup_of_mem once member
  unfold judge at judged ⊢
  cases explicit : w.acknowledged memory.id with
  | none =>
    rw [explicit] at judged
    cases judged
  | some explicit' =>
    rw [explicit] at judged
    dsimp only at judged ⊢
    split at judged
    · obtain ⟨rfl, rfl⟩ := Prod.mk.inj (Except.ok.inj judged)
      exact ⟨_, rfl, .inr rfl⟩
    · split at judged
      · rename_i binding held
        split at judged
        · obtain ⟨rfl, rfl⟩ := Prod.mk.inj (Except.ok.inj judged)
          rename_i agrees
          simp only [Option.none_or, held, agrees, if_true]
          exact ⟨_, rfl, .inl rfl⟩
        · obtain ⟨rfl, rfl⟩ := Prod.mk.inj (Except.ok.inj judged)
          rename_i agrees
          simp only [Option.none_or, held, agrees]
          exact ⟨_, rfl, .inl rfl⟩
      · rename_i held
        split at judged
        · obtain ⟨rfl, rfl⟩ := Prod.mk.inj (Except.ok.inj judged)
          rename_i stale
          simp only [Option.none_or, held, stale, if_true]
          exact ⟨_, rfl, .inl rfl⟩
        · split at judged
          · obtain ⟨rfl, rfl⟩ := Prod.mk.inj (Except.ok.inj judged)
            rename_i stale fresh
            simp only [Option.none_or, held, stale, fresh, if_true]
            exact ⟨_, rfl, .inl rfl⟩
          · obtain ⟨rfl, rfl⟩ := Prod.mk.inj (Except.ok.inj judged)
            simp only [Option.some_or, Option.filter_some, decide_true, if_true, same]
            exact ⟨_, rfl, .inl rfl⟩

end Onmc.WorkingContext
