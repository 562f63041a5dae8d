import Onmc.Dict
import Onmc.PyText
import Onmc.Learning.Lifecycle

/-! Measured forgetting: what the ledger judges harmful is rolled back, and the outcome reported. The
report takes a rollback for a removal, so it is right exactly where the sink removes what it is asked to. -/
namespace Onmc.Learning

open Onmc.ToolBroker (WordChars)

/-- The memory-write seam: what it holds, and its `remove`. -/
structure MemorySink (σ : Type) where
  held : σ → String → Bool
  remove : σ → String → Bool × σ

namespace MemorySink

variable {σ : Type} (sink : MemorySink σ)

/-- `remove` reverses one write and reports whether anything was removed. -/
structure Reports : Prop where
  removed : ∀ s id, (sink.remove s id).1 = true → sink.held s id = true ∧ sink.held (sink.remove s id).2 id = false
  kept : ∀ s id, (sink.remove s id).1 = false → sink.held (sink.remove s id).2 id = sink.held s id
  others : ∀ s id other, other ≠ id → sink.held (sink.remove s id).2 other = sink.held s other

/-- The sink, asked to remove one id after the other. -/
def asked (s : σ) (ids : List String) : σ := ids.foldl (fun s id => (sink.remove s id).2) s

/-- Each of the ids is removed when its turn comes. -/
def Obeys (s : σ) (ids : List String) : Prop :=
  ∀ before id after, ids = before ++ id :: after → (sink.remove (sink.asked s before) id).1 = true

variable {sink}

theorem held_asked (reports : sink.Reports) {id : String} {ids : List String} (other : id ∉ ids) (s : σ) :
    sink.held (sink.asked s ids) id = sink.held s id := by
  induction ids generalizing s with
  | nil => rfl
  | cons first ids ih =>
    obtain ⟨differs, later⟩ := not_or.mp (fun found => other (List.mem_cons.mpr found))
    exact (ih later _).trans (reports.others s first id differs)

/-- Among distinct ids, one that was there and is gone was removed in its turn. -/
theorem obeys_iff (reports : sink.Reports) {s : σ} {ids : List String} (distinct : ids.Nodup) :
    sink.Obeys s ids ↔ ∀ id ∈ ids, sink.held s id = true ∧ sink.held (sink.asked s ids) id = false := by
  have turn : ∀ before id after, ids = before ++ id :: after →
      sink.held (sink.asked s before) id = sink.held s id ∧
        sink.held (sink.asked s ids) id = sink.held (sink.remove (sink.asked s before) id).2 id := by
    intro before id after split
    subst split
    obtain ⟨-, tail, apart⟩ := List.nodup_append.mp distinct
    have early : id ∉ before := fun found => apart id found id List.mem_cons_self rfl
    refine ⟨held_asked reports early s, ?_⟩
    have order : sink.asked s (before ++ id :: after) =
        sink.asked (sink.remove (sink.asked s before) id).2 after := by
      simp only [asked, List.foldl_append, List.foldl_cons]
    rw [order]
    exact held_asked reports (List.nodup_cons.mp tail).1 _
  constructor
  · intro obeys id member
    obtain ⟨before, after, split⟩ := List.append_of_mem member
    obtain ⟨there, gone⟩ := reports.removed _ _ (obeys before id after split)
    obtain ⟨first, last⟩ := turn before id after split
    exact ⟨first.symm.trans there, last.trans gone⟩
  · intro removed before id after split
    obtain ⟨there, gone⟩ := removed id (by rw [split]; simp)
    obtain ⟨first, last⟩ := turn before id after split
    cases answer : (sink.remove (sink.asked s before) id).1 with
    | true => rfl
    | false =>
      have same := reports.kept _ _ answer
      rw [← last, first, there, gone] at same
      cases same

end MemorySink

/-! The turns of the loop over the ids, by what the registry knows. -/

/-- The ids that the loop rolls back: each at its first turn. -/
def rolledBack : List String → List String → List String
  | [], _ => []
  | id :: ids, known =>
    if id ∈ known then id :: rolledBack ids (known.filter (· ≠ id)) else rolledBack ids known

/-- The ids that the loop finds nothing under. -/
def unknown : List String → List String → List String
  | [], _ => []
  | id :: ids, known =>
    if id ∈ known then unknown ids (known.filter (· ≠ id)) else id :: unknown ids known

theorem mem_rolledBack {id : String} : ∀ {ids known : List String}, id ∈ rolledBack ids known ↔ id ∈ ids ∧ id ∈ known := by
  intro ids
  induction ids with
  | nil => simp [rolledBack]
  | cons first ids ih =>
    intro known
    by_cases registered : first ∈ known
    · by_cases same : id = first
      · simp [rolledBack, registered, same]
      · simp [rolledBack, registered, same, ih]
    · by_cases same : id = first
      · subst same
        simp [rolledBack, registered, ih]
      · simp [rolledBack, registered, same, ih]

theorem mem_unknown_of_absent {id : String} :
    ∀ {ids known : List String}, id ∈ ids → id ∉ known → id ∈ unknown ids known := by
  intro ids
  induction ids with
  | nil =>
    intro known member
    cases member
  | cons first ids ih =>
    intro known member absent
    by_cases registered : first ∈ known
    · have later : id ∈ ids := by
        rcases List.mem_cons.mp member with rfl | later
        · exact absurd registered absent
        · exact later
      simp only [unknown, if_pos registered]
      exact ih later (fun found => absent (List.mem_of_mem_filter found))
    · simp only [unknown, if_neg registered]
      rcases List.mem_cons.mp member with rfl | later
      · exact List.mem_cons_self
      · exact List.mem_cons_of_mem _ (ih later absent)

theorem mem_of_unknown {id : String} : ∀ {ids known : List String}, id ∈ unknown ids known → id ∈ ids := by
  intro ids
  induction ids with
  | nil =>
    intro known member
    cases member
  | cons first ids ih =>
    intro known member
    simp only [unknown] at member
    split at member
    · exact List.mem_cons_of_mem _ (ih member)
    · rcases List.mem_cons.mp member with rfl | later
      · exact List.mem_cons_self
      · exact List.mem_cons_of_mem _ (ih later)

/-- The ids that the loop has something to roll back for, each as often as it comes up. -/
def pending (ids known : List String) : List String := ids.filter (· ∈ known)

theorem pending_forgotten {id : String} {ids : List String} (once : id ∉ ids) (known : List String) :
    pending ids (known.filter (· ≠ id)) = pending ids known := by
  apply List.filter_congr
  intro other member
  have differs : other ≠ id := fun same => once (same ▸ member)
  simp [differs]

/-- The loop finds nothing under an id that it has rolled back exactly where an id comes up twice. -/
theorem nodup_pending_iff : ∀ {ids known : List String},
    (pending ids known).Nodup ↔ List.Disjoint (rolledBack ids known) (unknown ids known) := by
  intro ids
  induction ids with
  | nil => simp [pending, rolledBack, unknown]
  | cons id ids ih =>
    intro known
    by_cases registered : id ∈ known
    · have first : pending (id :: ids) known = id :: pending ids known := by
        simp [pending, registered]
      have gone : id ∉ known.filter (· ≠ id) := by simp
      simp only [first, rolledBack, unknown, if_pos registered, List.nodup_cons, List.disjoint_cons_left]
      by_cases once : id ∈ ids
      · have twice : id ∈ pending ids known := by simp [pending, once, registered]
        have found := mem_unknown_of_absent once gone
        constructor
        · intro distinct
          exact absurd twice distinct.1
        · intro apart
          exact absurd found apart.1
      · have never : id ∉ pending ids known := fun found => once (List.mem_of_mem_filter found)
        have missed : id ∉ unknown ids (known.filter (· ≠ id)) := fun found => once (mem_of_unknown found)
        rw [← ih, pending_forgotten once]
        exact and_congr (iff_of_true never missed) Iff.rfl
    · have first : pending (id :: ids) known = pending ids known := by
        simp [pending, registered]
      have never : id ∉ rolledBack ids known := fun found => registered (mem_rolledBack.mp found).2
      simp only [first, rolledBack, unknown, if_neg registered, List.disjoint_cons_right, ih]
      simp [never]

theorem rolledBack_pending : ∀ {ids known : List String}, (pending ids known).Nodup →
    rolledBack ids known = pending ids known := by
  intro ids
  induction ids with
  | nil => simp [rolledBack, pending]
  | cons id ids ih =>
    intro known distinct
    by_cases registered : id ∈ known
    · have first : pending (id :: ids) known = id :: pending ids known := by
        simp [pending, registered]
      rw [first] at distinct ⊢
      obtain ⟨new, rest⟩ := List.nodup_cons.mp distinct
      have once : id ∉ ids := fun later => new (List.mem_filter.mpr ⟨later, by simpa using registered⟩)
      simp only [rolledBack, if_pos registered]
      rw [ih (by rw [pending_forgotten once]; exact rest), pending_forgotten once]
    · have first : pending (id :: ids) known = pending ids known := by
        simp [pending, registered]
      rw [first] at distinct ⊢
      simp only [rolledBack, if_neg registered]
      exact ih distinct

inductive LiftVerdict where
  | earning | harmful | unproven
  deriving DecidableEq

section

variable [Score]

/-- The measured entry of one memory. -/
structure MemoryLift where
  memoryId : String
  meanLift : Score.Value
  ci95 : Score.Value × Score.Value
  nTasks : Nat
  verdict : LiftVerdict

def retirementCandidates (ledger : List MemoryLift) : List String :=
  (ledger.filter (fun entry => entry.verdict = .harmful)).map MemoryLift.memoryId

structure RollbackResult where
  rolledBack : Bool
  memoryId : String
  removedFromSink : Bool
  candidate : Option LearningCandidate
  reason : String

/-- The registry of what was written: promoted candidates, by the id the sink gave them. -/
structure GatedIngestor where
  ingested : List (String × LearningCandidate)
  distinct : (Dict.keys ingested).Nodup
  promoted : ∀ item ∈ ingested, item.2.state = .promoted

structure RetirementReport where
  retired : List String
  notIngested : List String
  failed : List String

namespace GatedIngestor

def ids (ingestor : GatedIngestor) : List String := Dict.keys ingestor.ingested

/-- `del self._ingested[memory_id]` -/
def forget (ingestor : GatedIngestor) (memoryId : String) : GatedIngestor where
  ingested := Dict.pop memoryId ingestor.ingested
  distinct := ingestor.distinct.sublist (List.filter_sublist.map Prod.fst)
  promoted := fun item member => ingestor.promoted item (List.mem_of_mem_filter member)

theorem ids_forget (ingestor : GatedIngestor) (memoryId : String) :
    (ingestor.forget memoryId).ids = ingestor.ids.filter (· ≠ memoryId) := by
  simp only [ids, forget, Dict.keys, Dict.pop, List.filter_map]
  rfl

end GatedIngestor

section

variable [WordChars] {σ : Type}

/-- `self._ingested[memory_id] = promoted`, at the end of an ingestion that wrote. -/
def GatedIngestor.record (ingestor : GatedIngestor) (memoryId : String) (promoted : LearningCandidate)
    (state : promoted.state = .promoted) : GatedIngestor where
  ingested := Dict.setItem memoryId promoted ingestor.ingested
  distinct := Dict.nodup_keys_setItem ingestor.distinct
  promoted := by
    intro item member
    rcases Dict.mem_setItem member with rfl | old
    · exact state
    · exact ingestor.promoted item old

/-- What an ingestion hands to the registry is promoted. -/
theorem ingested_promoted {gate : PromotionGate} {write : IngestedMemory → Except String String} {enabled : Bool}
    {atMs : Int} {c : LearningCandidate} {evidence : Option ShadowEvaluation} {reason : String} {result : IngestResult}
    (ends : (ingest gate write enabled atMs c evidence reason).outcome = .ok result) (ingested : result.ingested = true) :
    result.candidate.state = .promoted := by
  by_cases goes : enabled = true ∧ ∃ prepared, driveToShadowEvaluated gate c evidence atMs = .ok prepared ∧
      (gate.evaluate prepared).eligible = true
  · obtain ⟨rfl, prepared, driven, eligible⟩ := goes
    obtain ⟨-, -, -, -, e, evaluated, -⟩ := (evaluate_eligible _ _).mp eligible
    rw [ingest_written driven eligible evaluated] at ends
    dsimp only at ends
    split at ends
    · cases ends
    · obtain rfl := Except.ok.inj ends
      rfl
  · obtain ⟨left, decision, reasons, refused, -⟩ := @ingest_refused _ _ gate write enabled atMs c evidence reason
      (fun on prepared driven => Bool.eq_false_iff.mpr (fun eligible => goes ⟨on, prepared, driven, eligible⟩))
    rw [refused] at ends
    obtain rfl := Except.ok.inj ends
    cases ingested

/-- `GatedIngestor.rollback`; with it the registry and the sink it leaves. -/
def GatedIngestor.rollback (ingestor : GatedIngestor) (sink : MemorySink σ) (s : σ) (atMs : Int)
    (memoryId reason : String) : Except LearningError (RollbackResult × GatedIngestor × σ) :=
  match ingestor.ingested.lookup memoryId with
  | none =>
    .ok (⟨false, memoryId, false, none, "unknown memory id — nothing ingested under it"⟩, ingestor, s)
  | some candidate => do
    let reversed ← Learning.rollback candidate atMs reason
    let (removed, s) := sink.remove s memoryId
    .ok (⟨true, memoryId, removed, some reversed, ""⟩, ingestor.forget memoryId, s)

/-- A report under way, the registry and the sink. -/
structure Retirement (σ : Type) where
  report : RetirementReport
  ingestor : GatedIngestor
  sink : σ

/-- One round of the loop. -/
def retireStep (sink : MemorySink σ) (clock : String → Int) (reason : String) (r : Retirement σ) (memoryId : String) :
    Except LearningError (Retirement σ) := do
  let (result, ingestor, s) ← r.ingestor.rollback sink r.sink (clock memoryId) memoryId reason
  let report :=
    if result.rolledBack then { r.report with retired := r.report.retired ++ [memoryId] }
    else if PyText.contains result.reason "unknown memory id" then
      { r.report with notIngested := r.report.notIngested ++ [memoryId] }
    else { r.report with failed := r.report.failed ++ [memoryId] }
  .ok ⟨report, ingestor, s⟩

/-- `retire_harmful`; the clock is read at most once for an id, when it is rolled back. -/
def retireHarmful (sink : MemorySink σ) (clock : String → Int) (reason : String) (ledger : List MemoryLift)
    (ingestor : GatedIngestor) (s : σ) : Except LearningError (Retirement σ) :=
  (retirementCandidates ledger).foldlM (retireStep sink clock reason) ⟨⟨[], [], []⟩, ingestor, s⟩

/-! What one round does, and the whole loop. -/

theorem rollback_promoted {c : LearningCandidate} (state : c.state = .promoted) (atMs : Int) (reason : String) :
    rollback c atMs reason = .ok { c with state := .rolledBack, updatedAtMs := atMs } := by
  have legal : isLegalTransition c.state .rolledBack = true := by
    rw [state]
    rfl
  simp only [rollback, advance, legal, Bool.true_eq_false, if_false, reduceCtorEq, false_and, and_false]

/-- The round of an id that is in the registry: it is reported, whatever the sink answers. -/
theorem retireStep_known (sink : MemorySink σ) (clock : String → Int) (reason : String) (r : Retirement σ)
    {id : String} (known : id ∈ r.ingestor.ids) :
    retireStep sink clock reason r id = .ok ⟨{ r.report with retired := r.report.retired ++ [id] },
      r.ingestor.forget id, (sink.remove r.sink id).2⟩ := by
  obtain ⟨candidate, found⟩ := Option.isSome_iff_exists.mp (Dict.lookup_isSome_iff.mpr known)
  have promoted := r.ingestor.promoted _ (Dict.mem_of_lookup found)
  simp only [retireStep, GatedIngestor.rollback, found, rollback_promoted promoted, Except.ok_bind, if_true]

theorem retireStep_unknown (sink : MemorySink σ) (clock : String → Int) (reason : String) (r : Retirement σ)
    {id : String} (unknown : id ∉ r.ingestor.ids) :
    retireStep sink clock reason r id =
      .ok { r with report := { r.report with notIngested := r.report.notIngested ++ [id] } } := by
  have missing : r.ingestor.ingested.lookup id = none := by
    rw [← Option.not_isSome_iff_eq_none, Dict.lookup_isSome_iff]
    exact unknown
  have spoken : PyText.contains "unknown memory id — nothing ingested under it" "unknown memory id" = true := by
    decide +kernel
  simp only [retireStep, GatedIngestor.rollback, missing, Except.ok_bind, Bool.false_eq_true, if_false, spoken, if_true]

theorem retire_loop (sink : MemorySink σ) (clock : String → Int) (reason : String) (ids : List String)
    (r : Retirement σ) : ∃ ingestor,
      ids.foldlM (retireStep sink clock reason) r = .ok ⟨⟨r.report.retired ++ rolledBack ids r.ingestor.ids,
        r.report.notIngested ++ unknown ids r.ingestor.ids, r.report.failed⟩, ingestor,
        sink.asked r.sink (rolledBack ids r.ingestor.ids)⟩ := by
  induction ids generalizing r with
  | nil => exact ⟨r.ingestor, by simp [rolledBack, unknown, MemorySink.asked, pure, Except.pure]⟩
  | cons id ids ih =>
    rw [List.foldlM_cons]
    by_cases known : id ∈ r.ingestor.ids
    · obtain ⟨ingestor, rest⟩ := ih ⟨{ r.report with retired := r.report.retired ++ [id] },
        r.ingestor.forget id, (sink.remove r.sink id).2⟩
      refine ⟨ingestor, ?_⟩
      rw [retireStep_known sink clock reason r known, Except.ok_bind, rest]
      simp only [rolledBack, unknown, if_pos known, GatedIngestor.ids_forget, List.append_assoc, List.singleton_append]
      rfl
    · obtain ⟨ingestor, rest⟩ := ih { r with report := { r.report with notIngested := r.report.notIngested ++ [id] } }
      refine ⟨ingestor, ?_⟩
      rw [retireStep_unknown sink clock reason r known, Except.ok_bind, rest]
      simp only [rolledBack, unknown, if_neg known, List.append_assoc, List.singleton_append]

/-- The ids of the ledger that a report leaves in place: judged harmful by no entry, or found nowhere. -/
def keptIds (ledger : List MemoryLift) (report : RetirementReport) : List String :=
  (ledger.map MemoryLift.memoryId).filter (· ∉ retirementCandidates ledger) ++ report.notIngested

/-- An honest account of what was forgotten. -/
structure Forgets (sink : MemorySink σ) (ledger : List MemoryLift) (ingestor : GatedIngestor) (s : σ)
    (r : Retirement σ) : Prop where
  retired : ∀ id ∈ r.report.retired, sink.held s id = true ∧ sink.held r.sink id = false
  failed : ∀ id ∈ retirementCandidates ledger, id ∈ ingestor.ids → sink.held r.sink id = true →
    id ∈ r.report.failed ∧ id ∈ r.ingestor.ids
  retired_failed : List.Disjoint r.report.retired r.report.failed
  retired_kept : List.Disjoint r.report.retired (keptIds ledger r.report)
  failed_kept : List.Disjoint r.report.failed (keptIds ledger r.report)
  covers : ∀ id, id ∈ ledger.map MemoryLift.memoryId ↔
    id ∈ r.report.retired ∨ id ∈ r.report.failed ∨ id ∈ keptIds ledger r.report

omit [WordChars] in
theorem candidates_subset {ledger : List MemoryLift} {id : String} (h : id ∈ retirementCandidates ledger) :
    id ∈ ledger.map MemoryLift.memoryId := by
  obtain ⟨entry, harmful, named⟩ := List.mem_map.mp h
  exact List.mem_map.mpr ⟨entry, List.mem_of_mem_filter harmful, named⟩

/-- Every call returns, and its account is honest exactly where no ingested id is judged harmful twice and
the sink removes each when its turn comes. -/
theorem forgets_iff {sink : MemorySink σ} (reports : sink.Reports) (clock : String → Int) (reason : String)
    (ledger : List MemoryLift) (ingestor : GatedIngestor) (s : σ) :
    ∃ r, retireHarmful sink clock reason ledger ingestor s = .ok r ∧
      (Forgets sink ledger ingestor s r ↔
        (pending (retirementCandidates ledger) ingestor.ids).Nodup ∧
          sink.Obeys s (pending (retirementCandidates ledger) ingestor.ids)) := by
  obtain ⟨after, ends⟩ := retire_loop sink clock reason (retirementCandidates ledger) ⟨⟨[], [], []⟩, ingestor, s⟩
  refine ⟨_, ends, ?_⟩
  simp only [List.nil_append] at ends ⊢
  constructor
  · rintro ⟨retired, -, -, apart, -, -⟩
    have distinct : (pending (retirementCandidates ledger) ingestor.ids).Nodup := by
      rw [nodup_pending_iff]
      intro id back found
      exact apart back (List.mem_append_right _ found)
    refine ⟨distinct, (MemorySink.obeys_iff reports distinct).mpr ?_⟩
    rw [← rolledBack_pending distinct]
    exact retired
  · rintro ⟨distinct, obeys⟩
    have removed := (MemorySink.obeys_iff reports distinct).mp obeys
    rw [← rolledBack_pending distinct] at removed
    refine ⟨removed, ?_, List.disjoint_nil_right _, ?_, List.disjoint_nil_left _, ?_⟩
    · intro id harmful registered still
      have gone := (removed id (mem_rolledBack.mpr ⟨harmful, registered⟩)).2
      rw [gone] at still
      cases still
    · intro id back kept
      rcases List.mem_append.mp kept with spared | found
      · have harmless := (List.mem_filter.mp spared).2
        simp only [decide_not, Bool.not_eq_true', decide_eq_false_iff_not] at harmless
        exact harmless (mem_rolledBack.mp back).1
      · exact nodup_pending_iff.mp distinct back found
    · intro id
      simp only [keptIds, List.mem_append, List.mem_filter, decide_not, Bool.not_eq_true', decide_eq_false_iff_not,
        List.not_mem_nil, false_or, mem_rolledBack]
      constructor
      · intro measured
        by_cases harmful : id ∈ retirementCandidates ledger
        · by_cases registered : id ∈ ingestor.ids
          · exact .inl ⟨harmful, registered⟩
          · exact .inr (.inr (mem_unknown_of_absent harmful registered))
        · exact .inr (.inl ⟨measured, harmful⟩)
      · rintro (⟨harmful, -⟩ | ⟨measured, -⟩ | found)
        · exact candidates_subset harmful
        · exact measured
        · exact candidates_subset (mem_of_unknown found)

end

end

section

attribute [local instance] wholeScores WordChars.ascii

/-- A promoted lesson, in the registry under its id. -/
def lessonIngestor : GatedIngestor where
  ingested := [("lesson-1", lesson "run the tests with uv" .promoted)]
  distinct := by decide
  promoted := by
    intro item member
    rw [List.mem_singleton.mp member]
    rfl

def harmfulLesson : MemoryLift := ⟨"lesson-1", (-2 : Int), ((-3 : Int), (-1 : Int)), 8, .harmful⟩

/-- A store that removes what it holds, unless it is locked. -/
def listSink : MemorySink (Bool × List String) where
  held := fun s id => s.2.contains id
  remove := fun s id => if s.1 || !s.2.contains id then (false, s) else (true, s.1, s.2.filter (· ≠ id))

theorem listSink_reports : listSink.Reports where
  removed := by
    intro s id answer
    simp only [listSink] at answer ⊢
    split at answer
    · cases answer
    · rename_i free
      have present : s.2.contains id = true := by
        simpa using (not_or.mp (fun blocked => free (Bool.or_eq_true _ _ ▸ blocked))).2
      rw [if_neg free]
      exact ⟨present, by simp⟩
  kept := by
    intro s id answer
    simp only [listSink] at answer ⊢
    split at answer
    · rename_i stays
      rw [if_pos stays]
    · cases answer
  others := by
    intro s id other differs
    simp only [listSink]
    split
    · rfl
    · simp [differs]

theorem forgets_unlocked : ∃ r,
    retireHarmful listSink (fun _ => 9) "attribution: measured harmful lift" [harmfulLesson] lessonIngestor
      (false, ["lesson-1"]) = .ok r ∧
    Forgets listSink [harmfulLesson] lessonIngestor (false, ["lesson-1"]) r := by
  obtain ⟨r, ends, honest⟩ := forgets_iff listSink_reports (fun _ => 9) "attribution: measured harmful lift"
    [harmfulLesson] lessonIngestor (false, ["lesson-1"])
  refine ⟨r, ends, honest.mpr ⟨by decide, ?_⟩⟩
  have harmful : pending (retirementCandidates [harmfulLesson]) lessonIngestor.ids = ["lesson-1"] := by decide
  rw [harmful, MemorySink.obeys_iff listSink_reports (by decide)]
  decide

/-- A locked store refuses, and the memory that stays in it is reported as retired and cannot be asked for again. -/
theorem retired_locked : ∃ r,
    retireHarmful listSink (fun _ => 9) "attribution: measured harmful lift" [harmfulLesson] lessonIngestor
      (true, ["lesson-1"]) = .ok r ∧
    r.report.retired = ["lesson-1"] ∧ r.report.failed = [] ∧ listSink.held r.sink "lesson-1" = true ∧
    r.ingestor.ids = [] ∧ ¬ Forgets listSink [harmfulLesson] lessonIngestor (true, ["lesson-1"]) r := by
  refine ⟨_, rfl, rfl, rfl, rfl, rfl, fun honest => ?_⟩
  have gone := (honest.retired "lesson-1" (List.mem_singleton_self _)).2
  cases gone

end

end Onmc.Learning
