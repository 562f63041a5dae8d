import Mathlib.Data.List.Nodup

/-! Approval of a mission's units: which of them an action clears to merge, and what the execution
merges. -/
namespace Onmc.Approve

inductive ApproveKind where
  | approveAll | approveUnit | abort | showDiff | unknown
  deriving DecidableEq

structure ApproveAction where
  kind : ApproveKind
  unitId : Option String

/-- One row of the trust card, as far as an approval reads it. -/
structure UnitLine where
  unitId : String
  status : String
  verified : Bool
  held : Bool
  receiptHash : Option String
  deriving DecidableEq

structure MissionCard where
  missionId : String
  units : List UnitLine

structure ApprovalPlan where
  kind : ApproveKind
  eligible : List String
  refused : List (String × String)
  note : String
  deriving DecidableEq

structure MergeOutcome where
  unitId : String
  ok : Bool
  detail : String
  prUrl : String

structure ExecutionResult where
  merged : List MergeOutcome
  skipped : List (String × String)
  dryRun : Bool

/-! The decision. -/

def isEligible (unit : UnitLine) : Bool := unit.verified && !unit.held

def refusalReason (unit : UnitLine) : String :=
  if unit.status = "aborted" then "aborted"
  else if unit.receiptHash = none then "unverified"
  else "held"

/-- `target or other` -/
def orElse (target other : String) : String := if target = "" then other else target

def planUnit (card : MissionCard) (target : String) : ApprovalPlan :=
  match card.units.find? (fun u => u.unitId = target) with
  | none =>
    ⟨.approveUnit, [], [(orElse target "?", "not-found")],
      orElse target "unit" ++ " is not in mission " ++ card.missionId⟩
  | some unit =>
    if isEligible unit then
      ⟨.approveUnit, [unit.unitId], [], unit.unitId ++ " is a verified success — cleared to merge"⟩
    else
      ⟨.approveUnit, [], [(unit.unitId, refusalReason unit)],
        unit.unitId ++ " refused (" ++ refusalReason unit ++ ") — not a verified success"⟩

def planAll (card : MissionCard) : ApprovalPlan :=
  let eligible := (card.units.filter isEligible).map UnitLine.unitId
  let refused := (card.units.filter (fun u => !isEligible u)).map (fun u => (u.unitId, refusalReason u))
  ⟨.approveAll, eligible, refused,
    toString eligible.length ++ " verified unit(s) cleared to merge, " ++ toString refused.length ++
      " refused in mission " ++ card.missionId⟩

def planApproval (card : MissionCard) (action : ApproveAction) : ApprovalPlan :=
  match action.kind with
  | .abort => ⟨.abort, [], [], "abort requested — no units will be merged"⟩
  | .showDiff =>
    ⟨.showDiff, [], [], "show-diff requested for " ++ orElse (action.unitId.getD "") "?" ++ " — no merge"⟩
  | .unknown => ⟨.unknown, [], [], "unrecognised action — no units will be merged"⟩
  | .approveUnit => planUnit card (action.unitId.getD "")
  | .approveAll => planAll card

/-! The execution. A merger acts on a state of its own, and may raise. -/

/-- The repository, the swarm and the unit, to an outcome. -/
abbrev Merger (ε σ : Type) := String → String → String → σ → Except ε MergeOutcome × σ

def dryMerger (unitId : String) : MergeOutcome := ⟨unitId, true, "dry-run: would merge (no action taken)", ""⟩

section

variable {ε σ : Type}

def mergeEach (merge : String → σ → Except ε MergeOutcome × σ) : List String → σ → Except ε (List MergeOutcome) × σ
  | [], s => (.ok [], s)
  | unitId :: unitIds, s =>
    match merge unitId s with
    | (.error e, s) => (.error e, s)
    | (.ok outcome, s) =>
      match mergeEach merge unitIds s with
      | (.error e, s) => (.error e, s)
      | (.ok outcomes, s) => (.ok (outcome :: outcomes), s)

def executePlan (repoRoot swarmId : String) (plan : ApprovalPlan) (merger : Option (Merger ε σ)) (dryRun : Bool)
    (s : σ) : Except ε ExecutionResult × σ :=
  let merge := fun unitId s =>
    match merger with
    | none => (.ok (dryMerger unitId), s)
    | some merger => if dryRun then (.ok (dryMerger unitId), s) else merger repoRoot swarmId unitId s
  let (merged, s) := mergeEach merge plan.eligible s
  (merged.map (fun merged => ⟨merged, plan.refused, dryRun⟩), s)

/-! The calls of a merger. -/

/-- A merger that keeps a list of the units it is called for. -/
def recording (merger : Merger ε σ) : Merger ε (σ × List String) :=
  fun repoRoot swarmId unitId (s, calls) =>
    let (outcome, s) := merger repoRoot swarmId unitId s
    (outcome, s, calls ++ [unitId])

/-- The units that a merger is called for when a plan is executed. -/
def calls (merger : Merger ε σ) (repoRoot swarmId : String) (plan : ApprovalPlan) (dryRun : Bool) (s : σ) : List String :=
  (executePlan repoRoot swarmId plan (some (recording merger)) dryRun (s, [])).2.2

theorem mergeEach_silent {merge : String → σ → Except ε MergeOutcome × σ}
    (silent : ∀ unitId s, (merge unitId s).2 = s) (unitIds : List String) (s : σ) : (mergeEach merge unitIds s).2 = s := by
  induction unitIds generalizing s with
  | nil => rfl
  | cons unitId unitIds ih =>
    have kept := silent unitId s
    simp only [mergeEach]
    split
    · rename_i e s' raised
      rw [raised] at kept
      exact kept
    · rename_i outcome s' done
      rw [done] at kept
      obtain rfl : s' = s := kept
      have rest := ih s'
      split
      · rename_i e s'' raised
        rw [raised] at rest
        exact rest
      · rename_i outcomes s'' more
        rw [more] at rest
        exact rest

/-- A dry run never calls the merger. -/
theorem calls_dry (merger : Merger ε σ) (repoRoot swarmId : String) (plan : ApprovalPlan) (s : σ) :
    calls merger repoRoot swarmId plan true s = [] := by
  have kept := @mergeEach_silent ε (σ × List String) (fun unitId s => (.ok (dryMerger unitId), s)) (fun _ _ => rfl)
    plan.eligible (s, [])
  exact congrArg Prod.snd kept

theorem mergeEach_recording (merger : Merger ε σ) (repoRoot swarmId : String) (unitIds before : List String) (s : σ) :
    ∃ done, done <+: unitIds ∧
      (mergeEach (recording merger repoRoot swarmId) unitIds (s, before)).2.2 = before ++ done := by
  induction unitIds generalizing before s with
  | nil => exact ⟨[], List.prefix_rfl, (List.append_nil _).symm⟩
  | cons unitId unitIds ih =>
    cases called : merger repoRoot swarmId unitId s with
    | mk outcome s' =>
      have recorded : recording merger repoRoot swarmId unitId (s, before) = (outcome, s', before ++ [unitId]) := by
        simp only [recording, called]
      cases outcome with
      | error e =>
        refine ⟨[unitId], ?_, ?_⟩
        · exact List.prefix_append [unitId] unitIds
        · simp only [mergeEach, recorded]
      | ok outcome =>
        obtain ⟨done, start, rest⟩ := ih (before ++ [unitId]) s'
        refine ⟨unitId :: done, (List.prefix_cons_inj unitId).mpr start, ?_⟩
        have listed : (before ++ [unitId]) ++ done = before ++ unitId :: done := by simp
        rw [← listed, ← rest]
        simp only [mergeEach, recorded]
        split
        · rename_i e s'' raised
          rw [raised]
        · rename_i outcomes s'' more
          rw [more]

/-- The merger is called for eligible units only, each in its turn. -/
theorem calls_begin (merger : Merger ε σ) (repoRoot swarmId : String) (plan : ApprovalPlan) (dryRun : Bool) (s : σ) :
    calls merger repoRoot swarmId plan dryRun s <+: plan.eligible := by
  cases dryRun with
  | true =>
    rw [calls_dry]
    exact List.nil_prefix
  | false =>
    obtain ⟨done, start, same⟩ := mergeEach_recording merger repoRoot swarmId plan.eligible [] s
    have called : calls merger repoRoot swarmId plan false s = done := same
    rw [called]
    exact start

theorem mergeEach_calm {merger : Merger ε σ} {repoRoot swarmId : String}
    (calm : ∀ unitId s, ∃ outcome s', merger repoRoot swarmId unitId s = (.ok outcome, s'))
    (unitIds before : List String) (s : σ) : ∃ outcomes s',
      mergeEach (recording merger repoRoot swarmId) unitIds (s, before) = (.ok outcomes, s', before ++ unitIds) := by
  induction unitIds generalizing before s with
  | nil => exact ⟨[], s, by simp [mergeEach]⟩
  | cons unitId unitIds ih =>
    obtain ⟨outcome, s', called⟩ := calm unitId s
    obtain ⟨outcomes, s'', rest⟩ := ih (before ++ [unitId]) s'
    refine ⟨outcome :: outcomes, s'', ?_⟩
    simp [mergeEach, recording, called, rest]

/-- A merger that does not raise is called for every eligible unit. -/
theorem calls_calm {merger : Merger ε σ} {repoRoot swarmId : String}
    (calm : ∀ unitId s, ∃ outcome s', merger repoRoot swarmId unitId s = (.ok outcome, s')) (plan : ApprovalPlan)
    (s : σ) : calls merger repoRoot swarmId plan false s = plan.eligible := by
  obtain ⟨outcomes, s', all⟩ := mergeEach_calm calm plan.eligible [] s
  have called : calls merger repoRoot swarmId plan false s =
      (mergeEach (recording merger repoRoot swarmId) plan.eligible (s, [])).2.2 := rfl
  rw [called, all, List.nil_append]

end

/-! What an approval may merge. -/

/-- A line that backs a merge. -/
structure Proven (line : UnitLine) : Prop where
  verified : line.verified
  shipped : ¬ line.held
  finished : line.status ≠ "aborted"
  receipt : line.receiptHash ≠ none

/-- The units that an action is about. -/
def addressed (card : MissionCard) (action : ApproveAction) : List String :=
  match action.kind with
  | .approveAll => card.units.map UnitLine.unitId
  | .approveUnit =>
    match action.unitId with
    | none => []
    | some target => if target = "" then [] else [target]
  | _ => []

/-- What holds of the approval of a card, whatever the merger does. -/
structure ApprovalLaws (card : MissionCard) (action : ApproveAction) : Prop where
  proven : ∀ (ε σ : Type) (merger : Merger ε σ) repoRoot swarmId dryRun s,
    ∀ unitId ∈ calls merger repoRoot swarmId (planApproval card action) dryRun s,
      ∀ line ∈ card.units, line.unitId = unitId → Proven line
  once : ∀ (ε σ : Type) (merger : Merger ε σ) repoRoot swarmId dryRun s,
    (calls merger repoRoot swarmId (planApproval card action) dryRun s).Nodup
  dry : ∀ (ε σ : Type) (merger : Merger ε σ) repoRoot swarmId s,
    calls merger repoRoot swarmId (planApproval card action) true s = []
  approvals : action.kind ≠ .approveAll → action.kind ≠ .approveUnit →
    ∀ (ε σ : Type) (merger : Merger ε σ) repoRoot swarmId dryRun s,
      calls merger repoRoot swarmId (planApproval card action) dryRun s = []
  disjoint : ∀ unitId ∈ (planApproval card action).eligible,
    unitId ∉ (planApproval card action).refused.map Prod.fst
  cover : ∀ unitId ∈ addressed card action, unitId ∈ (planApproval card action).eligible ∨
    unitId ∈ (planApproval card action).refused.map Prod.fst

/-- The lines that an action looks at. -/
def considered (card : MissionCard) (action : ApproveAction) : List UnitLine :=
  match action.kind with
  | .approveAll => card.units
  | .approveUnit => (card.units.find? (fun u => u.unitId = action.unitId.getD "")).toList
  | _ => []

/-- Verified lines that are looked at speak for every line of their unit, and for one unit each. -/
structure Trustworthy (card : MissionCard) (action : ApproveAction) : Prop where
  whole : ∀ line ∈ considered card action, line.verified → ¬ line.held →
    ∀ other ∈ card.units, other.unitId = line.unitId → Proven other
  single : (((considered card action).filter isEligible).map UnitLine.unitId).Nodup

theorem isEligible_iff {line : UnitLine} : isEligible line ↔ line.verified ∧ ¬ line.held := by
  simp [isEligible]

/-- The eligible units are those of the verified lines that are looked at. -/
theorem eligible_eq (card : MissionCard) (action : ApproveAction) :
    (planApproval card action).eligible = ((considered card action).filter isEligible).map UnitLine.unitId := by
  obtain ⟨kind, unitId⟩ := action
  cases kind with
  | approveAll => rfl
  | approveUnit =>
    simp only [planApproval, planUnit, considered]
    cases found : card.units.find? (fun u => u.unitId = unitId.getD "") with
    | none => rfl
    | some unit =>
      by_cases ok : isEligible unit
      · simp [ok]
      · simp [ok]
  | abort => rfl
  | showDiff => rfl
  | unknown => rfl

theorem mem_refused {card : MissionCard} {action : ApproveAction} {unitId : String}
    (h : unitId ∈ (planApproval card action).refused.map Prod.fst) :
    (∃ line ∈ card.units, line.unitId = unitId ∧ ¬ isEligible line) ∨ (planApproval card action).eligible = [] := by
  obtain ⟨kind, target⟩ := action
  cases kind with
  | approveAll =>
    left
    simp only [planApproval, planAll, List.map_map, List.mem_map, List.mem_filter] at h
    obtain ⟨line, ⟨member, refused⟩, same⟩ := h
    exact ⟨line, member, same, by simpa using refused⟩
  | approveUnit =>
    right
    rw [eligible_eq]
    simp only [planApproval, planUnit] at h
    simp only [considered]
    cases found : card.units.find? (fun u => u.unitId = target.getD "") with
    | none => rfl
    | some unit =>
      rw [found] at h
      by_cases ok : isEligible unit
      · simp [ok] at h
      · simp [ok]
  | abort => cases h
  | showDiff => cases h
  | unknown => cases h

theorem addressed_cover (card : MissionCard) (action : ApproveAction) :
    ∀ unitId ∈ addressed card action, unitId ∈ (planApproval card action).eligible ∨
      unitId ∈ (planApproval card action).refused.map Prod.fst := by
  intro unitId member
  obtain ⟨kind, target⟩ := action
  cases kind with
  | approveAll =>
    obtain ⟨line, held, rfl⟩ := List.mem_map.mp member
    by_cases ok : isEligible line
    · exact .inl (List.mem_map_of_mem (List.mem_filter.mpr ⟨held, ok⟩))
    · refine .inr (List.mem_map.mpr ⟨(line.unitId, refusalReason line), ?_, rfl⟩)
      exact List.mem_map.mpr ⟨line, List.mem_filter.mpr ⟨held, by simpa using ok⟩, rfl⟩
  | approveUnit =>
    cases target with
    | none => cases member
    | some target =>
      simp only [addressed] at member
      split at member
      · cases member
      · rename_i named
        obtain rfl := List.mem_singleton.mp member
        simp only [planApproval, planUnit, Option.getD_some]
        cases found : card.units.find? (fun u => u.unitId = unitId) with
        | none => exact .inr (by simp [orElse, named])
        | some unit =>
          have same : unit.unitId = unitId := by simpa using List.find?_some found
          by_cases ok : isEligible unit
          · exact .inl (by simp [ok, same])
          · exact .inr (by simp [ok, same])
  | abort => cases member
  | showDiff => cases member
  | unknown => cases member

/-- A merger that only answers. -/
def answering : Merger Empty Unit := fun _ _ unitId s => (.ok ⟨unitId, true, "", ""⟩, s)

/-- A card can be approved safely exactly when its verified lines can be trusted. -/
theorem approval_iff (card : MissionCard) (action : ApproveAction) :
    ApprovalLaws card action ↔ Trustworthy card action := by
  -- under this merger every eligible unit is called for
  have all : calls answering "" "" (planApproval card action) false () = (planApproval card action).eligible :=
    calls_calm (fun unitId s => ⟨_, s, rfl⟩) _ _
  constructor
  · intro laws
    constructor
    · intro line looked verified shipped other member same
      refine laws.proven Empty Unit answering "" "" false () line.unitId ?_ other member same
      rw [all, eligible_eq]
      exact List.mem_map_of_mem (List.mem_filter.mpr ⟨looked, isEligible_iff.mpr ⟨verified, shipped⟩⟩)
    · rw [← eligible_eq, ← all]
      exact laws.once Empty Unit answering "" "" false ()
  · intro trust
    have proven : ∀ unitId ∈ (planApproval card action).eligible, ∀ line ∈ card.units, line.unitId = unitId →
        Proven line := by
      intro unitId member line known same
      rw [eligible_eq] at member
      obtain ⟨looked, held, rfl⟩ := List.mem_map.mp member
      obtain ⟨seen, ok⟩ := List.mem_filter.mp held
      obtain ⟨verified, shipped⟩ := isEligible_iff.mp ok
      exact trust.whole looked seen verified shipped line known same
    refine ⟨?_, ?_, ?_, ?_, ?_, addressed_cover card action⟩
    · intro ε σ merger repoRoot swarmId dryRun s unitId called
      exact proven unitId ((calls_begin merger repoRoot swarmId _ dryRun s).subset called)
    · intro ε σ merger repoRoot swarmId dryRun s
      have single : (planApproval card action).eligible.Nodup := eligible_eq card action ▸ trust.single
      exact single.sublist (calls_begin merger repoRoot swarmId _ dryRun s).sublist
    · intro ε σ merger repoRoot swarmId s
      exact calls_dry merger repoRoot swarmId _ s
    · intro notAll notUnit ε σ merger repoRoot swarmId dryRun s
      have none : (planApproval card action).eligible = [] := by
        obtain ⟨kind, target⟩ := action
        cases kind with
        | approveAll => exact absurd rfl notAll
        | approveUnit => exact absurd rfl notUnit
        | abort => rfl
        | showDiff => rfl
        | unknown => rfl
      have start := calls_begin merger repoRoot swarmId (planApproval card action) dryRun s
      rw [none] at start
      exact List.prefix_nil.mp start
    · intro unitId member refused
      rcases mem_refused refused with ⟨line, known, same, unfit⟩ | none
      · have good := proven unitId member line known same
        exact unfit (isEligible_iff.mpr ⟨good.verified, good.shipped⟩)
      · rw [none] at member
        cases member

/-- A unit with a verified line and a held one. -/
def twoLines : MissionCard :=
  ⟨"sw-1", [⟨"unit-0001", "done", true, false, some "cafef00d"⟩, ⟨"unit-0001", "done", false, true, none⟩]⟩

/-- It is cleared and refused at once. -/
theorem twoLines_cleared :
    ((planApproval twoLines ⟨.approveAll, none⟩).eligible = ["unit-0001"] ∧
      (planApproval twoLines ⟨.approveAll, none⟩).refused = [("unit-0001", "unverified")]) ∧
    ¬ ApprovalLaws twoLines ⟨.approveAll, none⟩ := by
  refine ⟨⟨by decide, by decide⟩, ?_⟩
  intro laws
  exact laws.disjoint "unit-0001" (by decide) (by decide)

end Onmc.Approve
