import Onmc.Learning.Ingest

/-! What gated ingestion writes, and what a candidate carries once it is promoted. -/
namespace Onmc.Learning

open Onmc.ToolBroker (WordChars)

variable [Score]

/-- An evaluation that is held out, beats its control by the margin, and hurts nothing protected. -/
structure ShadowEvaluation.Proven (margin : Score.Value) (e : ShadowEvaluation) : Prop where
  heldOut : e.heldOut = true
  beats : Score.lt margin (Score.sub e.candidateScore e.controlScore) = true
  unharmed : e.protectedSuitePassed = true

omit [Score] in
theorem reasonIf_nil {applies : Bool} {reason : String} : reasonIf applies reason = [] ↔ applies = false := by
  cases applies <;> simp [reasonIf]

theorem evaluationReasons_nil (gate : PromotionGate) (evaluation : Option ShadowEvaluation) :
    gate.evaluationReasons evaluation = [] ↔
      ∃ e, evaluation = some e ∧ e.Proven gate.minImprovement := by
  cases evaluation with
  | none => simp [PromotionGate.evaluationReasons]
  | some e =>
    simp only [PromotionGate.evaluationReasons, List.append_eq_nil_iff, reasonIf_nil, Bool.not_eq_false',
      ShadowEvaluation.improvesOverControl, ShadowEvaluation.delta, Bool.and_eq_true, Option.some.injEq,
      exists_eq_left']
    exact ⟨fun h => ⟨h.1.1, h.1.2.2, h.2⟩, fun h => ⟨⟨h.heldOut, h.heldOut, h.beats⟩, h.unharmed⟩⟩

theorem evaluate_eligible (gate : PromotionGate) (c : LearningCandidate) :
    (gate.evaluate c).eligible = true ↔ gate.learningEnabled = true ∧ c.state = .shadowEvaluated ∧
      c.findings = [] ∧ c.scope.isEmpty = false ∧ ∃ e, c.evaluation = some e ∧ e.Proven gate.minImprovement := by
  simp only [PromotionGate.evaluate, List.isEmpty_iff, List.append_eq_nil_iff, reasonIf_nil,
    evaluationReasons_nil, LearningCandidate.isSanitizedClean, Bool.not_eq_false', decide_eq_false_iff_not, not_not,
    ne_eq]
  tauto

variable [WordChars]

/-- What a promotion makes of a candidate. -/
def promotedFrom (c : LearningCandidate) (e : ShadowEvaluation) (atMs : Int) (reason : String) : LearningCandidate :=
  { c with
    state := .promoted
    updatedAtMs := atMs
    version := c.version + 1
    promotion := some ⟨c.version + 1, e, c.provenance, c.scope, atMs, reason⟩ }

omit [WordChars] in
theorem promote_ok {gate : PromotionGate} {c c' : LearningCandidate} {event : AdvanceEvent} :
    promote gate c event = .ok c' ↔ (gate.evaluate c).eligible = true ∧
      ∃ e, c.evaluation = some e ∧ c' = promotedFrom c e event.atMs event.reason := by
  unfold promote
  cases eligible : (gate.evaluate c).eligible with
  | false => simp [eligible]
  | true =>
    obtain ⟨-, -, -, -, e, evaluated, -⟩ := (evaluate_eligible gate c).mp eligible
    simp only [eligible, if_true, evaluated, true_and, Option.some.injEq, exists_eq_left', Except.ok.injEq,
      promotedFrom]
    exact ⟨fun same => same.symm, fun same => same.symm⟩

/-- Every way in which `advance` goes through. -/
inductive Moves (gate : PromotionGate) (event : AdvanceEvent) (c : LearningCandidate) : LearningCandidate → Prop
  | sanitized (legal : isLegalTransition c.state .sanitized = true) (aim : event.target = .sanitized) :
      Moves gate event c { c with state := .sanitized, updatedAtMs := event.atMs, findings := Sanitize.scan c.content }
  | scoped (scope : Scope) (legal : c.state = .sanitized) (aim : event.target = .scoped) (clean : c.findings = [])
      (given : event.scope = some scope) (bounded : scope.isEmpty = false) :
      Moves gate event c { c with state := .scoped, updatedAtMs := event.atMs, scope := scope }
  | shadowEvaluated (e : ShadowEvaluation) (legal : c.state = .scoped) (aim : event.target = .shadowEvaluated)
      (given : event.evaluation = some e) :
      Moves gate event c { c with state := .shadowEvaluated, updatedAtMs := event.atMs, evaluation := some e }
  | promoted (e : ShadowEvaluation) (aim : event.target = .promoted) (eligible : (gate.evaluate c).eligible = true)
      (evaluated : c.evaluation = some e) : Moves gate event c (promotedFrom c e event.atMs event.reason)
  | other (legal : isLegalTransition c.state event.target = true)
      (aim : event.target ∉ [.sanitized, .scoped, .shadowEvaluated, .promoted]) :
      Moves gate event c { c with state := event.target, updatedAtMs := event.atMs }

omit [Score] [WordChars] in
theorem legal_scoped {state : CandidateState} (h : isLegalTransition state .scoped = true) : state = .sanitized := by
  cases state <;> simp_all [isLegalTransition, candidateTransitions]

omit [Score] [WordChars] in
theorem legal_shadow {state : CandidateState} (h : isLegalTransition state .shadowEvaluated = true) :
    state = .scoped := by
  cases state <;> simp_all [isLegalTransition, candidateTransitions]

theorem advance_moves {c c' : LearningCandidate} {event : AdvanceEvent} {gate : Option PromotionGate}
    (h : advance c event gate = .ok c') : Moves (gate.getD PromotionGate.default) event c c' := by
  unfold advance at h
  dsimp only at h
  split at h
  · cases h
  · rename_i legal
    simp only [Bool.not_eq_false] at legal
    split at h
    · cases h
    · rename_i barrier
      split at h
      · rename_i aim
        obtain rfl := Except.ok.inj h
        rw [aim]
        exact .sanitized (aim ▸ legal) aim
      · rename_i aim
        split at h
        · rename_i scope given
          split at h
          · cases h
          · rename_i bounded
            obtain rfl := Except.ok.inj h
            have from_sanitized := legal_scoped (aim ▸ legal)
            have clean : c.findings = [] := by
              simpa [from_sanitized, aim, LearningCandidate.isSanitizedClean] using barrier
            rw [aim]
            exact .scoped scope from_sanitized aim clean given (by simpa using bounded)
        · cases h
      · rename_i aim
        split at h
        · rename_i e given
          obtain rfl := Except.ok.inj h
          rw [aim]
          exact .shadowEvaluated e (legal_shadow (aim ▸ legal)) aim given
        · cases h
      · rename_i aim
        obtain ⟨eligible, e, evaluated, rfl⟩ := promote_ok.mp h
        exact .promoted e aim eligible evaluated
      · obtain rfl := Except.ok.inj h
        exact .other legal (by simp_all)

/-- A candidate that has arrived at its evaluation. -/
def arrived (c : LearningCandidate) (findings : List Finding) (e : ShadowEvaluation) (atMs : Int) : LearningCandidate :=
  { c with state := .shadowEvaluated, findings := findings, evaluation := some e, updatedAtMs := atMs }

section Drive

variable {gate : PromotionGate} {evidence : Option ShadowEvaluation} {atMs : Int} {c : LearningCandidate}

theorem drive_eq : driveToShadowEvaluated gate c evidence atMs = (do
    let c1 ← driveStep gate evidence atMs c .candidate
    let c2 ← driveStep gate evidence atMs c1 .sanitized
    let c3 ← driveStep gate evidence atMs c2 .scoped
    driveStep gate evidence atMs c3 .shadowEvaluated) := by
  simp only [driveToShadowEvaluated, forwardToShadow, List.foldlM_cons, List.foldlM_nil, bind_pure]

theorem driveStep_skip {target : CandidateState} (late : isLegalTransition c.state target = false) :
    driveStep gate evidence atMs c target = .ok c := by
  simp [driveStep, late]

/-- Past the scope there is nothing to drive. -/
theorem drive_late (late : c.state ∉ [.observed, .candidate, .sanitized, .scoped]) :
    driveToShadowEvaluated gate c evidence atMs = .ok c := by
  have skips : ∀ target ∈ forwardToShadow, isLegalTransition c.state target = false := by
    cases state : c.state <;> simp_all [forwardToShadow, isLegalTransition, candidateTransitions]
  rw [drive_eq, driveStep_skip (skips _ (by decide)), Except.ok_bind, driveStep_skip (skips _ (by decide)),
    Except.ok_bind, driveStep_skip (skips _ (by decide)), Except.ok_bind, driveStep_skip (skips _ (by decide))]

theorem driveStep_shadow {c' : LearningCandidate} (state : c.state = .scoped) :
    driveStep gate evidence atMs c .shadowEvaluated = .ok c' ↔
      ∃ e, evidence = some e ∧ c' = arrived c c.findings e atMs := by
  have legal : isLegalTransition c.state .shadowEvaluated = true := by rw [state]; rfl
  cases evidence with
  | none => simp [driveStep, legal, advance, driveEvent]
  | some e =>
    simp only [driveStep, legal, if_true, advance, driveEvent, Option.some.injEq, exists_eq_left']
    simp only [Bool.true_eq_false, if_false, reduceCtorEq, false_and, and_false, Except.ok.injEq]
    exact ⟨fun same => same.symm, fun same => same.symm⟩

theorem driveStep_scoped {c' : LearningCandidate} (state : c.state = .sanitized) :
    driveStep gate evidence atMs c .scoped = .ok c' ↔ c.findings = [] ∧ c.scope.isEmpty = false ∧
      c' = { c with state := .scoped, updatedAtMs := atMs } := by
  have legal : isLegalTransition c.state .scoped = true := by rw [state]; rfl
  by_cases clean : c.findings = []
  · cases bounded : c.scope.isEmpty with
    | true =>
      simp [driveStep, legal, advance, driveEvent, LearningCandidate.isSanitizedClean, clean, bounded]
    | false =>
      have scanned : c.isSanitizedClean = true := by simp [LearningCandidate.isSanitizedClean, clean]
      simp only [driveStep, legal, if_true, advance, driveEvent, scanned, bounded]
      simp only [Bool.true_eq_false, Bool.false_eq_true, if_false, and_false, Except.ok.injEq, clean, true_and]
      exact ⟨fun same => same.symm, fun same => same.symm⟩
  · have scanned : c.isSanitizedClean = false := by simp [LearningCandidate.isSanitizedClean, clean]
    have allowed : isLegalTransition .sanitized .scoped = true := rfl
    simp [driveStep, advance, driveEvent, scanned, state, allowed, clean]

theorem driveStep_sanitized (state : c.state = .candidate) : driveStep gate evidence atMs c .sanitized =
    .ok { c with state := .sanitized, updatedAtMs := atMs, findings := Sanitize.scan c.content } := by
  have legal : isLegalTransition c.state .sanitized = true := by rw [state]; rfl
  simp [driveStep, legal, advance, driveEvent]

theorem driveStep_candidate (state : c.state = .observed) :
    driveStep gate evidence atMs c .candidate = .ok { c with state := .candidate, updatedAtMs := atMs } := by
  have legal : isLegalTransition c.state .candidate = true := by rw [state]; rfl
  simp [driveStep, legal, advance, driveEvent]

theorem drive_scoped {c' : LearningCandidate} (state : c.state = .scoped) :
    driveToShadowEvaluated gate c evidence atMs = .ok c' ↔
      ∃ e, evidence = some e ∧ c' = arrived c c.findings e atMs := by
  rw [drive_eq, driveStep_skip (by rw [state]; rfl), Except.ok_bind, driveStep_skip (by rw [state]; rfl),
    Except.ok_bind, driveStep_skip (by rw [state]; rfl), Except.ok_bind, driveStep_shadow state]

theorem drive_sanitized {c' : LearningCandidate} (state : c.state = .sanitized) :
    driveToShadowEvaluated gate c evidence atMs = .ok c' ↔ c.findings = [] ∧ c.scope.isEmpty = false ∧
      ∃ e, evidence = some e ∧ c' = arrived c [] e atMs := by
  rw [drive_eq, driveStep_skip (by rw [state]; rfl), Except.ok_bind, driveStep_skip (by rw [state]; rfl),
    Except.ok_bind, Except.bind_ok]
  simp only [driveStep_scoped state]
  constructor
  · rintro ⟨_, ⟨clean, bounded, rfl⟩, shadowed⟩
    obtain ⟨e, given, made⟩ := (driveStep_shadow rfl).mp shadowed
    exact ⟨clean, bounded, e, given, by rw [made]; simp [arrived, clean]⟩
  · rintro ⟨clean, bounded, e, given, made⟩
    exact ⟨_, ⟨clean, bounded, rfl⟩, (driveStep_shadow rfl).mpr ⟨e, given, by rw [made]; simp [arrived, clean]⟩⟩

/-- A candidate at the start is scanned on its way. -/
theorem drive_early {c' : LearningCandidate} (early : c.state = .observed ∨ c.state = .candidate) :
    driveToShadowEvaluated gate c evidence atMs = .ok c' ↔ Sanitize.scan c.content = [] ∧ c.scope.isEmpty = false ∧
      ∃ e, evidence = some e ∧ c' = arrived c [] e atMs := by
  have scanned : driveToShadowEvaluated gate c evidence atMs = driveToShadowEvaluated gate
      { c with state := .sanitized, updatedAtMs := atMs, findings := Sanitize.scan c.content } evidence atMs := by
    rw [drive_eq, drive_eq, driveStep_skip (c := { c with
      state := .sanitized, updatedAtMs := atMs, findings := Sanitize.scan c.content }) rfl, Except.ok_bind,
      driveStep_skip (c := { c with
        state := .sanitized, updatedAtMs := atMs, findings := Sanitize.scan c.content }) rfl, Except.ok_bind]
    rcases early with state | state
    · rw [driveStep_candidate state, Except.ok_bind, driveStep_sanitized rfl, Except.ok_bind]
    · rw [driveStep_skip (by rw [state]; rfl), Except.ok_bind, driveStep_sanitized state, Except.ok_bind]
  rw [scanned, drive_sanitized rfl]
  rfl

end Drive

theorem advance_promoted {gate : PromotionGate} {c : LearningCandidate} {e : ShadowEvaluation} {atMs : Int}
    {reason : String} (eligible : (gate.evaluate c).eligible = true) (evaluated : c.evaluation = some e) :
    advance c ⟨.promoted, none, none, atMs, reason⟩ (some gate) = .ok (promotedFrom c e atMs reason) := by
  have state := ((evaluate_eligible gate c).mp eligible).2.1
  have legal : isLegalTransition c.state .promoted = true := by rw [state]; rfl
  simp only [advance, legal, Bool.true_eq_false, if_false, reduceCtorEq, false_and, and_false, Option.getD_some]
  exact promote_ok.mpr ⟨eligible, e, evaluated, rfl⟩

/-- The evaluation a candidate is judged by: its own, once it has one, else the evidence handed in. -/
def presented (c : LearningCandidate) (evidence : Option ShadowEvaluation) : Option ShadowEvaluation :=
  if c.state = .shadowEvaluated then c.evaluation else evidence

/-- The states at which a candidate may be handed in past the sanitizer. -/
def screenedStates : List CandidateState := [.sanitized, .scoped, .shadowEvaluated]

/-- Everything that is asked of a write, the content of the memory apart. -/
structure Accepts (gate : PromotionGate) (enabled : Bool) (c : LearningCandidate)
    (evidence : Option ShadowEvaluation) : Prop where
  enabled : enabled = true
  gateEnabled : gate.learningEnabled = true
  underway : c.state ∈ [CandidateState.observed, .candidate] ++ screenedStates
  bounded : c.scope.isEmpty = false
  proven : ∃ e, presented c evidence = some e ∧ e.Proven gate.minImprovement

/-- What the code looks at for the content: a scan of its own at the start, later the findings that
the candidate came with. -/
def Vetted (c : LearningCandidate) : Prop :=
  if c.state ∈ screenedStates then c.findings = [] else Sanitize.scan c.content = []

/-- The candidates that get as far as a promotion. -/
theorem drive_eligible {gate : PromotionGate} {evidence : Option ShadowEvaluation} {atMs : Int}
    {c prepared : LearningCandidate} :
    (driveToShadowEvaluated gate c evidence atMs = .ok prepared ∧ (gate.evaluate prepared).eligible = true) ↔
      Accepts gate true c evidence ∧ Vetted c ∧ ∃ e, presented c evidence = some e ∧
        e.Proven gate.minImprovement ∧
        prepared = if c.state = .shadowEvaluated then c else arrived c [] e atMs := by
  have judged : ∀ findings e, (gate.evaluate (arrived c findings e atMs)).eligible = true ↔
      gate.learningEnabled = true ∧ findings = [] ∧ c.scope.isEmpty = false ∧ e.Proven gate.minImprovement := by
    intro findings e
    rw [evaluate_eligible]
    simp [arrived]
  -- Driven from before its evaluation, a candidate is judged by the evidence.
  have driven : ∀ (_ : c.state ≠ .shadowEvaluated) (_ : c.state ∈ [CandidateState.observed, .candidate] ++ screenedStates),
      (∃ e, evidence = some e ∧ gate.learningEnabled = true ∧ Vetted c ∧ c.scope.isEmpty = false ∧
        e.Proven gate.minImprovement ∧ prepared = arrived c [] e atMs) ↔
      Accepts gate true c evidence ∧ Vetted c ∧ ∃ e, presented c evidence = some e ∧
        e.Proven gate.minImprovement ∧ prepared = if c.state = .shadowEvaluated then c else arrived c [] e atMs := by
    intro before underway
    have given : presented c evidence = evidence := if_neg before
    simp only [given, before, if_false]
    constructor
    · rintro ⟨e, rfl, enabled, vetted, bounded, proven, made⟩
      exact ⟨⟨rfl, enabled, underway, bounded, e, given, proven⟩, vetted, e, rfl, proven, made⟩
    · rintro ⟨accepts, vetted, e, rfl, proven, made⟩
      exact ⟨e, rfl, accepts.gateEnabled, vetted, accepts.bounded, proven, made⟩
  have early_or_sanitized : ∀ (_ : c.state ≠ .shadowEvaluated)
      (_ : c.state ∈ [CandidateState.observed, .candidate] ++ screenedStates),
      (driveToShadowEvaluated gate c evidence atMs = .ok prepared ↔ Vetted c ∧ c.scope.isEmpty = false ∧
        ∃ e, evidence = some e ∧ prepared = arrived c [] e atMs) →
      ((driveToShadowEvaluated gate c evidence atMs = .ok prepared ∧ (gate.evaluate prepared).eligible = true) ↔
        Accepts gate true c evidence ∧ Vetted c ∧ ∃ e, presented c evidence = some e ∧
          e.Proven gate.minImprovement ∧ prepared = if c.state = .shadowEvaluated then c else arrived c [] e atMs) := by
    intro before underway drives
    rw [← driven before underway, drives]
    constructor
    · rintro ⟨⟨vetted, bounded, e, given, rfl⟩, eligible⟩
      obtain ⟨enabled, -, -, proven⟩ := (judged [] e).mp eligible
      exact ⟨e, given, enabled, vetted, bounded, proven, rfl⟩
    · rintro ⟨e, given, enabled, vetted, bounded, proven, rfl⟩
      exact ⟨⟨vetted, bounded, e, given, rfl⟩, (judged [] e).mpr ⟨enabled, rfl, bounded, proven⟩⟩
  have never : c.state ∉ [CandidateState.observed, .candidate] ++ screenedStates →
      ((driveToShadowEvaluated gate c evidence atMs = .ok prepared ∧ (gate.evaluate prepared).eligible = true) ↔
        Accepts gate true c evidence ∧ Vetted c ∧ ∃ e, presented c evidence = some e ∧
          e.Proven gate.minImprovement ∧ prepared = if c.state = .shadowEvaluated then c else arrived c [] e atMs) := by
    intro outside
    constructor
    · rintro ⟨drives, eligible⟩
      rw [drive_late (by simp_all [screenedStates])] at drives
      obtain rfl := Except.ok.inj drives
      rw [((evaluate_eligible gate c).mp eligible).2.1] at outside
      exact absurd (by decide) outside
    · rintro ⟨accepts, -⟩
      exact absurd accepts.underway outside
  cases state : c.state with
  | shadowEvaluated =>
    rw [drive_late (by simp [state])]
    have given : presented c evidence = c.evaluation := if_pos state
    have screened : Vetted c ↔ c.findings = [] := by simp [Vetted, state, screenedStates]
    simp only [given, screened, if_true]
    constructor
    · rintro ⟨same, eligible⟩
      obtain rfl := Except.ok.inj same
      obtain ⟨enabled, -, clean, bounded, e, evaluated, proven⟩ := (evaluate_eligible gate c).mp eligible
      exact ⟨⟨rfl, enabled, by simp [state, screenedStates], bounded, e, given.trans evaluated, proven⟩, clean, e,
        evaluated, proven, rfl⟩
    · rintro ⟨accepts, clean, e, evaluated, proven, rfl⟩
      exact ⟨rfl, (evaluate_eligible gate _).mpr
        ⟨accepts.gateEnabled, state, clean, accepts.bounded, e, evaluated, proven⟩⟩
  | «scoped» =>
    have screened : Vetted c ↔ c.findings = [] := by simp [Vetted, state, screenedStates]
    rw [← state, ← driven (by simp [state]) (by simp [state, screenedStates]), drive_scoped state, screened]
    constructor
    · rintro ⟨⟨e, given, rfl⟩, eligible⟩
      obtain ⟨enabled, clean, bounded, proven⟩ := (judged _ e).mp eligible
      exact ⟨e, given, enabled, clean, bounded, proven, by rw [clean]⟩
    · rintro ⟨e, given, enabled, clean, bounded, proven, rfl⟩
      exact ⟨⟨e, given, by rw [clean]⟩, (judged _ e).mpr ⟨enabled, rfl, bounded, proven⟩⟩
  | sanitized =>
    rw [← state]
    apply early_or_sanitized (by simp [state]) (by simp [state, screenedStates])
    rw [drive_sanitized state]
    simp [Vetted, state, screenedStates]
  | observed =>
    rw [← state]
    apply early_or_sanitized (by simp [state]) (by simp [state, screenedStates])
    rw [drive_early (.inl state)]
    simp [Vetted, state, screenedStates]
  | candidate =>
    rw [← state]
    apply early_or_sanitized (by simp [state]) (by simp [state, screenedStates])
    rw [drive_early (.inr state)]
    simp [Vetted, state, screenedStates]
  | _ =>
    rw [← state]
    exact never (by simp [state, screenedStates])

section Ingest

variable {gate : PromotionGate} {write : IngestedMemory → Except String String} {enabled : Bool} {atMs : Int}
  {c prepared : LearningCandidate} {evidence : Option ShadowEvaluation} {e : ShadowEvaluation} {reason : String}

/-- What the sink is handed for a promoted candidate. -/
def handed (c : LearningCandidate) (record : PromotionRecord) : IngestedMemory :=
  ⟨c.id, c.kind.value, c.content, c.scope, c.provenance, c.version, record⟩

theorem ingest_written (drives : driveToShadowEvaluated gate c evidence atMs = .ok prepared)
    (eligible : (gate.evaluate prepared).eligible = true) (evaluated : prepared.evaluation = some e) :
    ingest gate write true atMs c evidence reason =
      let promoted := promotedFrom prepared e atMs reason
      let memory := handed promoted ⟨prepared.version + 1, e, prepared.provenance, prepared.scope, atMs, reason⟩
      ⟨[memory], match write memory with
        | .error message => .error message
        | .ok memoryId => .ok ⟨true, promoted, gate.evaluate prepared, some memoryId, []⟩⟩ := by
  unfold ingest
  simp only [Bool.true_eq_false, if_false, drives, eligible, advance_promoted eligible evaluated]
  simp only [promotedFrom, handed]
  split <;> simp_all

theorem ingest_refused (refused : enabled = true → ∀ prepared,
    driveToShadowEvaluated gate c evidence atMs = .ok prepared → (gate.evaluate prepared).eligible = false) :
    ∃ left decision reasons,
      ingest gate write enabled atMs c evidence reason = ⟨[], .ok ⟨false, left, decision, none, reasons⟩⟩ ∧
        (left = c ∨ enabled = true ∧ driveToShadowEvaluated gate c evidence atMs = .ok left) := by
  unfold ingest
  cases on : enabled with
  | false => exact ⟨_, _, _, rfl, .inl rfl⟩
  | true =>
    simp only [Bool.true_eq_false, if_false]
    cases drives : driveToShadowEvaluated gate c evidence atMs with
    | error failure => exact ⟨_, _, _, rfl, .inl rfl⟩
    | ok prepared =>
      simp only [refused on prepared drives, if_true]
      exact ⟨_, _, _, rfl, .inr ⟨trivial, rfl⟩⟩

/-- What a call of `ingest` promises of its writes. -/
structure Sound (gate : PromotionGate) (enabled : Bool) (c : LearningCandidate) (i : Ingestion) : Prop where
  once : i.writes.length ≤ 1
  exact : ∀ m ∈ i.writes, m.content = c.content
  scanned : ∀ m ∈ i.writes, Sanitize.scan m.content = []
  bounded : ∀ m ∈ i.writes, m.scope.isEmpty = false
  proven : ∀ m ∈ i.writes, m.promotion.evaluation.Proven gate.minImprovement
  allowed : ∀ m ∈ i.writes, enabled = true ∧ gate.learningEnabled = true

/-- The findings that a candidate past the sanitizer comes with hide nothing of what its content holds. -/
def Honest (c : LearningCandidate) : Prop :=
  c.state ∈ screenedStates → c.findings = [] → Sanitize.scan c.content = []

theorem vetted_scan (vetted : Vetted c) (honest : Honest c) : Sanitize.scan c.content = [] := by
  unfold Vetted at vetted
  split at vetted
  · rename_i screened
    exact honest screened vetted
  · exact vetted

omit [WordChars] in
theorem drive_keeps_text (made : prepared = if c.state = .shadowEvaluated then c else arrived c [] e atMs) :
    prepared.content = c.content ∧ prepared.scope = c.scope := by
  subst made
  split <;> exact ⟨rfl, rfl⟩

theorem ingest_sound :
    Sound gate enabled c (ingest gate write enabled atMs c evidence reason) ↔
      (Accepts gate enabled c evidence → Honest c) := by
  constructor
  · intro sound accepts screened clean
    obtain rfl := accepts.enabled
    have vetted : Vetted c := by simp only [Vetted, screened, if_true, clean]
    obtain ⟨e, given, proven⟩ := accepts.proven
    obtain ⟨prepared, made⟩ : ∃ prepared, prepared = if c.state = .shadowEvaluated then c else arrived c [] e atMs :=
      ⟨_, rfl⟩
    obtain ⟨drives, eligible⟩ := drive_eligible.mpr ⟨accepts, vetted, e, given, proven, made⟩
    obtain ⟨-, -, -, -, e', evaluated, -⟩ := (evaluate_eligible _ _).mp eligible
    rw [← (drive_keeps_text made).1]
    rw [ingest_written drives eligible evaluated] at sound
    exact sound.scanned _ (List.mem_singleton_self _)
  · intro honest
    by_cases goes : enabled = true ∧ ∃ prepared, driveToShadowEvaluated gate c evidence atMs = .ok prepared ∧
        (gate.evaluate prepared).eligible = true
    · obtain ⟨rfl, prepared, drives, eligible⟩ := goes
      obtain ⟨accepts, vetted, e, given, proven, made⟩ := drive_eligible.mp ⟨drives, eligible⟩
      obtain ⟨-, -, -, -, e', evaluated, proven'⟩ := (evaluate_eligible _ _).mp eligible
      obtain ⟨content, «scope»⟩ := drive_keeps_text made
      rw [ingest_written drives eligible evaluated]
      have scanned := vetted_scan vetted (honest accepts)
      constructor
      case once => exact le_refl 1
      all_goals
        intro m wrote
        obtain rfl := List.mem_singleton.mp wrote
      case exact => exact content
      case scanned => exact (congrArg _ content).trans scanned
      case bounded => exact (congrArg _ «scope»).trans accepts.bounded
      case proven => exact proven'
      case allowed => exact ⟨rfl, accepts.gateEnabled⟩
    · have refused : enabled = true → ∀ prepared, driveToShadowEvaluated gate c evidence atMs = .ok prepared →
          (gate.evaluate prepared).eligible = false := by
        intro on prepared drives
        exact Bool.eq_false_iff.mpr (fun eligible => goes ⟨on, prepared, drives, eligible⟩)
      obtain ⟨left, decision, reasons, ends, -⟩ := @ingest_refused _ _ _ write _ _ _ _ reason refused
      rw [ends]
      constructor <;> simp

end Ingest

end Onmc.Learning
