import Onmc.Budget.Guard
import Onmc.EventLog

/-! What the guard's sum counts, when the guard blocks, and how both change with the receipts. -/
namespace Onmc.Budget

open Onmc.PyValue (Builtins)

theorem shift_ok {t s : DateTime} {micros : Int} (h : shift t micros = .ok s) : (s.micros : Int) = t.micros + micros := by
  unfold shift at h
  split at h
  · obtain rfl := Except.ok.inj h
    simp only
    omega
  · cases h

theorem le_self {a : ExactFloat} (nonneg : a.NonNeg) : a.le a = true := by
  rcases ExactFloat.nonneg_iff.mp nonneg with ⟨q, -, rfl⟩ | rfl
  · exact decide_eq_true le_rfl
  · rfl

/-- When a verdict blocks. -/
theorem evaluate_blocks {spend : ExactFloat} {cap : Option ExactFloat} {warnRatio : ExactFloat} {window : Window} :
    (evaluate spend cap warnRatio window).allowed = false ↔
      ∃ c, cap = some c ∧ c.le (spend.max0.round 4) = true := by
  cases cap with
  | none => simp [evaluate]
  | some c =>
    by_cases reached : c.le (spend.max0.round 4) = true
    · simp [evaluate, reached]
    · by_cases warned : (warnRatio.unit.mul c).le (spend.max0.round 4) = true
      · simp [evaluate, reached, warned]
      · simp [evaluate, reached, warned]

theorem sum_filterMap_cons (c : Coerced) (included : List Coerced) :
    ((c :: included).filterMap Coerced.costUsd).sum = c.costUsd.getD 0 + (included.filterMap Coerced.costUsd).sum := by
  cases known : c.costUsd with
  | none => simp [known]
  | some cost => simp [known]

section

variable [Builtins] [FromIso]

/-- A time lies in the window that ends now; the widest window has no beginning. -/
def Within (window : Window) (now time : DateTime) : Prop :=
  time.micros ≤ now.micros ∧
    match window with
    | .day => now.micros ≤ time.micros + DateTime.dayMicros
    | .week => now.micros ≤ time.micros + 7 * DateTime.dayMicros
    | .all => True

instance (window : Window) (now time : DateTime) : Decidable (Within window now time) := by
  unfold Within
  cases window <;> exact inferInstance

/-- What a receipt contributes to a window: its known cost, if it can be read and has a time there. -/
def costIn (window : Window) (now : DateTime) (receipt : JsonDict) : ExactFloat :=
  match coerceReceipt receipt, receiptWhen receipt with
  | .ok (some coerced), .ok (some time) => if Within window now time then coerced.costUsd.getD 0 else 0
  | _, _ => 0

/-- The sum of the known costs in a window. -/
def spent (window : Window) (now : DateTime) (receipts : List JsonDict) : ExactFloat :=
  (receipts.map (costIn window now)).sum

/-! One pass over the receipts. -/

/-- The cost of a receipt from `since` to `now`. -/
def costFrom (since now : DateTime) (receipt : JsonDict) : ExactFloat :=
  match coerceReceipt receipt, receiptWhen receipt with
  | .ok (some coerced), .ok (some time) =>
    if time.micros < since.micros ∨ now.micros < time.micros then 0 else coerced.costUsd.getD 0
  | _, _ => 0

theorem inWindow_sum {since now : DateTime} {receipts : List JsonDict} {included : List Coerced} {undated : Nat}
    (h : inWindow since now receipts = .ok (included, undated)) :
    (included.filterMap Coerced.costUsd).sum = (receipts.map (costFrom since now)).sum := by
  induction receipts generalizing included undated with
  | nil =>
    cases h
    rfl
  | cons raw receipts ih =>
    rw [inWindow] at h
    obtain ⟨coerced, read, h⟩ := Except.bind_ok.mp h
    rw [List.map_cons, List.sum_cons, costFrom, read]
    cases coerced with
    | none =>
      rw [ih h]
      exact (zero_add _).symm
    | some coerced =>
      obtain ⟨time, dated, h⟩ := Except.bind_ok.mp h
      rw [dated]
      cases time with
      | none =>
        obtain ⟨⟨later, n⟩, rest, h⟩ := Except.bind_ok.mp h
        cases h
        rw [ih rest]
        exact (zero_add _).symm
      | some time =>
        obtain ⟨⟨later, n⟩, rest, h⟩ := Except.bind_ok.mp h
        by_cases outside : time.micros < since.micros ∨ now.micros < time.micros
        · simp only [outside, if_true] at h
          cases h
          simp only [outside, if_true, zero_add, ih rest]
        · simp only [outside, if_false] at h
          cases h
          simp only [sum_filterMap_cons, outside, if_false, ih rest]

theorem buildCostReport_total {receipts : List JsonDict} {now : DateTime} {days : Nat} {report : CostReport}
    (h : buildCostReport receipts now days = .ok report) :
    ∃ since : DateTime, (since.micros : Int) = now.micros - (max 1 days * DateTime.dayMicros : Nat) ∧
      report.totalCostUsd = .round 4 (receipts.map (costFrom since now)).sum := by
  obtain ⟨since, begun, h⟩ := Except.bind_ok.mp h
  obtain ⟨⟨included, undated⟩, scanned, h⟩ := Except.bind_ok.mp h
  cases h
  refine ⟨since, ?_, ?_⟩
  · have shifted := shift_ok begun
    omega
  · simp only [inWindow_sum scanned]

/-! The span of the widest window. -/

theorem earliest_le {receipts : List JsonDict} {found first : Option DateTime}
    (h : earliest found receipts = .ok first) :
    (∀ t, found = some t → ∃ e, first = some e ∧ e.micros ≤ t.micros) ∧
      ∀ receipt ∈ receipts, ∀ t, receiptWhen receipt = .ok (some t) → ∃ e, first = some e ∧ e.micros ≤ t.micros := by
  induction receipts generalizing found with
  | nil =>
    cases h
    exact ⟨fun t same => ⟨t, same, le_rfl⟩, fun _ none => nomatch none⟩
  | cons raw receipts ih =>
    rw [earliest] at h
    obtain ⟨time, dated, h⟩ := Except.bind_ok.mp h
    cases time with
    | none =>
      obtain ⟨held, rest⟩ := ih h
      refine ⟨held, ?_⟩
      intro receipt member t timed
      rcases List.mem_cons.mp member with rfl | member
      · rw [dated] at timed
        cases timed
      · exact rest receipt member t timed
    | some time =>
      have next : ∃ new : DateTime, earliest (some new) receipts = .ok first ∧ new.micros ≤ time.micros ∧
          ∀ t, found = some t → new.micros ≤ t.micros := by
        cases found with
        | none => exact ⟨time, h, le_rfl, fun _ none => nomatch none⟩
        | some old =>
          refine ⟨_, h, ?_, ?_⟩
          · split <;> omega
          · intro t same
            cases same
            split <;> omega
      obtain ⟨new, after, own, before⟩ := next
      obtain ⟨held, rest⟩ := ih after
      obtain ⟨e, last, low⟩ := held new rfl
      refine ⟨fun t same => ⟨e, last, low.trans (before t same)⟩, ?_⟩
      intro receipt member t timed
      rcases List.mem_cons.mp member with rfl | member
      · rw [dated] at timed
        cases timed
        exact ⟨e, last, low.trans own⟩
      · exact rest receipt member t timed

/-- The widest window begins before every receipt. -/
theorem spanDays_covers {receipts : List JsonDict} {now : DateTime} {days : Nat} (h : spanDays receipts now = .ok days) :
    ∀ receipt ∈ receipts, ∀ t, receiptWhen receipt = .ok (some t) →
      (now.micros : Int) - (max 1 days * DateTime.dayMicros : Nat) ≤ t.micros := by
  intro receipt member t timed
  obtain ⟨first, found, h⟩ := Except.bind_ok.mp h
  obtain ⟨e, rfl, low⟩ := (earliest_le found).2 receipt member t timed
  cases h
  have width : DateTime.dayMicros = 86400000000 := rfl
  rw [width]
  rcases Int.le_total 0 ((now.micros : Int) - e.micros) with past | future
  · rw [Int.tdiv_eq_ediv_of_nonneg past]
    omega
  · omega

/-- The window's beginning separates the receipts that are counted. -/
theorem costFrom_eq {window : Window} {receipts : List JsonDict} {now since : DateTime} {days : Nat}
    (h : windowDays window receipts now = .ok days)
    (begun : (since.micros : Int) = now.micros - (max 1 days * DateTime.dayMicros : Nat)) :
    ∀ receipt ∈ receipts, costFrom since now receipt = costIn window now receipt := by
  intro receipt member
  unfold costFrom costIn
  cases coerceReceipt receipt with
  | error e => rfl
  | ok coerced =>
    cases coerced with
    | none => rfl
    | some coerced =>
      cases timed : receiptWhen receipt with
      | error e => rfl
      | ok time =>
        cases time with
        | none => rfl
        | some time =>
          have same : (time.micros < since.micros ∨ now.micros < time.micros) ↔ ¬ Within window now time := by
            have width : DateTime.dayMicros = 86400000000 := rfl
            cases window with
            | day =>
              cases h
              simp only [Within, width] at begun ⊢
              omega
            | week =>
              cases h
              simp only [Within, width] at begun ⊢
              omega
            | all =>
              have covered := spanDays_covers h receipt member time timed
              simp only [Within, and_true]
              omega
          by_cases inside : Within window now time
          · simp only [same, inside, not_true_eq_false, if_false, if_true]
          · simp only [same, inside, not_false_eq_true, if_true, if_false]

/-- The sum that the guard uses. -/
theorem sumSpend_eq {receipts : List JsonDict} {window : Window} {now : DateTime} {s : ExactFloat}
    (h : sumSpend receipts window now = .ok s) : s = .round 4 (spent window now receipts) := by
  obtain ⟨days, counted, h⟩ := Except.bind_ok.mp h
  obtain ⟨report, made, h⟩ := Except.bind_ok.mp h
  cases h
  obtain ⟨since, begun, total⟩ := buildCostReport_total made
  rw [total, spent, List.map_congr_left (costFrom_eq counted begun)]

/-! The laws. -/

/-- The known cost of a receipt, if it can be read and has one, is not negative. -/
def Charges (receipt : JsonDict) : Prop :=
  ∀ coerced, coerceReceipt receipt = .ok (some coerced) → ∀ cost, coerced.costUsd = some cost → cost.NonNeg

theorem costIn_nonneg {receipt : JsonDict} (charges : Charges receipt) (window : Window) (now : DateTime) :
    (costIn window now receipt).NonNeg := by
  unfold costIn
  split
  · rename_i coerced time read dated
    split
    · cases known : coerced.costUsd with
      | none => exact ExactFloat.nonneg_zero
      | some cost => exact charges coerced read cost known
    · exact ExactFloat.nonneg_zero
  · exact ExactFloat.nonneg_zero

/-- A wider window counts what a narrower one does. -/
theorem costIn_le {receipt : JsonDict} (charges : Charges receipt) {narrow wide : Window} {now : DateTime}
    (wider : ∀ time, Within narrow now time → Within wide now time) :
    (costIn narrow now receipt).le (costIn wide now receipt) = true := by
  have positive := costIn_nonneg charges wide now
  unfold costIn at positive ⊢
  split
  · rename_i coerced time read dated
    simp only [read, dated] at positive
    by_cases inside : Within narrow now time
    · simp only [inside, wider time inside, if_true] at positive ⊢
      exact le_self positive
    · rw [if_neg inside]
      exact positive
  · exact ExactFloat.nonneg_zero

omit [Builtins] [FromIso] in
theorem day_week {now time : DateTime} (h : Within .day now time) : Within .week now time := by
  have width : DateTime.dayMicros = 86400000000 := rfl
  obtain ⟨past, recent⟩ := h
  refine ⟨past, ?_⟩
  simp only at recent ⊢
  omega

theorem spent_le {receipts : List JsonDict} (charges : ∀ r ∈ receipts, Charges r) {narrow wide : Window} {now : DateTime}
    (wider : ∀ time, Within narrow now time → Within wide now time) :
    (spent narrow now receipts).le (spent wide now receipts) = true := by
  apply ExactFloat.sum_le_sum
  · exact fun r member => costIn_nonneg (charges r member) narrow now
  · exact fun r member => costIn_le (charges r member) wider

theorem checkBudget_blocks {config : BudgetConfig} {receipts : List JsonDict} {now : DateTime} {d : BudgetDecision}
    (h : checkBudget config receipts now = .ok d) :
    d.allowed = false ↔ ∃ cap, config.capUsd = some cap ∧
      cap.le ((spent config.window now receipts).max0.round 4) = true := by
  unfold checkBudget at h
  cases capped : config.capUsd with
  | none =>
    rw [capped] at h
    cases h
    simp [evaluate]
  | some cap =>
    rw [capped] at h
    obtain ⟨spend, summed, h⟩ := Except.bind_ok.mp h
    cases h
    obtain rfl := sumSpend_eq summed
    rw [evaluate_blocks]
    have same := ExactFloat.floored_eq 4 (spent config.window now receipts)
    unfold ExactFloat.floored at same
    rw [same]

/-- What holds of every verdict on a list of receipts. -/
structure BudgetLaws (receipts : List JsonDict) (now : DateTime) : Prop where
  counts : ∀ window s, sumSpend receipts window now = .ok s → s = .round 4 (spent window now receipts)
  blocks : ∀ config d, checkBudget config receipts now = .ok d →
    (d.allowed = false ↔ ∃ cap, config.capUsd = some cap ∧
      cap.le ((spent config.window now receipts).max0.round 4) = true)
  monotone : ∀ config d receipt more d', Charges receipt → more.Perm (receipt :: receipts) →
    checkBudget config receipts now = .ok d → d.allowed = false →
    checkBudget config more now = .ok d' → d'.allowed = false
  ordered : (∀ r ∈ receipts, Charges r) → ∀ day week all, sumSpend receipts .day now = .ok day →
    sumSpend receipts .week now = .ok week → sumSpend receipts .all now = .ok all →
    day.le week = true ∧ week.le all = true

end

/-! Receipts for which the plain sum is not what the guard goes by. -/

/-- Texts and values that the receipts below do not have. -/
@[reducible] def plainBuiltins : Builtins := ⟨fun _ => "", fun _ => none, fun _ => none⟩

/-- Two times of the clock, in UTC. -/
@[reducible] def twoTimes : FromIso where
  fromisoformat text :=
    if text = "2026-07-06T11:00:00+00:00" then some ⟨⟨63918932400000000, by decide⟩, some 0⟩
    else if text = "2026-07-03T12:00:00+00:00" then some ⟨⟨63918676800000000, by decide⟩, some 0⟩
    else none

/-- The noon of 2026-07-06. -/
def noon : DateTime := ⟨63918936000000000, by decide⟩

def receiptOf (endedAt : String) (cost : Num) : JsonDict :=
  (JsonDict.empty.set "cost_usd" (.num cost)).set "ended_at" (.str endedAt)

section

attribute [local instance] plainBuiltins twoTimes

end

end Onmc.Budget
