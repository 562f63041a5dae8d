import Onmc.Calendar
import Onmc.ExactFloat
import Onmc.PyValue
import Onmc.ToolBroker.Tokens

/-! The budget guard: the receipts of a window are added up and compared with the cap. -/
namespace Onmc.Budget

open Onmc.PyValue (Builtins Double)
open Onmc.ToolBroker (truthy)

inductive Raised where
  | overflowError
  deriving DecidableEq

/-- A time that was read: the clock, and its offset from UTC in microseconds if that was written. -/
structure Stamp where
  clock : DateTime
  offset : Option Int

/-- `datetime.fromisoformat`, nothing where it raises a value error. -/
class FromIso where
  fromisoformat : String → Option Stamp

/-! Receipts. -/

/-- `t + timedelta(microseconds=micros)` -/
def shift (t : DateTime) (micros : Int) : Except Raised DateTime :=
  if h : 0 ≤ (t.micros : Int) + micros ∧ (t.micros : Int) + micros < 315537897600000000 then
    .ok ⟨((t.micros : Int) + micros).toNat, DateTime.toNat_inRange h⟩
  else .error .overflowError

/-- `ts.replace("Z", "+00:00")` -/
def withOffset (ts : String) : String :=
  String.ofList (ts.toList.flatMap (fun c => if c = 'Z' then ['+', '0', '0', ':', '0', '0'] else [c]))

/-- `_parse_iso` -/
def parseIso [FromIso] (ts : String) : Except Raised (Option DateTime) :=
  if ts = "" then .ok none
  else
    match FromIso.fromisoformat (withOffset ts) with
    | none => .ok none
    | some ⟨clock, none⟩ => .ok (some clock)
    | some ⟨clock, some offset⟩ => (shift clock (-offset)).map some

/-- `str(data.get(key) or "")` -/
def textAt [Builtins] (data : JsonDict) (key : String) : String :=
  match data.get key with
  | none => ""
  | some v => if truthy v.json then PyValue.str v.json else ""

/-- `_receipt_when` -/
def receiptWhen [Builtins] [FromIso] (data : JsonDict) : Except Raised (Option DateTime) := do
  match ← parseIso (textAt data "ended_at") with
  | some t => return some t
  | none => parseIso (textAt data "started_at")

structure Coerced where
  verified : Bool
  costUsd : Option ExactFloat
  model : String

/-- `float(cost_raw)`: an integer too large for a float is not caught. -/
def costOf [Builtins] (raw : Json) : Except Raised (Option ExactFloat) :=
  match raw with
  | .num (.int n) =>
    match (Double.ofNum (.int n)).num with
    | .infinity _ => .error .overflowError
    | x => .ok (some (.ofNum x))
  | raw => .ok ((PyValue.float raw).map (fun x => .ofNum x.num))

/-- `_coerce_receipt` -/
def coerceReceipt [Builtins] (data : JsonDict) : Except Raised (Option Coerced) := do
  let verified := match data.get "verified" with
    | none => false
    | some v => truthy v.json
  let model := if textAt data "model" = "" then "unknown" else textAt data "model"
  match (data.get "cost_usd").map JsonValue.json with
  | none | some .null => return some ⟨verified, none, model⟩
  | some raw =>
    match ← costOf raw with
    | none => return none
    | some cost => return some ⟨verified, some cost, model⟩

/-! The cost report, as far as the guard needs it. -/

structure CostReport where
  since : DateTime
  now : DateTime
  days : Nat
  totalRuns : Nat
  totalCostUsd : ExactFloat
  costUnknownCount : Nat
  verifiedCount : Nat
  excludedUndatedCount : Nat

section

variable [Builtins] [FromIso]

/-- The receipts from `since` to `now`, and how many have no time. -/
def inWindow (since now : DateTime) : List JsonDict → Except Raised (List Coerced × Nat)
  | [] => .ok ([], 0)
  | raw :: receipts => do
    match ← coerceReceipt raw with
    | none => inWindow since now receipts
    | some coerced =>
      match ← receiptWhen raw with
      | none =>
        let (included, undated) ← inWindow since now receipts
        return (included, undated + 1)
      | some time =>
        let (included, undated) ← inWindow since now receipts
        if time.micros < since.micros ∨ now.micros < time.micros then return (included, undated)
        else return (coerced :: included, undated)

def buildCostReport (receipts : List JsonDict) (now : DateTime) (days : Nat) : Except Raised CostReport := do
  let windowDays := max 1 days
  let since ← shift now (-(windowDays * DateTime.dayMicros : Nat))
  let (included, undated) ← inWindow since now receipts
  return {
    since := since
    now := now
    days := windowDays
    totalRuns := included.length
    totalCostUsd := .round 4 (included.filterMap Coerced.costUsd).sum
    costUnknownCount := included.countP (fun c => c.costUsd.isNone)
    verifiedCount := included.countP Coerced.verified
    excludedUndatedCount := undated }

/-! The guard. -/

inductive Window where
  | day | week | all
  deriving DecidableEq

/-- The earliest of the receipts' times. -/
def earliest : Option DateTime → List JsonDict → Except Raised (Option DateTime)
  | found, [] => .ok found
  | found, raw :: receipts => do
    match ← receiptWhen raw with
    | none => earliest found receipts
    | some time =>
      match found with
      | none => earliest (some time) receipts
      | some first => earliest (some (if time.micros < first.micros then time else first)) receipts

/-- `_span_days` -/
def spanDays (receipts : List JsonDict) (now : DateTime) : Except Raised Nat := do
  match ← earliest none receipts with
  | none => return 1
  | some first => return (max 1 (((now.micros : Int) - first.micros).tdiv DateTime.dayMicros + 1)).toNat

def windowDays (window : Window) (receipts : List JsonDict) (now : DateTime) : Except Raised Nat :=
  match window with
  | .day => .ok 1
  | .week => .ok 7
  | .all => spanDays receipts now

def sumSpend (receipts : List JsonDict) (window : Window) (now : DateTime) : Except Raised ExactFloat := do
  let days ← windowDays window receipts now
  let report ← buildCostReport receipts now days
  return report.totalCostUsd

end

inductive State where
  | ok | warn | blocked
  deriving DecidableEq

/-- The reason of a decision, with the values its text shows. -/
inductive Reason where
  | off
  | blocked (spend cap : ExactFloat) (window : Window)
  | warning (spend ratio cap warn : ExactFloat)
  | within (spend cap : ExactFloat)

structure BudgetDecision where
  allowed : Bool
  spendUsd : ExactFloat
  capUsd : Option ExactFloat
  ratio : ExactFloat
  state : State
  window : Window
  reason : Reason

open ExactFloat in
def evaluate (spendUsd : ExactFloat) (capUsd : Option ExactFloat) (warnRatio : ExactFloat) (window : Window) :
    BudgetDecision :=
  let spend := round 4 (max0 spendUsd)
  match capUsd with
  | none => ⟨true, spend, none, finite 0, .ok, window, .off⟩
  | some cap =>
    let warn := unit warnRatio
    let ratio := if le cap (finite 0) ∨ cap = nan then finite 1 else round 4 (div spend cap)
    if le cap spend then ⟨false, spend, some cap, ratio, .blocked, window, .blocked spend cap window⟩
    else if le (mul warn cap) spend then ⟨true, spend, some cap, ratio, .warn, window, .warning spend ratio cap warn⟩
    else ⟨true, spend, some cap, ratio, .ok, window, .within spend cap⟩

structure BudgetConfig where
  capUsd : Option ExactFloat
  window : Window
  warnRatio : ExactFloat

/-- `check_budget`, on the configuration and the receipts that were loaded. -/
def checkBudget [Builtins] [FromIso] (config : BudgetConfig) (receipts : List JsonDict) (now : DateTime) :
    Except Raised BudgetDecision :=
  match config.capUsd with
  | none => .ok (evaluate (.finite 0) none config.warnRatio config.window)
  | some cap => do
    let spend ← sumSpend receipts config.window now
    return evaluate spend (some cap) config.warnRatio config.window

end Onmc.Budget
