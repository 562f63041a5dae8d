import Mathlib.Logic.Function.Basic
import Onmc.JsonText
import Onmc.Loop.Receipt
import Onmc.PyValue

/-! Checkpoints of the loop: what is saved after an iteration, how it is read back, and where a resumed run begins. -/
namespace Onmc

namespace JsonValue

def int (n : Int) : JsonValue := .num (.int n)

def bool (b : Bool) : JsonValue := ⟨.bool b, Json.canonical_bool b⟩

def asNum : JsonValue → Option Num
  | ⟨.num n, _⟩ => some n
  | _ => none

def asInt : JsonValue → Option Int
  | ⟨.num (.int n), _⟩ => some n
  | _ => none

def asNat (v : JsonValue) : Option Nat := v.asInt.bind Int.toNat?

def asBool : JsonValue → Option Bool
  | ⟨.bool b, _⟩ => some b
  | _ => none

/-- `None`, or what is read. -/
def asOpt {α : Type} (read : JsonValue → Option α) : JsonValue → Option (Option α)
  | ⟨.null, _⟩ => some none
  | v => (read v).map some

def strs (texts : List String) : JsonValue := list (texts.map str)

def asStrs (v : JsonValue) : Option (List String) := v.asList.bind (fun items => items.mapM asStr)

theorem mapM_map {α β : Type} {write : α → β} {read : β → Option α} (back : ∀ a, read (write a) = some a)
    (items : List α) : (items.map write).mapM read = some items := by
  induction items with
  | nil => rfl
  | cons a items ih => simp [List.mapM_cons, back, ih]

@[simp] theorem asNum_num (n : Num) : (num n).asNum = some n := rfl

@[simp] theorem asInt_int (n : Int) : (int n).asInt = some n := rfl

@[simp] theorem asNat_int (n : Nat) : (int n).asNat = some n := rfl

@[simp] theorem asBool_bool (b : Bool) : (bool b).asBool = some b := rfl

@[simp] theorem asStrs_strs (texts : List String) : (strs texts).asStrs = some texts := by
  rw [asStrs, strs, asList_list, Option.bind_some]
  exact mapM_map asStr_str texts

theorem asOpt_some {α : Type} {read : JsonValue → Option α} {v : JsonValue} {a : α} (there : read v = some a)
    (silent : read null = none) : asOpt read v = some (some a) := by
  obtain ⟨json, canonical⟩ := v
  cases json with
  | null => exact absurd (silent.symm.trans there) nofun
  | _ => exact congrArg (Option.map some) there

theorem asOpt_opt {α : Type} {write : α → JsonValue} {read : JsonValue → Option α} (back : ∀ a, read (write a) = some a)
    (silent : read null = none) (o : Option α) : asOpt read (opt write o) = some o := by
  cases o with
  | none => rfl
  | some a => exact asOpt_some (back a) silent

end JsonValue

namespace Loop

open JsonValue

/-- An iteration with the receipt of how it was routed. -/
structure RoutedContract extends IterationContract where
  routeDecision : Option JsonDict

structure CheckpointState where
  goal : String
  verifyCommand : String
  iterations : List RoutedContract
  recordedMemoryIds : List String
  totalTokens : Int
  totalCostUsd : Num
  consecutiveLosses : Int
  escalationLevel : Int
  signatureCounts : JsonDict
  consecutiveSameError : Int
  lastErrorHead : Option String

def Outcome.value : Outcome → String
  | .win => "win"
  | .loss => "loss"

def Outcome.ofValue (text : String) : Option Outcome :=
  if text = "win" then some .win else if text = "loss" then some .loss else none

/-- `asdict(contract)` -/
def RoutedContract.toDict (c : RoutedContract) : JsonDict :=
  let d := JsonDict.empty.set "iteration" (.int c.iteration)
  let d := d.set "prediction" (.str c.prediction)
  let d := d.set "action_summary" (.str c.actionSummary)
  let d := d.set "files_touched" (.strs c.filesTouched)
  let d := d.set "verify_passed" (.bool c.verifyPassed)
  let d := d.set "verify_output" (.str c.verifyOutput)
  let d := d.set "outcome" (.str c.outcome.value)
  let d := d.set "tokens" (.opt .int c.tokens)
  d.set "route_decision" (.opt .dict c.routeDecision)

/-- `d[key]`, in the type that the program expects there. -/
def need {α : Type} (read : JsonValue → Option α) (d : JsonDict) (key : String) : Option α := (d.get key).bind read

/-- `d.get(key, default)` -/
def getOr {α : Type} (read : JsonValue → Option α) (d : JsonDict) (key : String) (default : α) : Option α :=
  match d.get key with
  | none => some default
  | some v => read v

def RoutedContract.fromDict (v : JsonValue) : Option RoutedContract := do
  let c ← v.asDict
  let iteration ← need asNat c "iteration"
  let prediction ← need asStr c "prediction"
  let actionSummary ← need asStr c "action_summary"
  let filesTouched ← need asStrs c "files_touched"
  let verifyPassed ← need asBool c "verify_passed"
  let verifyOutput ← need asStr c "verify_output"
  let outcome ← (need asStr c "outcome").bind Outcome.ofValue
  let tokens ← getOr (asOpt asInt) c "tokens" none
  let routeDecision ← getOr (asOpt asDict) c "route_decision" none
  return ⟨⟨iteration, prediction, actionSummary, filesTouched, verifyPassed, verifyOutput, outcome, tokens⟩, routeDecision⟩

namespace CheckpointState

def toDict (s : CheckpointState) : JsonDict :=
  let d := JsonDict.empty.set "schema_version" (.str "1")
  let d := d.set "goal" (.str s.goal)
  let d := d.set "verify_command" (.str s.verifyCommand)
  let d := d.set "iterations" (.list (s.iterations.map (fun c => .dict c.toDict)))
  let d := d.set "recorded_memory_ids" (.strs s.recordedMemoryIds)
  let d := d.set "total_tokens" (.int s.totalTokens)
  let d := d.set "total_cost_usd" (.num s.totalCostUsd)
  let d := d.set "consecutive_losses" (.int s.consecutiveLosses)
  let d := d.set "escalation_level" (.int s.escalationLevel)
  let d := d.set "signature_counts" (.dict s.signatureCounts)
  let d := d.set "consecutive_same_error" (.int s.consecutiveSameError)
  d.set "last_error_head" (.opt .str s.lastErrorHead)

def fromDict (data : JsonDict) : Option CheckpointState := do
  let rawIterations ← getOr asList data "iterations" []
  let iterations ← rawIterations.mapM RoutedContract.fromDict
  let goal ← need asStr data "goal"
  let verifyCommand ← need asStr data "verify_command"
  let recordedMemoryIds ← getOr asStrs data "recorded_memory_ids" []
  let totalTokens ← getOr asInt data "total_tokens" 0
  let totalCostUsd ← getOr asNum data "total_cost_usd" (.float (.ofInt 0))
  let consecutiveLosses ← getOr asInt data "consecutive_losses" 0
  let escalationLevel ← getOr asInt data "escalation_level" 0
  let signatureCounts ← getOr asDict data "signature_counts" .empty
  let consecutiveSameError ← getOr asInt data "consecutive_same_error" 0
  let lastErrorHead ← getOr (asOpt asStr) data "last_error_head" none
  return ⟨goal, verifyCommand, iterations, recordedMemoryIds, totalTokens, totalCostUsd, consecutiveLosses,
    escalationLevel, signatureCounts, consecutiveSameError, lastErrorHead⟩

end CheckpointState

theorem Outcome.ofValue_value (o : Outcome) : Outcome.ofValue o.value = some o := by
  cases o <;> rfl

theorem RoutedContract.fromDict_toDict (c : RoutedContract) : RoutedContract.fromDict (.dict c.toDict) = some c := by
  simp [RoutedContract.fromDict, RoutedContract.toDict, need, getOr, JsonDict.get_set, Outcome.ofValue_value,
    asOpt_opt asInt_int rfl, asOpt_opt asDict_dict rfl]

/-- What is written is what is read. -/
theorem CheckpointState.fromDict_toDict (s : CheckpointState) : CheckpointState.fromDict s.toDict = some s := by
  have iterations := mapM_map RoutedContract.fromDict_toDict s.iterations
  simp [CheckpointState.fromDict, CheckpointState.toDict, need, getOr, JsonDict.get_set, iterations,
    asOpt_opt asStr_str rfl]

/-! The store: one file for each key. -/

/-- `_loop_spec_sha8` -/
def loopSpecSha8 (digest : String → String) (goal verifyCommand : String) : String :=
  PyText.first 8 (digest (goal ++ "||" ++ verifyCommand))

/-- The texts of the files under `.onmc/loop-state`, by name. -/
structure FileCheckpointStore where
  files : String → Option String

namespace FileCheckpointStore

def empty : FileCheckpointStore := ⟨fun _ => none⟩

def path (sha8 : String) : String := sha8 ++ ".json"

def save (store : FileCheckpointStore) (sha8 : String) (state : CheckpointState) : FileCheckpointStore :=
  ⟨Function.update store.files (path sha8) (some (Json.dumps (JsonValue.dict state.toDict).json))⟩

/-- A file that cannot be read is as good as none. -/
def load (store : FileCheckpointStore) (sha8 : String) : Option CheckpointState := do
  let text ← store.files (path sha8)
  let value ← Json.loads text
  let data ← (JsonValue.load value).asDict
  CheckpointState.fromDict data

def clear (store : FileCheckpointStore) (sha8 : String) : FileCheckpointStore :=
  ⟨Function.update store.files (path sha8) none⟩

theorem load_empty (sha8 : String) : empty.load sha8 = none := rfl

theorem path_ne {sha8 other : String} (differ : sha8 ≠ other) : path sha8 ≠ path other :=
  fun same => differ ((String.append_left_inj _).mp same)

theorem load_save (store : FileCheckpointStore) (sha8 other : String) (state : CheckpointState) :
    (store.save sha8 state).load other = if other = sha8 then some state else store.load other := by
  by_cases same : other = sha8
  · subst same
    simp only [load, save, Function.update_self, Option.bind_eq_bind, Option.bind_some, Json.loads_dumps, if_true]
    have loaded : JsonValue.load (JsonValue.dict state.toDict).json.canonical = JsonValue.dict state.toDict := by
      rw [(JsonValue.dict state.toDict).canonical, JsonValue.load_json]
    rw [loaded, JsonValue.asDict_dict, Option.bind_some, CheckpointState.fromDict_toDict]
  · rw [if_neg same]
    simp only [load, save, Function.update_of_ne (path_ne same)]

theorem load_clear (store : FileCheckpointStore) (sha8 other : String) :
    (store.clear sha8).load other = if other = sha8 then none else store.load other := by
  by_cases same : other = sha8
  · subst same
    simp [load, clear]
  · rw [if_neg same]
    simp only [load, clear, Function.update_of_ne (path_ne same)]

end FileCheckpointStore

/-! Where a run begins. -/

/-- The variables of `run_loop` that a checkpoint restores, and the first iteration to run. -/
structure LoopState where
  iterations : List RoutedContract
  recordedMemoryIds : List String
  totalTokens : Int
  totalCostUsd : Num
  consecutiveLosses : Int
  escalationLevel : Int
  signatureCounts : JsonDict
  consecutiveSameError : Int
  lastErrorHead : Option String
  lastLoss : Option RoutedContract
  tokenTelemetryComplete : Bool
  costTelemetryComplete : Bool
  shadowEscalations : Nat
  resumeFrom : Nat

namespace LoopState

def fresh : LoopState where
  iterations := []
  recordedMemoryIds := []
  totalTokens := 0
  totalCostUsd := .float (.ofInt 0)
  consecutiveLosses := 0
  escalationLevel := 0
  signatureCounts := .empty
  consecutiveSameError := 0
  lastErrorHead := none
  lastLoss := none
  tokenTelemetryComplete := true
  costTelemetryComplete := true
  shadowEscalations := 0
  resumeFrom := 1

/-- The shadow advice of an iteration was to escalate. -/
def escalated (c : RoutedContract) : Bool :=
  match ((c.routeDecision.bind (fun route => route.get "shadow_model_advice")).bind asDict) with
  | some advice => (advice.get "action").bind asStr = some "recommend-escalation"
  | none => false

def restore (saved : CheckpointState) : LoopState where
  iterations := saved.iterations
  recordedMemoryIds := saved.recordedMemoryIds
  totalTokens := saved.totalTokens
  totalCostUsd := saved.totalCostUsd
  consecutiveLosses := saved.consecutiveLosses
  escalationLevel := saved.escalationLevel
  signatureCounts := saved.signatureCounts
  consecutiveSameError := saved.consecutiveSameError
  lastErrorHead := saved.lastErrorHead
  lastLoss := saved.iterations.reverse.find? (fun c => c.outcome = .loss)
  tokenTelemetryComplete := saved.iterations.all (fun c => c.tokens.isSome)
  costTelemetryComplete := saved.iterations.isEmpty
  shadowEscalations := if saved.iterations.any escalated then 1 else 0
  resumeFrom := match saved.iterations.getLast? with
    | some last => last.iteration + 1
    | none => 1

/-- The snapshot of `_save_checkpoint` -/
def checkpoint (goal verifyCommand : String) (s : LoopState) : CheckpointState :=
  ⟨goal, verifyCommand, s.iterations, s.recordedMemoryIds, s.totalTokens, s.totalCostUsd, s.consecutiveLosses,
    s.escalationLevel, s.signatureCounts, s.consecutiveSameError, s.lastErrorHead⟩

/-- The state in which `run_loop` enters its loop. -/
def start (digest : String → String) (store : Option FileCheckpointStore) (resume : Bool) (goal verifyCommand : String) :
    LoopState :=
  match (if resume then store.bind (fun s => s.load (loopSpecSha8 digest goal verifyCommand)) else none) with
  | some saved => restore saved
  | none => fresh

end LoopState

/-- The stops after which a checkpoint is kept. -/
def resumableStops : List String := ["budget", "cost", "wall-time", "agent-unavailable", "agent-credentials"]

end Loop
end Onmc
