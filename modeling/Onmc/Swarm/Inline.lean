import Onmc.Dict
import Onmc.Loop.Receipt

/-! Inline swarms: a finished unit is recorded as a receipt and as its entry in the manifest. The manifest is
whatever JSON document the file holds, if it holds one. -/
namespace Onmc.Swarm.Inline

open Onmc.Loop

/-- `manifest.json`: not readable, not UTF-8, not JSON, or a document. -/
inductive Manifest where
  | unreadable
  | undecodable
  | malformed
  | document (v : Json)

structure RecordArgs where
  unitId : String
  goal : String
  summary : String
  verified : Bool
  aborted : Bool
  filesTouched : List String
  tokens : Option Int
  costUsd : Option Decimal
  agent : String
  onmcVersion : String
  now : String
  /-- The injected gate, and what it answers; an answer `none` is an exception. -/
  verifier : Option (Option Bool)

structure UnitOutcome where
  status : String
  stopReason : String
  verified : Bool
  ranVerifier : Bool

/-- What the arguments say about the unit, unless the verifier raises. -/
def outcome (args : RecordArgs) : Option UnitOutcome :=
  let judged : Option (Bool × Bool) := match args.verifier with
    | some answer => if args.aborted then some (args.verified, false) else answer.map (·, true)
    | none => some (args.verified, false)
  judged.map fun (verified, ranVerifier) =>
    if args.aborted then ⟨"aborted", "aborted", verified, ranVerifier⟩
    else if verified then ⟨"done", "converged", verified, ranVerifier⟩
    else ⟨"failed", "subagent-failed", verified, ranVerifier⟩

def unitReceipt (env : Environment) (repoRoot : String) (args : RecordArgs) (o : UnitOutcome) : RunReceipt :=
  let contract : IterationContract := {
    iteration := 1
    prediction := PyText.first 120 args.summary
    actionSummary := PyText.first 400 args.summary
    filesTouched := args.filesTouched
    verifyPassed := o.verified
    verifyOutput := PyText.first 2000 args.summary
    outcome := if o.verified then .win else .loss
    tokens := args.tokens }
  let result : LoopResult := {
    iterations := [contract]
    converged := o.verified
    stopReason := o.stopReason
    totalTokens := args.tokens.getD 0
    totalCostUsd := args.costUsd }
  buildReceipt env result ⟨args.goal⟩ { verifyCommand := "<subagent>" } repoRoot args.agent none (.ofInt 0)
    args.onmcVersion (some args.now) (some args.now) none

/-- The fields that are set in the entry of the unit. -/
def entryFields (args : RecordArgs) (o : UnitOutcome) (receiptPath : String) : List (String × Json) :=
  let error : Json := if o.status ≠ "failed" then .null
    else .str (if args.summary = "" then "subagent did not verify" else PyText.first 300 args.summary)
  [("status", .str o.status), ("verified", .bool o.verified),
    ("cost_usd", .num (.float (args.costUsd.getD (.ofInt 0)))), ("receipt_path", .str receiptPath), ("error", error)]

/-- `entry[key] = value` for each of the fields. -/
def setFields (fields : List (String × Json)) (entry : List (String × Json)) : List (String × Json) :=
  fields.foldl (fun entry field => Dict.setItem field.1 field.2 entry) entry

def isText (text : String) : Json → Bool
  | .str s => s == text
  | _ => false

/-- The manifest that is written: none when it is left as it is, an error when the document has another shape. -/
def updateInlineManifest (manifest : Manifest) (unitId : String) (fields : List (String × Json)) :
    Except Unit (Option Manifest) :=
  match manifest with
  | .unreadable | .malformed => .ok none
  | .undecodable => .error ()
  | .document (.obj top) =>
    match top.lookup "units" with
    | none => .ok none
    | some (.obj units) =>
      match units.lookup unitId with
      | none => .ok none
      | some (.obj entry) =>
        .ok (some (.document (.obj (Dict.setItem "units"
          (.obj (Dict.setItem unitId (.obj (setFields fields entry)) units)) top))))
      | some _ => .error ()
    | some (.arr items) => if items.any (isText unitId) then .error () else .ok none
    | some (.str s) => if PyText.contains s unitId then .error () else .ok none
    | some _ => .error ()
  | .document _ => .error ()

/-- What a call leaves: the receipt it wrote, the manifest, and what it returned unless it raised. -/
structure Recorded where
  receipt : Option RunReceipt
  manifest : Manifest
  returned : Option UnitOutcome

def receiptPath (repoRoot : String) (receipt : RunReceipt) : String :=
  repoRoot ++ "/.agent-memory/receipts/run-" ++ PyText.first 8 receipt.loopSpecSha ++ "-" ++
    PyText.first 8 receipt.receiptHash ++ ".json"

def recordInlineUnit (env : Environment) (repoRoot : String) (manifest : Manifest) (args : RecordArgs) : Recorded :=
  match outcome args with
  | none => ⟨none, manifest, none⟩
  | some o =>
    let receipt := unitReceipt env repoRoot args o
    match updateInlineManifest manifest args.unitId (entryFields args o (receiptPath repoRoot receipt)) with
    | .error _ => ⟨some receipt, manifest, none⟩
    | .ok written => ⟨some receipt, written.getD manifest, some o⟩

/-! What the manifest says of a unit. -/

/-- `manifest["units"]`, where it is an object. -/
def unitsOf : Manifest → List (String × Json)
  | .document (.obj top) =>
    match top.lookup "units" with
    | some (.obj units) => units
    | _ => []
  | _ => []

def entryOf (manifest : Manifest) (unitId : String) : Option (List (String × Json)) :=
  match (unitsOf manifest).lookup unitId with
  | some (.obj entry) => some entry
  | _ => none

/-- The unit is done: it was not cut short, and a verifier that was supplied ran and answered yes. -/
structure Earned (args : RecordArgs) (manifest : Manifest) : Prop where
  finished : args.aborted = false
  done : ∃ o, outcome args = some o ∧ o.status = "done" ∧
    ∀ answer, args.verifier = some answer → o.ranVerifier = true ∧ answer = some true
  entry : ∀ entry, entryOf manifest args.unitId = some entry → entry.lookup "status" = some (.str "done")

structure Honest (before : Manifest) (args : RecordArgs) (left : Recorded) : Prop where
  earned : ∀ receipt, left.receipt = some receipt →
    (receipt.verified = true ∨
      ∃ entry, entryOf left.manifest args.unitId = some entry ∧ entry.lookup "verified" = some (.bool true)) →
    Earned args left.manifest
  agree : ∀ receipt entry, left.receipt = some receipt → entryOf left.manifest args.unitId = some entry →
    entry.lookup "verified" = some (.bool receipt.verified)
  others : ∀ other, other ≠ args.unitId → (unitsOf left.manifest).lookup other = (unitsOf before).lookup other

/-! The outcome and the receipt. -/

@[simp] theorem unitReceipt_verified (env : Environment) (repoRoot : String) (args : RecordArgs) (o : UnitOutcome) :
    (unitReceipt env repoRoot args o).verified = o.verified := by
  simp [unitReceipt, buildReceipt, receiptVerified]

/-- The verdict of a unit that ran to its end is the verifier's, where there is one. -/
theorem outcome_finished {args : RecordArgs} {o : UnitOutcome} (finished : args.aborted = false)
    (h : outcome args = some o) :
    (∀ answer, args.verifier = some answer → o.ranVerifier = true ∧ answer = some o.verified) ∧
      (o.verified = true → o.status = "done") := by
  unfold outcome at h
  cases gate : args.verifier with
  | none =>
    simp only [gate, finished, Option.map_some, Bool.false_eq_true, if_false, Option.some.injEq] at h
    subst h
    refine ⟨nofun, ?_⟩
    cases args.verified <;> simp
  | some answer =>
    cases answer with
    | none => simp [gate, finished] at h
    | some verdict =>
      simp only [gate, finished, Option.map_some, Bool.false_eq_true, if_false, Option.some.injEq] at h
      subst h
      cases verdict <;> simp

theorem outcome_aborted {args : RecordArgs} (aborted : args.aborted = true) :
    outcome args = some ⟨"aborted", "aborted", args.verified, false⟩ := by
  unfold outcome
  cases args.verifier with
  | none => simp [aborted]
  | some answer => simp [aborted]

/-! The manifest. -/

theorem entry_verified (args : RecordArgs) (o : UnitOutcome) (path : String) (entry : List (String × Json)) :
    (setFields (entryFields args o path) entry).lookup "verified" = some (.bool o.verified) := by
  simp [setFields, entryFields]

theorem entry_status (args : RecordArgs) (o : UnitOutcome) (path : String) (entry : List (String × Json)) :
    (setFields (entryFields args o path) entry).lookup "status" = some (.str o.status) := by
  simp [setFields, entryFields]

def withEntry (top units entry : List (String × Json)) (unitId : String) : Manifest :=
  .document (.obj (Dict.setItem "units" (.obj (Dict.setItem unitId (.obj entry) units)) top))

/-- The manifest is left as it is and has no entry of the unit, or the fields are set in its entry. -/
theorem update_cases (manifest : Manifest) (unitId : String) (fields : List (String × Json)) :
    (entryOf manifest unitId = none ∧
      (updateInlineManifest manifest unitId fields = .ok none ∨ updateInlineManifest manifest unitId fields = .error ())) ∨
    ∃ top units entry, manifest = .document (.obj top) ∧ top.lookup "units" = some (.obj units) ∧
      updateInlineManifest manifest unitId fields =
        .ok (some (withEntry top units (setFields fields entry) unitId)) := by
  cases manifest with
  | unreadable => exact .inl ⟨rfl, .inl rfl⟩
  | undecodable => exact .inl ⟨rfl, .inr rfl⟩
  | malformed => exact .inl ⟨rfl, .inl rfl⟩
  | document v =>
    cases v with
    | obj top =>
      cases found : top.lookup "units" with
      | none => exact .inl ⟨by simp [entryOf, unitsOf, found], .inl (by simp [updateInlineManifest, found])⟩
      | some value =>
        cases value with
        | obj units =>
          cases present : units.lookup unitId with
          | none =>
            exact .inl ⟨by simp [entryOf, unitsOf, found, present],
              .inl (by simp [updateInlineManifest, found, present])⟩
          | some unit =>
            cases unit with
            | obj entry =>
              exact .inr ⟨top, units, entry, rfl, found, by simp [updateInlineManifest, found, present, withEntry]⟩
            | _ =>
              exact .inl ⟨by simp [entryOf, unitsOf, found, present],
                .inr (by simp [updateInlineManifest, found, present])⟩
        | arr items =>
          refine .inl ⟨by simp [entryOf, unitsOf, found], ?_⟩
          simp only [updateInlineManifest, found]
          split <;> simp
        | str text =>
          refine .inl ⟨by simp [entryOf, unitsOf, found], ?_⟩
          simp only [updateInlineManifest, found]
          split <;> simp
        | _ => exact .inl ⟨by simp [entryOf, unitsOf, found], .inr (by simp [updateInlineManifest, found])⟩
    | _ => exact .inl ⟨rfl, .inr rfl⟩

theorem unitsOf_withEntry (top units entry : List (String × Json)) (unitId : String) :
    unitsOf (withEntry top units entry unitId) = Dict.setItem unitId (.obj entry) units := by
  simp [withEntry, unitsOf]

/-! The call. -/

/-- Whatever a call writes carries the verdict of its outcome, and other units keep their entries. -/
theorem recorded (env : Environment) (repoRoot : String) (manifest : Manifest) {args : RecordArgs} {o : UnitOutcome}
    (h : outcome args = some o) :
    let left := recordInlineUnit env repoRoot manifest args
    left.receipt = some (unitReceipt env repoRoot args o) ∧
      (∀ entry, entryOf left.manifest args.unitId = some entry →
        entry.lookup "verified" = some (.bool o.verified) ∧ entry.lookup "status" = some (.str o.status)) ∧
      ∀ other, other ≠ args.unitId → (unitsOf left.manifest).lookup other = (unitsOf manifest).lookup other := by
  intro left
  have run : left = recordInlineUnit env repoRoot manifest args := rfl
  simp only [recordInlineUnit, h] at run
  generalize receiptPath repoRoot (unitReceipt env repoRoot args o) = path at run
  rcases update_cases manifest args.unitId (entryFields args o path) with
    ⟨absent, unwritten | raised⟩ | ⟨top, units, entry, rfl, found, written⟩
  · simp only [unwritten, Option.getD_none] at run
    simp [run, absent]
  · simp only [raised] at run
    simp [run, absent]
  · simp only [written, Option.getD_some] at run
    refine ⟨by simp only [run], ?_, ?_⟩
    · intro now there
      simp only [run, entryOf, unitsOf_withEntry, Dict.lookup_setItem, if_true, Option.some.injEq] at there
      subst there
      exact ⟨entry_verified args o path entry, entry_status args o path entry⟩
    · intro other different
      have before : unitsOf (.document (.obj top)) = units := by simp only [unitsOf, found]
      simp only [run, unitsOf_withEntry, Dict.lookup_setItem, if_neg different, before]

/-- A call is honest exactly when it does not report a unit as both cut short and verified. -/
theorem recordInlineUnit_honest_iff (env : Environment) (repoRoot : String) (manifest : Manifest) (args : RecordArgs) :
    Honest manifest args (recordInlineUnit env repoRoot manifest args) ↔
      ¬ (args.aborted = true ∧ args.verified = true) := by
  constructor
  · rintro honest ⟨aborted, verified⟩
    obtain ⟨written, _, _⟩ := recorded env repoRoot manifest (outcome_aborted aborted)
    have earned := honest.earned _ written (.inl (by simp [verified]))
    have finished := earned.finished
    simp [aborted] at finished
  · intro plain
    cases judged : outcome args with
    | none =>
      have left : recordInlineUnit env repoRoot manifest args = ⟨none, manifest, none⟩ := by
        simp only [recordInlineUnit, judged]
      simp only [left]
      refine ⟨?_, ?_, fun _ _ => rfl⟩
      · intro receipt made
        cases made
      · intro receipt entry made
        cases made
    | some o =>
      obtain ⟨written, entries, others⟩ := recorded env repoRoot manifest judged
      refine ⟨?_, ?_, others⟩
      · intro receipt made stated
        simp only [written, Option.some.injEq] at made
        subst made
        have verified : o.verified = true := by
          rcases stated with stated | ⟨entry, there, stated⟩
          · simpa using stated
          · simpa [(entries entry there).1] using stated
        have finished : args.aborted = false := by
          by_contra cut
          have aborted : args.aborted = true := by simpa using cut
          simp only [outcome_aborted aborted, Option.some.injEq] at judged
          subst judged
          exact plain ⟨aborted, verified⟩
        obtain ⟨gate, done⟩ := outcome_finished finished judged
        refine ⟨finished, ⟨o, judged, done verified, ?_⟩, ?_⟩
        · intro answer supplied
          simpa [verified] using gate answer supplied
        · intro entry there
          simpa [done verified] using (entries entry there).2
      · intro receipt entry made there
        simp only [written, Option.some.injEq] at made
        subst made
        simpa using (entries entry there).1

/-- A call that claims success for a unit it reports as cut short. -/
def cutShort : RecordArgs where
  unitId := "unit-0000"
  goal := "ship"
  summary := "half done"
  verified := true
  aborted := true
  filesTouched := []
  tokens := none
  costUsd := none
  agent := "claude-code-subagent"
  onmcVersion := "1"
  now := "2026-01-01T00:00:00+00:00"
  verifier := some (some false)

theorem cutShort_verified : ¬ ∀ env repoRoot manifest args,
    Honest manifest args (recordInlineUnit env repoRoot manifest args) := by
  intro always
  have honest := always ⟨fun _ => (1, ""), "3.12", "linux"⟩ "/repo" .unreadable cutShort
  have cut : outcome cutShort = some ⟨"aborted", "aborted", true, false⟩ := outcome_aborted rfl
  have written : (recordInlineUnit ⟨fun _ => (1, ""), "3.12", "linux"⟩ "/repo" .unreadable cutShort).receipt =
      some (unitReceipt ⟨fun _ => (1, ""), "3.12", "linux"⟩ "/repo" cutShort ⟨"aborted", "aborted", true, false⟩) := by
    simp only [recordInlineUnit, cut, updateInlineManifest]
  have finished := (honest.earned _ written (.inl (by simp))).finished
  exact absurd finished (by decide)

end Onmc.Swarm.Inline
