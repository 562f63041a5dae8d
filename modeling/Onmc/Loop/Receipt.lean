import Mathlib.Data.List.Sort
import Onmc.Calendar
import Onmc.PyText
import Onmc.Sha256

/-! The run receipt of the loop: a record of one run with a hash chain over its iterations. -/
namespace Onmc.Loop

open Onmc.Sha256 (sha256)

structure LoopSpec where
  goal : String

inductive Outcome where
  | win | loss
  deriving DecidableEq

structure IterationContract where
  iteration : Nat
  prediction : String
  actionSummary : String
  filesTouched : List String
  verifyPassed : Bool
  verifyOutput : String
  outcome : Outcome
  tokens : Option Int

structure LoopResult where
  iterations : List IterationContract
  converged : Bool
  stopReason : String
  totalTokens : Int
  totalCostUsd : Option Decimal

/-- The settings that the receipt hashes. -/
structure LoopConfig where
  maxIterations : Int := 10
  budgetTokens : Option Int := none
  verifyCommand : String := "pytest"
  escalationThreshold : Int := 3
  noProgressWindow : Int := 3
  maxCostUsd : Option Decimal := none
  maxWallSeconds : Option Int := none
  duplicateActionLimit : Int := 0
  repeatedErrorLimit : Int := 0
  noChangeLimit : Int := 2

structure RunReceipt where
  schemaVersion : String
  goal : String
  agent : String
  model : Option String
  verified : Bool
  stopReason : String
  iterations : Nat
  tokensUsed : Int
  costUsd : Option Decimal
  wallSeconds : Decimal
  verifierCommand : String
  verifierFinalExit : Option Int
  gitTreeSha : Option String
  diffSha : Option String
  loopSpecSha : String
  outputDigest : String
  onmcVersion : String
  startedAt : Option String
  endedAt : Option String
  iterationHashes : List String
  receiptHash : String
  modelVersion : Option String
  promptHash : String
  toolDefsHash : String
  configHash : String
  pythonVersion : String
  platform : String

/-- The git commands of the receipt, and the interpreter it names. -/
structure Environment where
  git : List String → Int × String
  pythonVersion : String
  platform : String

/-! `str(x)` -/

def strBool (b : Bool) : String := if b then "True" else "False"

def strOption (str : α → String) : Option α → String
  | none => "None"
  | some a => str a

def strFloat (d : Decimal) : String := String.ofList (Json.renderNum (.float d))

/-- One link over the link before it. -/
def iterationHash (previous : String) (contract : IterationContract) : String :=
  let files := PyText.join "," (contract.filesTouched.insertionSort (· ≤ ·))
  let tokens := match contract.tokens with
    | some n => toString n
    | none => "none"
  let signature := PyText.first 16 (sha256 (files ++ "||" ++ PyText.first 200 contract.verifyOutput))
  sha256 (PyText.join "|" [previous, signature, strBool contract.verifyPassed, files, tokens])

/-- The links over the iterations, each over the one before it. -/
def iterationHashes : String → List IterationContract → List String
  | _, [] => []
  | previous, contract :: rest =>
    let link := iterationHash previous contract
    link :: iterationHashes link rest

def buildHashChain (result : LoopResult) : List String × String :=
  let hashes := iterationHashes "" result.iterations
  (hashes, hashes.getLast?.getD (sha256 "empty"))

def getGitTreeSha (repoRoot : String) (env : Environment) : Option String :=
  let (code, stdout) := env.git ["git", "-C", repoRoot, "rev-parse", "HEAD^{tree}"]
  if code = 0 ∧ PyText.strip stdout ≠ "" then some (PyText.strip stdout) else none

def getGitDiffSha (repoRoot : String) (env : Environment) : Option String :=
  let (code, stdout) := env.git ["git", "-C", repoRoot, "diff"]
  if code = 0 then some (sha256 stdout) else none

def buildConfigHash (config : LoopConfig) : String :=
  sha256 (PyText.join "|" [
    toString config.maxIterations, strOption toString config.budgetTokens, strOption strFloat config.maxCostUsd,
    strOption toString config.maxWallSeconds, config.verifyCommand, toString config.escalationThreshold,
    toString config.noProgressWindow, toString config.duplicateActionLimit, toString config.repeatedErrorLimit,
    toString config.noChangeLimit])

/-- `round(x, 3)` -/
def roundMillis (d : Decimal) : Decimal := .normalize (DateTime.roundHalfEven (d.coef * 1000) (10 ^ d.scale)) 3

/-- Converged, and the last iteration passed its verifier. -/
def receiptVerified (result : LoopResult) : Bool :=
  result.converged && result.iterations.getLast?.any IterationContract.verifyPassed

def buildReceipt (env : Environment) (result : LoopResult) (spec : LoopSpec) (config : LoopConfig)
    (repoRoot agent : String) (model : Option String) (wallSeconds : Decimal) (onmcVersion : String)
    (startedAt endedAt : Option String) (verifierFinalExit : Option Int) : RunReceipt where
  schemaVersion := "2"
  goal := PyText.first 500 spec.goal
  agent := agent
  model := model
  verified := receiptVerified result
  stopReason := result.stopReason
  iterations := result.iterations.length
  tokensUsed := result.totalTokens
  costUsd := result.totalCostUsd
  wallSeconds := roundMillis wallSeconds
  verifierCommand := config.verifyCommand
  verifierFinalExit := verifierFinalExit.or
    (result.iterations.getLast?.map fun last => if last.verifyPassed then 0 else 1)
  gitTreeSha := getGitTreeSha repoRoot env
  diffSha := getGitDiffSha repoRoot env
  loopSpecSha := sha256 (spec.goal ++ "||" ++ config.verifyCommand)
  outputDigest := sha256 (PyText.join "" (result.iterations.map fun c => PyText.first 200 c.verifyOutput))
  onmcVersion := onmcVersion
  startedAt := startedAt
  endedAt := endedAt
  iterationHashes := (buildHashChain result).1
  receiptHash := (buildHashChain result).2
  modelVersion := model
  promptHash := sha256 spec.goal
  toolDefsHash := sha256 (config.verifyCommand ++ ":" ++ agent)
  configHash := buildConfigHash config
  pythonVersion := env.pythonVersion
  platform := env.platform

end Onmc.Loop
