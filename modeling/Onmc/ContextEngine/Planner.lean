import Mathlib.Data.List.Lex
import Mathlib.Data.List.Sort
import Mathlib.Data.String.Basic
import Mathlib.Order.Defs.LinearOrder
import Onmc.Breadth
import Onmc.Dict
import Onmc.PyText

/-! The context planner: candidates are screened, scoped, deduplicated, ranked and packed. -/
namespace Onmc.ContextPlan

/-- Floating-point numbers, none of them a NaN, as far as the planner computes with them. -/
class Floats (V : Type) where
  zero : V
  add : V → V → V
  sub : V → V → V
  mul : V → V → V
  /-- A number divided by an integer, which may be too large to convert. -/
  dividedBy : V → Nat → Option V
  /-- An integer divided by another. -/
  ratio : Nat → Nat → V
  /-- `0.65` is sixty-five of them, `1.0` a hundred. -/
  hundredths : Nat → V
  /-- `round(x, 12)` -/
  stableFloat : V → V

inductive RetrievalMode where
  | «local» | global | impact | history | drift
  deriving DecidableEq

inductive TrustLevel where
  | trusted | untrusted
  deriving DecidableEq

structure Candidate (V : Type) where
  id : String
  content : String
  source : String
  tokenCount : Nat
  provenance : List String
  freshness : V
  structuralScore : V
  historyScore : V
  memoryScore : V
  semanticScore : Option V
  dedupeKey : Option String
  metadata : List (String × String)
  path : Option String
  symbol : Option String
  startLine : Option Int
  endLine : Option Int
  trust : TrustLevel
  deriving DecidableEq

structure ScoreSignals (V : Type) where
  lexical : V
  structural : V
  history : V
  memory : V
  semantic : Option V
  freshness : V

structure Citation where
  candidateId : String
  source : String
  provenance : List String
  path : Option String
  symbol : Option String
  startLine : Option Int
  endLine : Option Int
  trust : TrustLevel

structure Evidence (V : Type) where
  candidateId : String
  content : String
  tokenCount : Nat
  score : V
  contextRoi : V
  graphDepth : Option Nat
  signals : ScoreSignals V
  citations : List Citation
  metadata : List (String × String)
  trust : TrustLevel

structure Exclusion where
  candidateId : String
  reason : String
  detail : String
  deriving DecidableEq

structure EvidencePacket (V : Type) where
  query : String
  mode : RetrievalMode
  tokenBudget : Int
  usedTokens : Nat
  evidence : List (Evidence V)
  exclusions : List Exclusion
  noOp : Bool
  confidence : V
  lowConfidence : Bool

structure PlannerConfig (V : Type) where
  minContextRoi : V
  minFreshness : V
  maxGraphDepth : Nat
  maxGraphNodes : Nat
  freshnessWeight : V
  minConfidence : V
  utilityFirst : Bool

structure ContextEngine (V : Type) where
  config : PlannerConfig V
  candidateProviders : List (String → RetrievalMode → List (Candidate V))
  /-- `neighbors` of the graph provider, if there is one. -/
  graphProvider : Option (String → List String)

/-- `_TOKEN_RE.findall`, lowered -/
def tokens [Lowercase] (value : String) : List String :=
  (PyText.runs (fun c => !c.isAlphanum) value.toList).map (fun run => Lowercase.lower (String.ofList run))

section

variable {V : Type}

/-- `_candidate_order` -/
def candidateOrder (item : Candidate V) : List String := [item.id, item.source, item.content]

/-- `_unique_candidates`, the candidates kept so far first. -/
def uniqueFrom [DecidableEq V] (unique : List (Candidate V)) : List (Candidate V) → Except String (List (Candidate V))
  | [] => .ok unique
  | item :: rest =>
    match unique.find? (fun previous => previous.id = item.id) with
    | none => uniqueFrom (unique ++ [item]) rest
    | some previous =>
      if previous ≠ item then .error ("conflicting candidates share id: " ++ item.id) else uniqueFrom unique rest

/-- The candidates in their order, one for each id. -/
def uniqueCandidates [DecidableEq V] (supplied : List (Candidate V)) : Except String (List (Candidate V)) :=
  uniqueFrom [] (supplied.insertionSort (fun item other => candidateOrder item ≤ candidateOrder other))

/-- `item.dedupe_key or " ".join(item.content.lower().split())` -/
def dedupeKeyOf [Lowercase] (item : Candidate V) : String :=
  match item.dedupeKey with
  | some key => if key ≠ "" then key else PyText.join " " (PyText.words (Lowercase.lower item.content))
  | none => PyText.join " " (PyText.words (Lowercase.lower item.content))

def citationOf (item : Candidate V) : Citation :=
  ⟨item.id, item.source, item.provenance, item.path, item.symbol, item.startLine, item.endLine, item.trust⟩

variable [LinearOrder V] [Floats V] [Lowercase]

/-- `_WEIGHTS`, in hundredths: lexical, structural, history, memory, semantic. -/
def weights : RetrievalMode → List Nat
  | .local => [65, 20, 3, 7, 5]
  | .global => [25, 15, 15, 30, 15]
  | .impact => [20, 60, 10, 5, 5]
  | .history => [15, 5, 65, 10, 5]
  | .drift => [30, 35, 10, 15, 10]

def lexicalScore (query : String) (candidate : Candidate V) : V :=
  let queryTokens := tokens query
  if queryTokens = [] then Floats.zero
  else
    let haystack := Lowercase.lower (PyText.join " " [candidate.source, candidate.content])
    if PyText.contains (PyText.join " " (tokens haystack)) (PyText.join " " queryTokens) then Floats.hundredths 100
    else
      let asked := queryTokens.eraseDups
      Floats.ratio (asked.filter (fun token => (tokens haystack).contains token)).length asked.length

namespace ContextEngine

variable (engine : ContextEngine V)

def signals (item : Candidate V) (query : String) (depth : Option Nat) : ScoreSignals V :=
  let graphScore := match depth with
    | none => Floats.zero
    | some depth => Floats.ratio 1 (depth + 1)
  ⟨Floats.stableFloat (lexicalScore query item), Floats.stableFloat (max item.structuralScore graphScore),
    item.historyScore, item.memoryScore, item.semanticScore, item.freshness⟩

def score (signals : ScoreSignals V) (mode : RetrievalMode) : V :=
  let terms := [signals.lexical, signals.structural, signals.history, signals.memory,
    signals.semantic.getD Floats.zero]
  let products := (weights mode).zipWith (fun weight term => Floats.mul (Floats.hundredths weight) term) terms
  let relevance := products.tail.foldl Floats.add (products.headD Floats.zero)
  Floats.mul relevance (Floats.sub (Floats.hundredths 100)
    (Floats.mul engine.config.freshnessWeight (Floats.sub (Floats.hundredths 100) signals.freshness)))

/-- `_expand` with a graph provider; the dictionary of the candidates is given by its keys. -/
def expand (neighbors : String → List String) (seeds : List String) (candidates : List String) :
    List (String × Option Nat) :=
  (Breadth.expand candidates (fun id => (neighbors id).eraseDups.insertionSort (· ≤ ·)) engine.config.maxGraphDepth
    engine.config.maxGraphNodes seeds).map (fun (id, depth) => (id, some depth))

/-- The candidates that the query hits, in graph mode `drift` only the strongest of them. -/
def seeds (query : String) (mode : RetrievalMode) (candidates : List (Candidate V)) : List String :=
  let hits := candidates.filter (fun item => Floats.zero < lexicalScore query item)
  let strongest := hits.filter (fun item =>
    hits.all (fun other => decide (lexicalScore query other ≤ lexicalScore query item)))
  ((if mode = .drift then strongest else hits).map Candidate.id).insertionSort (· ≤ ·)

/-- `_scope`: the candidates that are in scope, with their depths. -/
def scope (query : String) (mode : RetrievalMode) (candidates : List (Candidate V)) : List (String × Option Nat) :=
  let unreached (ids : List String) : List (String × Option Nat) := ids.map (fun id => (id, none))
  match mode with
  | .global => unreached (candidates.map Candidate.id)
  | .history =>
    unreached ((candidates.filter (fun item =>
      Floats.zero < lexicalScore query item ∨ Floats.zero < item.historyScore)).map Candidate.id)
  | .local => unreached (seeds query .local candidates)
  | .impact | .drift =>
    match engine.graphProvider with
    -- Without a graph there are no strongest hits either.
    | none => unreached (seeds query .local candidates)
    | some neighbors => engine.expand neighbors (seeds query mode candidates) (candidates.map Candidate.id)

end ContextEngine

/-- A winner, the citations it carries and the candidates it stands for. -/
structure Group (V : Type) where
  winner : Candidate V
  citations : List Citation
  duplicates : List (Candidate V)

structure Ranked (V : Type) where
  candidate : Candidate V
  score : V
  roi : V
  depth : Option Nat
  signals : ScoreSignals V
  citations : List Citation

/-- A group of candidates with one key, the winner first. -/
def groupOf : List (Candidate V) → Option (Group V)
  | [] => none
  | winner :: duplicates =>
    let citations := ((winner :: duplicates).map citationOf).insertionSort
      (fun c d => [c.source, c.candidateId] ≤ [d.source, d.candidateId])
    some ⟨winner, citations, duplicates⟩

namespace ContextEngine

variable (engine : ContextEngine V)

/-- The candidates with a key, the best first. -/
def membersOf (candidates : List (Candidate V)) (query : String) (mode : RetrievalMode)
    (depthOf : Candidate V → Option Nat) (key : String) : List (Candidate V) :=
  let value (item : Candidate V) := engine.score (signals item query (depthOf item)) mode
  (candidates.filter (fun item => dedupeKeyOf item = key)).insertionSort
    (fun item other => value other < value item ∨ (value item = value other ∧ item.id ≤ other.id))

/-- `_dedupe`, group by group. -/
def dedupe (candidates : List (Candidate V)) (query : String) (mode : RetrievalMode)
    (depthOf : Candidate V → Option Nat) : List (Group V) :=
  ((candidates.map dedupeKeyOf).eraseDups.insertionSort (· ≤ ·)).filterMap
    (fun key => groupOf (engine.membersOf candidates query mode depthOf key))

/-- The winners worth their tokens, and the exclusions of the others. -/
def rank (query : String) (mode : RetrievalMode) (depthOf : Candidate V → Option Nat) :
    List (Group V) → Except String (List (Ranked V) × List Exclusion)
  | [] => .ok ([], [])
  | group :: rest =>
    let item := group.winner
    let signals := signals item query (depthOf item)
    let score := engine.score signals mode
    match Floats.dividedBy score (max item.tokenCount 1) with
    | none => .error "int too large to convert to float"
    | some roi => do
      let (ranked, exclusions) ← rank query mode depthOf rest
      if roi < engine.config.minContextRoi then return (ranked, ⟨item.id, "below_roi", ""⟩ :: exclusions)
      else return (⟨item, score, roi, depthOf item, signals, group.citations⟩ :: ranked, exclusions)

/-- The order of packing. -/
def rankLe (r s : Ranked V) : Prop :=
  let key (r : Ranked V) := if engine.config.utilityFirst then (r.roi, r.score) else (r.score, r.roi)
  (key s).1 < (key r).1 ∨ ((key r).1 = (key s).1 ∧
    ((key s).2 < (key r).2 ∨ ((key r).2 = (key s).2 ∧ r.candidate.id ≤ s.candidate.id)))

instance : DecidableRel engine.rankLe := fun _ _ => inferInstanceAs (Decidable (_ ∨ _))

end ContextEngine

/-- What has been packed, what did not fit, and the tokens used. -/
structure Packing (V : Type) where
  packed : List (Evidence V)
  exclusions : List Exclusion
  used : Nat

def evidenceOf (r : Ranked V) : Except String (Evidence V) :=
  let item := r.candidate
  if (item.metadata.map Prod.fst).Nodup then
    .ok ⟨item.id, item.content, item.tokenCount, Floats.stableFloat r.score, Floats.stableFloat r.roi, r.depth,
      r.signals, r.citations, item.metadata, item.trust⟩
  else .error "evidence metadata keys must be unique"

def pack (tokenBudget : Int) (p : Packing V) : List (Ranked V) → Except String (Packing V)
  | [] => .ok p
  | r :: rest =>
    if tokenBudget < p.used + r.candidate.tokenCount then
      pack tokenBudget { p with exclusions := p.exclusions ++ [⟨r.candidate.id, "token_budget", ""⟩] } rest
    else do
      let evidence ← evidenceOf r
      pack tokenBudget { p with packed := p.packed ++ [evidence], used := p.used + r.candidate.tokenCount } rest

/-- The exclusions as the dictionary that the planner fills in this order. -/
def exclusionDict (exclusions : List Exclusion) : List (String × Exclusion) :=
  exclusions.foldl (fun dict x => Dict.setItem x.candidateId x dict) []

def sortedExclusions (exclusions : List Exclusion) : List Exclusion :=
  ((exclusionDict exclusions).insertionSort (fun x y => x.1 ≤ y.1)).map Prod.snd

/-- The first look at a candidate. -/
def screen (config : PlannerConfig V) (item : Candidate V) : Option String :=
  if item.provenance = [] then some "missing_provenance"
  else if item.freshness < config.minFreshness then some "stale"
  else none

def scopeReason : RetrievalMode → String
  | .impact | .drift => "graph_scope"
  | _ => "mode_scope"

namespace ContextEngine

variable (engine : ContextEngine V)

/-- Everything that is supplied, the direct candidates first. -/
def supplied (query : String) (candidates : List (Candidate V)) (mode : RetrievalMode) : List (Candidate V) :=
  candidates ++ engine.candidateProviders.flatMap (fun provider => provider query mode)

/-- `plan`, from the unique candidates on. -/
def planOrdered (query : String) (mode : RetrievalMode) (tokenBudget : Int) (ordered : List (Candidate V)) :
    Except String (EvidencePacket V) := do
  let screened := ordered.filterMap (fun item =>
    (screen engine.config item).map (fun reason => (⟨item.id, reason, ""⟩ : Exclusion)))
  let valid := ordered.filter (fun item => (screen engine.config item).isNone)
  let depths := engine.scope query mode valid
  let unscoped := ((valid.map Candidate.id).filter (fun id => id ∉ Dict.keys depths)).insertionSort (· ≤ ·)
  let inScope := ((Dict.keys depths).insertionSort (· ≤ ·)).filterMap (fun id => valid.find? (fun item => item.id = id))
  let depthOf (item : Candidate V) : Option Nat := (depths.lookup item.id).join
  let groups := engine.dedupe inScope query mode depthOf
  let duplicates := groups.flatMap (fun group =>
    group.duplicates.map (fun item => (⟨item.id, "duplicate", "same as " ++ group.winner.id⟩ : Exclusion)))
  let (ranked, belowRoi) ← engine.rank query mode depthOf groups
  let packing ← pack tokenBudget ⟨[], [], 0⟩ (ranked.insertionSort engine.rankLe)
  let confidence := Floats.stableFloat (match packing.packed.map Evidence.score with
    | [] => Floats.zero
    | best :: scores => scores.foldl max best)
  return ⟨query, mode, tokenBudget, packing.used, packing.packed,
    sortedExclusions (screened ++ unscoped.map (fun id => ⟨id, scopeReason mode, ""⟩) ++ duplicates ++ belowRoi ++
      packing.exclusions),
    packing.packed.isEmpty, confidence,
    packing.packed.isEmpty || decide (confidence < engine.config.minConfidence)⟩

def plan (query : String) (candidates : List (Candidate V)) (mode : RetrievalMode) (tokenBudget : Int) :
    Except String (EvidencePacket V) :=
  if tokenBudget < 0 then .error "token_budget must be non-negative"
  else do
    let ordered ← uniqueCandidates (engine.supplied query candidates mode)
    engine.planOrdered query mode tokenBudget ordered

end ContextEngine

end

end Onmc.ContextPlan
