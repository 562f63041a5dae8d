import Onmc.Calendar
import Onmc.DurableRuntime.Store
import Onmc.PyText
import Onmc.Regex
import Onmc.Retrieval.Rrf

/-! Retrieval over a lexical floor: candidate stages are explored and recorded, and replace the floor only after
a promotion and a confidence pass, within the token budget. -/
namespace Onmc.Retrieval

open Onmc.DurableRuntime (pyRepr)

inductive QueryIntent where
  | symbol | error | conceptual
  deriving DecidableEq

structure QueryPlan where
  query : String
  intent : QueryIntent
  requestedMode : String
  k : Int
  tokenBudget : Int
  baselineStage : String
  candidateStages : List String
  suppressedStages : List (String × String)

section

variable [Regex.Engine]

/-- `_ERROR_RE` -/
def errorRe : String :=
  "\\b(?:error|exception|traceback|failed|failure|errno|panic|segfault)\\b|" ++
    "\\b[A-Za-z_][A-Za-z0-9_]*(?:Error|Exception)\\b"

/-- `_SYMBOL_RE` -/
def symbolRe : String :=
  "(?:`[^`\\n]+`)|" ++ "(?:\\b[A-Za-z_][A-Za-z0-9_]*(?:(?:::|\\.)[A-Za-z_][A-Za-z0-9_]*)+\\b)|" ++
    "(?:\\b[A-Za-z][A-Za-z0-9]*_[A-Za-z0-9_]+\\b)"

def classifyQueryIntent (query : String) : QueryIntent :=
  if Regex.Engine.search true errorRe query then .error
  else if Regex.Engine.search false symbolRe query then .symbol
  else .conceptual

/-- The stages that a mode asks for. -/
def requestedCandidates (requestedMode : String) (rerankerAvailable : Bool) : List String :=
  let stages := (if requestedMode = "dense" ∨ requestedMode = "hybrid" then ["dense"] else []) ++
    (if requestedMode = "hybrid" then ["rrf"] else [])
  stages ++ (if !stages.isEmpty && rerankerAvailable then ["rerank"] else [])

def buildQueryPlan (query requestedMode : String) (k tokenBudget : Int) (denseAvailable rerankerAvailable : Bool) :
    Except String QueryPlan :=
  if requestedMode ∉ ["bm25", "dense", "hybrid"] then
    .error ("Unknown mode " ++ pyRepr requestedMode ++ "; expected one of ['bm25', 'dense', 'hybrid']")
  else if k < 1 then .error "k must be positive"
  else if tokenBudget < 0 then .error "token_budget must be non-negative"
  else
    let intent := classifyQueryIntent query
    let requested := requestedCandidates requestedMode rerankerAvailable
    if intent = .symbol ∨ intent = .error then
      let suppressed := requested.map (fun stage => (stage, "lexical_dominant_query")) ++
        (if rerankerAvailable && !requested.contains "rerank" then [("rerank", "lexical_dominant_query")] else [])
      .ok ⟨query, intent, requestedMode, k, tokenBudget, "bm25", [], suppressed⟩
    else
      let unavailable (stage : String) : Bool := (stage == "dense" || stage == "rrf") && !denseAvailable
      let suppressed := (requested.filter unavailable).map (fun stage => (stage, "dependency_unavailable")) ++
        (if !requested.isEmpty && !rerankerAvailable then [("rerank", "dependency_unavailable")] else [])
      .ok ⟨query, intent, requestedMode, k, tokenBudget, "bm25", requested.filter (fun stage => !unavailable stage),
        suppressed⟩

end

structure RetrievalHit where
  docId : String
  score : ℚ
  evidence : String
  rank : Nat

structure RetrievalProvenance where
  stage : String
  backend : String
  resultIds : List String

structure RetrievalDecision where
  queryPlan : QueryPlan
  selectedStage : String
  hits : List RetrievalHit
  confidence : ℚ
  minCandidateConfidence : ℚ
  tokenBudget : Int
  usedTokens : Nat
  abstained : Bool
  fallbackReason : String
  candidatePromoted : Bool
  provenance : List RetrievalProvenance

/-- `BM25Corpus.score`: the Okapi score of a query against a document of a corpus. -/
class Okapi where
  score : List String → String → Nat → ℚ

/-- An embedder, as far as dense retrieval looks at it: queries whose vector is zero, and cosine similarities. -/
structure Embedder where
  embedderId : String
  zero : String → Bool
  cosineSimilarity : String → String → ℚ

/-- An injected reranker; `documents` are the texts by id. -/
structure Reranker where
  rerankerId : String
  rerank : (query : String) → Ranked → (documents : List (String × String)) → Ranked

structure HybridRetriever where
  docIds : List String
  texts : List String
  evidenceTexts : List String
  embedder : Embedder
  rrfK : Int
  minScore : ℚ
  sameTexts : docIds.length = texts.length
  sameEvidence : evidenceTexts.length = docIds.length

/-- `items[:k]` -/
def slice {α : Type} (items : List α) (k : Int) : List α :=
  if 0 ≤ k then items.take k.toNat else items.take (items.length + k).toNat

/-- The loop of `apply_reranker` over what came back. -/
def checkReranked (allowed : List String) : List String → Ranked → Except String Unit
  | _, [] => .ok ()
  | seen, (docId, _) :: rest =>
    if docId ∉ allowed then .error ("reranker returned unknown document id: " ++ docId)
    else if docId ∈ seen then .error ("reranker returned duplicate document id: " ++ docId)
    else checkReranked allowed (docId :: seen) rest

def applyReranker (reranker : Reranker) (query : String) (ranking : Ranked) (documents : List (String × String)) :
    Except String Ranked := do
  let reranked := reranker.rerank query ranking documents
  checkReranked (ids ranking) [] reranked
  .ok reranked

/-- `_bm25_confidence` -/
def bm25Confidence : Ranked → ℚ
  | [] => 0
  | (_, score) :: _ =>
    let top := max 0 score
    min 1 (top / (top + 1))

/-- `_dense_confidence` -/
def denseConfidence : Ranked → ℚ
  | [] => 0
  | (_, score) :: rest =>
    let top := max 0 (min 1 score)
    let second := match rest with
      | (_, score) :: _ => max 0 (min 1 score)
      | [] => 0
    let margin := max 0 (top - second)
    min 1 (85 / 100 * top + 15 / 100 * margin)

/-- `round(x, 6)` -/
def round6 (x : ℚ) : ℚ := (DateTime.roundHalfEven (x.num * 1000000) x.den : ℚ) / 1000000

namespace HybridRetriever

variable (r : HybridRetriever)

/-- `BM25Corpus.retrieve` over the whole corpus: documents with a score above zero, best first. -/
def bm25 [Okapi] (query : String) : Ranked :=
  let scored := r.docIds.zipIdx.map (fun entry => (entry.1, Okapi.score r.texts query entry.2))
  ((sorted scored).take r.docIds.length).filter (fun item => 0 < item.2)

/-- `DenseRetriever.retrieve` over the whole corpus. -/
def dense (query : String) : Ranked :=
  if r.embedder.zero query then []
  else
    let scores := (r.docIds.zip r.texts).map (fun doc => (doc.1, r.embedder.cosineSimilarity query doc.2))
    (sorted scores).take r.docIds.length

/-- `self._evidence_texts[idx]`, the last of an id that is there twice. -/
def evidenceOf (docId : String) : String := ((r.docIds.zip r.evidenceTexts).reverse.lookup docId).getD ""

def evidenceTokens (docId : String) : Nat := (PyText.words (r.evidenceOf docId)).length

/-- The loop of `_pack`. -/
def packLoop (tokenBudget : Option Int) (allowOversizedFirst : Bool) (hits : List RetrievalHit) (accumulated : Nat) :
    Ranked → List RetrievalHit × Nat
  | [] => (hits, accumulated)
  | (docId, score) :: rest =>
    let tokens := r.evidenceTokens docId
    if tokenBudget.any (fun (budget : Int) => decide (budget < ↑(accumulated + tokens))) &&
        (!hits.isEmpty || !allowOversizedFirst) then (hits, accumulated)
    else packLoop tokenBudget allowOversizedFirst
      (hits ++ [⟨docId, score, r.evidenceOf docId, hits.length + 1⟩]) (accumulated + tokens) rest

/-- `_pack` -/
def pack (ranked : Ranked) (k : Int) (tokenBudget : Option Int) (allowOversizedFirst : Bool) :
    List RetrievalHit × Nat :=
  match ranked with
  | [] => ([], 0)
  | top :: _ =>
    if 0 < r.minScore ∧ top.2 < r.minScore then ([], 0)
    else r.packLoop tokenBudget allowOversizedFirst [] 0 (slice ranked k)

/-- The candidate ranking under way, with its stage and what was explored. -/
structure Candidate where
  ranked : Ranked
  stage : String
  provenance : List RetrievalProvenance

/-- The candidate stages of a plan: the dense ranking, fused where the plan asks for it, reranked where it does. -/
def explore [Okapi] (plan : QueryPlan) (query : String) (k : Int) (reranker : Option Reranker) :
    Except String Candidate := do
  let recorded (stage backend : String) (ranked : Ranked) : RetrievalProvenance := ⟨stage, backend, ids (slice ranked k)⟩
  let dense : Candidate := ⟨r.dense query, "dense", [recorded "dense" r.embedder.embedderId (r.dense query)]⟩
  let fused ← if plan.candidateStages.contains "rrf" then do
      let ranked ← reciprocalRankFusion [r.bm25 query, r.dense query] r.rrfK
      .ok (Candidate.mk ranked "hybrid" (dense.provenance ++ [recorded "rrf" ("rrf-k" ++ toString r.rrfK) ranked]))
    else .ok dense
  match reranker with
  | some reranker =>
    if plan.candidateStages.contains "rerank" then do
      let ranked ← applyReranker reranker query fused.ranked
        ((r.docIds.zip r.texts).foldl (fun items doc => Dict.setItem doc.1 doc.2 items) [])
      .ok ⟨ranked, fused.stage ++ "+rerank", fused.provenance ++ [recorded "rerank" reranker.rerankerId ranked]⟩
    else .ok fused
  | none => .ok fused

/-- What is selected: the stage, its hits and tokens, the confidence and why a candidate was passed over. -/
structure Selection where
  stage : String
  hits : List RetrievalHit
  usedTokens : Nat
  confidence : ℚ
  fallbackReason : String

/-- The choice between the floor and an explored candidate. -/
def choose (floor : Selection) (candidate : Candidate) (k tokenBudget : Int) (denseRanked : Ranked)
    (candidatePromoted : Bool) (minCandidateConfidence : ℚ) : Selection :=
  let packed := r.pack candidate.ranked k (some tokenBudget) false
  let confidence := denseConfidence denseRanked
  if !candidatePromoted then { floor with fallbackReason := "candidate_not_promoted" }
  else if confidence < minCandidateConfidence then { floor with fallbackReason := "candidate_low_confidence" }
  else if packed.1.isEmpty then { floor with fallbackReason := "candidate_token_budget_exhausted" }
  else ⟨candidate.stage, packed.1, packed.2, confidence, ""⟩

/-- The stage whose hits are taken, under a plan, and what was explored for it. -/
def select [Okapi] (plan : QueryPlan) (query : String) (k : Int) (requestedMode : String) (candidatePromoted : Bool)
    (minCandidateConfidence : ℚ) (tokenBudget : Int) (reranker : Option Reranker) :
    Except String (Selection × List RetrievalProvenance) :=
  let bm25Ranked := r.bm25 query
  let packed := r.pack bm25Ranked k (some tokenBudget) false
  let explored := [RetrievalProvenance.mk "bm25" "okapi-bm25" (ids (slice bm25Ranked k))]
  let floor : Selection := ⟨"bm25", packed.1, packed.2, bm25Confidence bm25Ranked, ""⟩
  if !plan.candidateStages.isEmpty then do
    let candidate ← r.explore plan query k reranker
    .ok (r.choose floor candidate k tokenBudget (r.dense query) candidatePromoted minCandidateConfidence,
      explored ++ candidate.provenance)
  else if requestedMode ≠ "bm25" then
    let reason := if (plan.suppressedStages.map Prod.snd).contains "lexical_dominant_query" then
      "lexical_dominant_query" else "candidate_dependency_unavailable"
    .ok ({ floor with fallbackReason := reason }, explored)
  else .ok (floor, explored)

def retrieveMeasured [Regex.Engine] [Okapi] (query : String) (k : Int) (requestedMode : String)
    (candidatePromoted : Bool) (minCandidateConfidence : ℚ) (tokenBudget : Int) (embeddingsEnabled : Bool)
    (reranker : Option Reranker) : Except String RetrievalDecision :=
  if minCandidateConfidence < 0 ∨ 1 < minCandidateConfidence then
    .error "min_candidate_confidence must be between 0 and 1"
  else do
    let plan ← buildQueryPlan query requestedMode k tokenBudget embeddingsEnabled reranker.isSome
    let (selection, provenance) ← r.select plan query k requestedMode candidatePromoted minCandidateConfidence
      tokenBudget reranker
    let fallbackReason :=
      if selection.hits.isEmpty then
        if !(r.bm25 query).isEmpty && decide (0 ≤ tokenBudget) then "token_budget_exhausted"
        else if selection.fallbackReason ≠ "" then selection.fallbackReason else "no_relevant_context"
      else selection.fallbackReason
    .ok ⟨plan, selection.stage, selection.hits, round6 selection.confidence, minCandidateConfidence, tokenBudget,
      selection.usedTokens, selection.hits.isEmpty, fallbackReason, candidatePromoted, provenance⟩

end HybridRetriever

end Onmc.Retrieval
