import Onmc.Retrieval.Core

/-! What a measured retrieval selects: a prefix of one ranking, within the count and the token budget, and that of
the candidate only after the promotion and the confidence pass. -/
namespace Onmc.Retrieval

theorem plan_bounds [Regex.Engine] {query requestedMode : String} {k tokenBudget : Int} {dense reranker : Bool}
    {plan : QueryPlan} (planned : buildQueryPlan query requestedMode k tokenBudget dense reranker = .ok plan) :
    1 ≤ k ∧ 0 ≤ tokenBudget := by
  unfold buildQueryPlan at planned
  split at planned
  · cases planned
  · split at planned
    · cases planned
    · split at planned
      · cases planned
      · omega

namespace HybridRetriever

variable (r : HybridRetriever)

/-- The hit of a ranked document at a place. -/
def hitOf (entry : (String × ℚ) × Nat) : RetrievalHit :=
  ⟨entry.1.1, entry.1.2, r.evidenceOf entry.1.1, entry.2 + 1⟩

/-- The hits are the first documents of a ranking, at most `k`, and their evidence fits the budget. -/
structure Packed (ranked : Ranked) (k budget : Int) (hits : List RetrievalHit) (used : Nat) : Prop where
  first : ∃ n, hits = (ranked.take n).zipIdx.map r.hitOf
  count : (hits.length : Int) ≤ k
  tokens : used = (hits.map (fun hit => (PyText.words hit.evidence).length)).sum
  fits : (used : Int) ≤ budget

/-- The loop goes on from hits that fit with the first of what is left. -/
theorem packLoop_spec (budget : Int) (hits : List RetrievalHit) (accumulated : Nat) (left : Ranked)
    (fits : (accumulated : Int) ≤ budget) :
    ∃ n, (r.packLoop (some budget) false hits accumulated left).1 =
        hits ++ ((left.take n).zipIdx hits.length).map r.hitOf ∧
      (r.packLoop (some budget) false hits accumulated left).2 =
        accumulated + ((left.take n).map (fun item => r.evidenceTokens item.1)).sum ∧
      ((r.packLoop (some budget) false hits accumulated left).2 : Int) ≤ budget := by
  induction left generalizing hits accumulated with
  | nil => exact ⟨0, by simp [packLoop], by simp [packLoop], by simpa [packLoop] using fits⟩
  | cons item left ih =>
    obtain ⟨docId, score⟩ := item
    by_cases spills : budget < (accumulated : Int) + r.evidenceTokens docId
    · have stops : r.packLoop (some budget) false hits accumulated ((docId, score) :: left) = (hits, accumulated) := by
        simp [packLoop, spills]
      rw [stops]
      exact ⟨0, by simp, by simp, fits⟩
    · have goes : r.packLoop (some budget) false hits accumulated ((docId, score) :: left) =
          r.packLoop (some budget) false (hits ++ [⟨docId, score, r.evidenceOf docId, hits.length + 1⟩])
            (accumulated + r.evidenceTokens docId) left := by
        simp [packLoop, spills]
      obtain ⟨n, same, sum, within⟩ := ih (hits ++ [⟨docId, score, r.evidenceOf docId, hits.length + 1⟩])
        (accumulated + r.evidenceTokens docId) (by omega)
      rw [goes]
      refine ⟨n + 1, ?_, ?_, within⟩
      · rw [same]
        simp [hitOf]
      · rw [sum]
        simp [Nat.add_assoc]

theorem pack_packed {ranked : Ranked} {k budget : Int} (some : 0 ≤ k) (fits : 0 ≤ budget) :
    r.Packed ranked k budget (r.pack ranked k (.some budget) false).1 (r.pack ranked k (.some budget) false).2 := by
  have empty : r.Packed ranked k budget [] 0 := ⟨⟨0, by simp⟩, some, rfl, fits⟩
  cases ranked with
  | nil => exact empty
  | cons top rest =>
    by_cases low : 0 < r.minScore ∧ top.2 < r.minScore
    · have none : r.pack (top :: rest) k (.some budget) false = ([], 0) := if_pos low
      rw [none]
      exact empty
    · have loop : r.pack (top :: rest) k (.some budget) false =
          r.packLoop (.some budget) false [] 0 (slice (top :: rest) k) := if_neg low
      rw [loop]
      obtain ⟨n, same, sum, within⟩ := r.packLoop_spec budget [] 0 (slice (top :: rest) k) fits
      have cut : slice (top :: rest) k = (top :: rest).take k.toNat := if_pos some
      refine ⟨⟨min n k.toNat, ?_⟩, ?_, ?_, within⟩
      · rw [same, cut, List.take_take]
        rfl
      · rw [same, cut, List.take_take]
        simp only [List.nil_append, List.length_map, List.length_zipIdx, List.length_take]
        omega
      · rw [sum, same, List.nil_append, List.map_map, Nat.zero_add]
        have texts : (fun hit => (PyText.words hit.evidence).length) ∘ r.hitOf =
            (fun item : String × ℚ => r.evidenceTokens item.1) ∘ Prod.fst := rfl
        rw [texts, ← List.map_map, List.length_nil, List.zipIdx_map_fst]

/-- What a candidate has to show before it replaces the floor. -/
structure Replaces [Okapi] (plan : QueryPlan) (query : String) (k : Int) (promoted : Bool) (threshold : ℚ)
    (reranker : Option Reranker) (candidate : Candidate) (hits : List RetrievalHit) : Prop where
  promoted : promoted = true
  confident : threshold ≤ denseConfidence (r.dense query)
  packs : hits ≠ []
  explored : r.explore plan query k reranker = .ok candidate

/-- Every hit comes from one ranking: the lexical one, or that of a candidate that may replace it. -/
def Selects [Okapi] (query : String) (k : Int) (promoted : Bool) (threshold : ℚ) (tokenBudget : Int)
    (reranker : Option Reranker) (d : RetrievalDecision) : Prop :=
  (d.selectedStage = "bm25" ∧ r.Packed (r.bm25 query) k tokenBudget d.hits d.usedTokens) ∨
    ∃ candidate, r.Replaces d.queryPlan query k promoted threshold reranker candidate d.hits ∧
      d.selectedStage = candidate.stage ∧ r.Packed candidate.ranked k tokenBudget d.hits d.usedTokens

theorem measured_selects [Regex.Engine] [Okapi] {query : String} {k : Int} {requestedMode : String} {promoted : Bool}
    {threshold : ℚ} {tokenBudget : Int} {embeddingsEnabled : Bool} {reranker : Option Reranker} {d : RetrievalDecision}
    (decided : r.retrieveMeasured query k requestedMode promoted threshold tokenBudget embeddingsEnabled reranker = .ok d) :
    r.Selects query k promoted threshold tokenBudget reranker d := by
  unfold retrieveMeasured at decided
  split at decided
  · cases decided
  · obtain ⟨plan, planned, decided⟩ := Except.bind_ok.mp decided
    obtain ⟨positive, fits⟩ := plan_bounds planned
    have some : 0 ≤ k := by omega
    have lexical : r.Packed (r.bm25 query) k tokenBudget _ _ := r.pack_packed some fits
    obtain ⟨⟨selection, provenance⟩, selected, decided⟩ := Except.bind_ok.mp decided
    obtain rfl := Except.ok.inj decided
    unfold select at selected
    dsimp only at selected ⊢
    split at selected
    · obtain ⟨candidate, explored, selected⟩ := Except.bind_ok.mp selected
      obtain ⟨rfl, -⟩ := Prod.mk.inj (Except.ok.inj selected)
      have packed : r.Packed candidate.ranked k tokenBudget _ _ := r.pack_packed some fits
      unfold choose
      dsimp only
      split
      · exact .inl ⟨rfl, lexical⟩
      · rename_i allowed
        split
        · exact .inl ⟨rfl, lexical⟩
        · rename_i confident
          split
          · exact .inl ⟨rfl, lexical⟩
          · rename_i hits
            refine .inr ⟨candidate, ⟨by simpa using allowed, not_lt.mp confident, ?_, explored⟩, rfl, packed⟩
            exact fun none => hits (List.isEmpty_iff.mpr none)
    · split at selected
      · obtain ⟨rfl, -⟩ := Prod.mk.inj (Except.ok.inj selected)
        exact .inl ⟨rfl, lexical⟩
      · obtain ⟨rfl, -⟩ := Prod.mk.inj (Except.ok.inj selected)
        exact .inl ⟨rfl, lexical⟩

end HybridRetriever

/-- The laws of rank fusion, with a smoothing constant that is not negative, and of measured retrieval. -/
theorem retrieval_laws [Regex.Engine] [Okapi] {rrfK : Int} (smooth : 0 ≤ rrfK) :
    (∀ rankings : List Ranked, (∀ ranking ∈ rankings, (ids ranking).Nodup) →
      ∃ fused, reciprocalRankFusion rankings rrfK = .ok fused ∧ Fuses rrfK rankings fused) ∧
    ∀ (r : HybridRetriever) (query : String) (k : Int) (requestedMode : String) (promoted : Bool) (threshold : ℚ)
      (tokenBudget : Int) (embeddingsEnabled : Bool) (reranker : Option Reranker) (d : RetrievalDecision),
      r.retrieveMeasured query k requestedMode promoted threshold tokenBudget embeddingsEnabled reranker = .ok d →
        r.Selects query k promoted threshold tokenBudget reranker d :=
  ⟨fun _ distinct => fusion_fuses smooth distinct, fun r _ _ _ _ _ _ _ _ _ decided => r.measured_selects decided⟩

/-- Two notes in two rankings that disagree. -/
def noteRankings : List Ranked := [[("n1", 2), ("n2", 1)], [("n2", 3), ("n1", 1)]]

/-- An engine for a query without errors and symbols. -/
@[reducible] def plainEngine : Regex.Engine := ⟨fun _ => true, fun _ _ _ => false⟩

@[reducible] def evenOkapi : Okapi := ⟨fun _ _ _ => 1⟩

/-- One note of two words. -/
def noteRetriever : HybridRetriever where
  docIds := ["n1"]
  texts := ["use sqlite"]
  evidenceTexts := ["use sqlite"]
  embedder := ⟨"none", fun _ => true, fun _ _ => 0⟩
  rrfK := 60
  minScore := 0
  sameTexts := rfl
  sameEvidence := rfl

theorem retrieval_laws_notes :
    (∃ fused, reciprocalRankFusion noteRankings 60 = .ok fused ∧ Fuses 60 noteRankings fused) ∧
    ∃ d, @HybridRetriever.retrieveMeasured noteRetriever plainEngine evenOkapi "sqlite" 1 "bm25" false 0 10 false none =
        .ok d ∧
      @HybridRetriever.Selects noteRetriever evenOkapi "sqlite" 1 false 0 10 none d := by
  have laws := @retrieval_laws plainEngine evenOkapi 60 (by decide)
  refine ⟨laws.1 noteRankings (by decide), _, rfl, ?_⟩
  exact laws.2 noteRetriever "sqlite" 1 "bm25" false 0 10 false none _ rfl

end Onmc.Retrieval
