import Mathlib.Algebra.BigOperators.Group.List.Basic
import Mathlib.Algebra.Order.Field.Rat
import Mathlib.Data.Prod.Lex
import Mathlib.Data.String.Basic
import Onmc.Dict
import Onmc.Greedy
import Onmc.Learning.Retire
import Onmc.Ranking

/-! Eviction by measured lift: which residents a plan pages out, and what it promises of them. Scores
are exact. -/
namespace Onmc.ContextEngine

open Onmc.Learning (LiftVerdict)

structure ResidentItem where
  itemId : String
  tokens : ℤ
  recency : ℚ
  relevance : ℚ
  isProtected : Bool
  deriving DecidableEq

/-- What the plan reads of a `MemoryLift`. -/
structure MeasuredLift where
  memoryId : String
  meanLift : ℚ
  verdict : LiftVerdict

structure EvictionPlan where
  evict : List String
  freedTokens : ℤ
  shortfallTokens : ℤ
  deriving DecidableEq

/-- `{entry.memory_id: entry for entry in ledger}` -/
def liftById (ledger : List MeasuredLift) : List (String × MeasuredLift) :=
  ledger.foldl (fun byId entry => Dict.setItem entry.memoryId entry byId) []

def harmful (ledger : List MeasuredLift) (item : ResidentItem) : Bool :=
  match (liftById ledger).lookup item.itemId with
  | none => false
  | some entry => entry.verdict = .harmful

def evictionScore (ledger : List MeasuredLift) (item : ResidentItem) : ℚ :=
  let lift := match (liftById ledger).lookup item.itemId with
    | none => 0
    | some entry => max entry.meanLift 0
  item.recency * item.relevance * (1 + lift)

def evictionKey (ledger : List MeasuredLift) (item : ResidentItem) : Bool ×ₗ ℚ ×ₗ String :=
  toLex (!harmful ledger item, toLex (evictionScore ledger item, item.itemId))

/-- The residents that may go, in the order in which they would. -/
def evictionOrder (ledger : List MeasuredLift) (items : List ResidentItem) : List ResidentItem :=
  Ranking.sortBy (evictionKey ledger) (items.filter (fun item => !item.isProtected))

def planEviction (items : List ResidentItem) (ledger : List MeasuredLift) (tokensToFree : ℤ) :
    Except String EvictionPlan :=
  if tokensToFree < 0 then .error "tokens_to_free must be non-negative"
  else
    let (evicted, freed) := Greedy.fill tokensToFree (harmful ledger) ResidentItem.tokens 0 (evictionOrder ledger items)
    .ok ⟨evicted.map ResidentItem.itemId, freed, max 0 (tokensToFree - freed)⟩

/-! The plan's laws. -/

/-- What a plan promises. -/
structure EvictionLaws (items : List ResidentItem) (ledger : List MeasuredLift) (tokensToFree : ℤ)
    (plan : EvictionPlan) : Prop where
  protectedStay : ∀ item ∈ items, item.isProtected → item.itemId ∉ plan.evict
  harmfulGo : ∀ item ∈ items, ¬ item.isProtected → harmful ledger item → item.itemId ∈ plan.evict
  known : ∀ id ∈ plan.evict, ∃ item ∈ items, item.itemId = id
  once : plan.evict.Nodup
  freed : plan.freedTokens = ((items.filter (fun item => item.itemId ∈ plan.evict)).map ResidentItem.tokens).sum
  shortfall : plan.shortfallTokens = max 0 (tokensToFree - plan.freedTokens)
  exhausted : 0 < plan.shortfallTokens → ∀ item ∈ items, ¬ item.isProtected → item.itemId ∈ plan.evict
  needed : ∀ item ∈ items, ¬ harmful ledger item → ∀ before after, plan.evict = before ++ item.itemId :: after →
    (∀ other ∈ items, other.itemId ∈ after → harmful ledger other) → plan.freedTokens - item.tokens < tokensToFree
  anyOrder : ∀ others, items.Perm others → planEviction others ledger tokensToFree = .ok plan

section

variable {items : List ResidentItem} {ledger : List MeasuredLift}

theorem same_item (distinct : (items.map ResidentItem.itemId).Nodup) {a b : ResidentItem} (first : a ∈ items)
    (second : b ∈ items) (same : a.itemId = b.itemId) : a = b :=
  List.inj_on_of_nodup_map distinct first second same

theorem mem_evictionOrder {item : ResidentItem} :
    item ∈ evictionOrder ledger items ↔ item ∈ items ∧ item.isProtected = false := by
  rw [evictionOrder, (Ranking.sortBy_perm _ _).mem_iff, List.mem_filter]
  simp

theorem evictionOrder_perm (distinct : (items.map ResidentItem.itemId).Nodup) {others : List ResidentItem}
    (perm : items.Perm others) : evictionOrder ledger items = evictionOrder ledger others := by
  apply Ranking.sortBy_unique (perm.filter _)
  intro a first b second same
  have ids : a.itemId = b.itemId := (Prod.mk.inj (toLex_inj.mp (Prod.mk.inj (toLex_inj.mp same)).2)).2
  exact same_item distinct (List.mem_of_mem_filter first) (List.mem_of_mem_filter second) ids

/-- Harmful residents come first. -/
theorem evictionOrder_harmful (ledger : List MeasuredLift) (items : List ResidentItem) :
    (evictionOrder ledger items).Pairwise (fun a b => harmful ledger a = false → harmful ledger b = false) := by
  refine (Ranking.sortBy_sorted (evictionKey ledger) _).imp ?_
  intro a b before free
  have first : (!harmful ledger a) ≤ (!harmful ledger b) := Prod.Lex.monotone_fst _ _ before
  rw [free] at first
  cases held : harmful ledger b with
  | false => rfl
  | true =>
    rw [held] at first
    exact absurd first (by decide)

theorem nodup_evictionOrder (distinct : (items.map ResidentItem.itemId).Nodup) :
    ((evictionOrder ledger items).map ResidentItem.itemId).Nodup := by
  have perm : ((evictionOrder ledger items).map ResidentItem.itemId).Perm
      ((items.filter (fun item => !item.isProtected)).map ResidentItem.itemId) :=
    (Ranking.sortBy_perm _ _).map _
  rw [perm.nodup_iff]
  exact distinct.sublist (List.filter_sublist.map _)

/-- The residents whose ids were given out are the ones that were taken. -/
theorem filter_taken (distinct : (items.map ResidentItem.itemId).Nodup) {taken : List ResidentItem}
    (start : taken <+: evictionOrder ledger items) :
    (items.filter (fun item => item.itemId ∈ taken.map ResidentItem.itemId)).Perm taken := by
  have ids : (taken.map ResidentItem.itemId).Nodup := (nodup_evictionOrder distinct).sublist (start.sublist.map _)
  apply (List.perm_ext_iff_of_nodup ((List.Nodup.of_map _ distinct).filter _) (List.Nodup.of_map _ ids)).mpr
  intro item
  simp only [List.mem_filter, decide_eq_true_eq]
  constructor
  · rintro ⟨member, listed⟩
    obtain ⟨other, held, same⟩ := List.mem_map.mp listed
    obtain rfl := same_item distinct (mem_evictionOrder.mp (start.subset held)).1 member same
    exact held
  · intro held
    exact ⟨(mem_evictionOrder.mp (start.subset held)).1, List.mem_map_of_mem held⟩

/-- A plan evicts no more than it must, and nothing protected. -/
theorem eviction_laws (items : List ResidentItem) (ledger : List MeasuredLift) (tokensToFree : ℤ)
    (distinct : (items.map ResidentItem.itemId).Nodup) (nonneg : 0 ≤ tokensToFree) :
    ∃ plan, planEviction items ledger tokensToFree = .ok plan ∧ EvictionLaws items ledger tokensToFree plan := by
  have possible : ¬ tokensToFree < 0 := not_lt.mpr nonneg
  have start := @Greedy.fill_prefix _ tokensToFree (harmful ledger) ResidentItem.tokens 0 (evictionOrder ledger items)
  have total := @Greedy.fill_total _ tokensToFree (harmful ledger) ResidentItem.tokens 0 (evictionOrder ledger items)
  have forced := @Greedy.fill_forced _ tokensToFree (harmful ledger) ResidentItem.tokens _
    (evictionOrder_harmful ledger items) 0
  have short := @Greedy.fill_short _ tokensToFree (harmful ledger) ResidentItem.tokens 0 (evictionOrder ledger items)
  have last := @Greedy.fill_last _ tokensToFree (harmful ledger) ResidentItem.tokens 0 (evictionOrder ledger items)
  have planned : planEviction items ledger tokensToFree = .ok
      ⟨(Greedy.fill tokensToFree (harmful ledger) ResidentItem.tokens 0 (evictionOrder ledger items)).1.map
        ResidentItem.itemId,
        (Greedy.fill tokensToFree (harmful ledger) ResidentItem.tokens 0 (evictionOrder ledger items)).2,
        max 0 (tokensToFree -
          (Greedy.fill tokensToFree (harmful ledger) ResidentItem.tokens 0 (evictionOrder ledger items)).2)⟩ := by
    rw [planEviction, if_neg possible]
  refine ⟨_, planned, ?_⟩
  generalize Greedy.fill tokensToFree (harmful ledger) ResidentItem.tokens 0 (evictionOrder ledger items) = result
    at start total forced short last planned
  obtain ⟨taken, freed⟩ := result
  simp only at start total forced short last planned
  rw [Int.zero_add] at total
  have given (item : ResidentItem) (member : item ∈ items) (listed : item.itemId ∈ taken.map ResidentItem.itemId) :
      item ∈ taken :=
    (filter_taken distinct start).mem_iff.mp (List.mem_filter.mpr ⟨member, decide_eq_true listed⟩)
  refine ⟨?_, ?_, ?_, ?_, ?_, rfl, ?_, ?_, ?_⟩
  · intro item member stays listed
    have open' := (mem_evictionOrder.mp (start.subset (given item member listed))).2
    rw [stays] at open'
    cases open'
  · intro item member free harm
    exact List.mem_map_of_mem (forced item (mem_evictionOrder.mpr ⟨member, by simpa using free⟩) harm)
  · intro id listed
    obtain ⟨item, held, same⟩ := List.mem_map.mp listed
    exact ⟨item, (mem_evictionOrder.mp (start.subset held)).1, same⟩
  · exact (nodup_evictionOrder distinct).sublist (start.sublist.map _)
  · rw [((filter_taken distinct start).map ResidentItem.tokens).sum_eq]
    exact total
  · intro unmet item member free
    have missing : 0 < max 0 (tokensToFree - freed) := unmet
    rw [short (by omega)]
    exact List.mem_map_of_mem (mem_evictionOrder.mpr ⟨member, by simpa using free⟩)
  · intro item member free before after split rest
    obtain ⟨first, others, same, rfl, ends⟩ := List.map_eq_append_iff.mp split
    obtain ⟨resident, more, rfl, id, rfl⟩ := List.map_eq_cons_iff.mp ends
    have whole : taken = first ++ resident :: more := same
    have held : resident ∈ taken := whole ▸ List.mem_append_right first List.mem_cons_self
    obtain rfl := same_item distinct (mem_evictionOrder.mp (start.subset held)).1 member id
    have unharmed : harmful ledger resident = false := by simpa using free
    cases more with
    | nil => exact last whole unharmed
    | cons next more =>
      have listed : next ∈ taken :=
        whole ▸ List.mem_append_right first (List.mem_cons_of_mem resident List.mem_cons_self)
      have harm := rest next (mem_evictionOrder.mp (start.subset listed)).1 List.mem_cons_self
      have order := (evictionOrder_harmful ledger items).sublist start.sublist
      rw [whole, List.pairwise_append] at order
      have after := (List.pairwise_cons.mp order.2.1).1 next List.mem_cons_self unharmed
      rw [after] at harm
      cases harm
  · intro others perm
    rw [← planned]
    simp only [planEviction, evictionOrder_perm distinct perm]

/-- A harmful note, an old one and a protected rule. -/
def residents : List ResidentItem :=
  [⟨"rule", 50, 1, 1, true⟩, ⟨"old", 20, 1 / 4, 1, false⟩, ⟨"poison", 10, 1, 1, false⟩]

theorem eviction_laws_residents :
    ∃ plan, planEviction residents [⟨"poison", -1, .harmful⟩] 25 = .ok plan ∧
      EvictionLaws residents [⟨"poison", -1, .harmful⟩] 25 plan :=
  eviction_laws residents [⟨"poison", -1, .harmful⟩] 25 (by decide) (by decide)

end

end Onmc.ContextEngine
