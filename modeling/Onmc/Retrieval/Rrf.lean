import Mathlib.Algebra.Order.Field.Basic
import Mathlib.Algebra.Order.Field.Rat
import Mathlib.Algebra.Order.BigOperators.Group.List
import Mathlib.Data.List.Sort
import Mathlib.Data.String.Basic
import Mathlib.Tactic.Linarith
import Onmc.EventLog
import Onmc.Tally

/-! Reciprocal rank fusion, in exact numbers. -/
namespace Onmc.Retrieval

/-- The ids of a ranking with their scores, best first. -/
abbrev Ranked := List (String × ℚ)

def ids (ranking : Ranked) : List String := ranking.map Prod.fst

/-- `key=lambda x: (-x[1], x[0])`, as the order that it sorts by. -/
def outranks (x y : String × ℚ) : Prop := y.2 < x.2 ∨ x.2 = y.2 ∧ x.1 ≤ y.1

instance : DecidableRel outranks := fun x y => inferInstanceAs (Decidable (y.2 < x.2 ∨ x.2 = y.2 ∧ x.1 ≤ y.1))

instance : Std.Total outranks where
  total x y := by
    rcases lt_trichotomy x.2 y.2 with less | same | more
    · exact .inr (.inl less)
    · rcases le_total x.1 y.1 with first | second
      · exact .inl (.inr ⟨same, first⟩)
      · exact .inr (.inr ⟨same.symm, second⟩)
    · exact .inl (.inl more)

instance : IsTrans (String × ℚ) outranks where
  trans x y z first second := by
    rcases first with more | ⟨same, before⟩
    · rcases second with more' | ⟨same', -⟩
      · exact .inl (more'.trans more)
      · exact .inl (same' ▸ more)
    · rcases second with more' | ⟨same', before'⟩
      · exact .inl (same ▸ more')
      · exact .inr ⟨same.trans same', before.trans before'⟩

theorem outranks_antisymm {x y : String × ℚ} (first : outranks x y) (second : outranks y x) : x = y := by
  rcases first with more | ⟨same, before⟩
  · rcases second with more' | ⟨same', -⟩
    · exact absurd more (not_lt_of_gt more')
    · exact absurd more (same' ▸ lt_irrefl _)
  · rcases second with more' | ⟨-, before'⟩
    · exact absurd more' (same ▸ lt_irrefl _)
    · exact Prod.ext (le_antisymm before before') same

/-- `sorted(items, key=...)` -/
def sorted (items : Ranked) : Ranked := items.insertionSort outranks

theorem sorted_perm (items : Ranked) : (sorted items).Perm items := List.perm_insertionSort outranks items

theorem sorted_of_perm {items others : Ranked} (perm : items.Perm others) : sorted items = sorted others := by
  have same := (sorted_perm items).trans (perm.trans (sorted_perm others).symm)
  exact same.eq_of_pairwise (fun _ _ _ _ first second => outranks_antisymm first second)
    (List.pairwise_insertionSort outranks items) (List.pairwise_insertionSort outranks others)

/-- `1.0 / (rrf_k + rank_1based)` -/
def contribution (rrfK : Int) (rank0 : Nat) : Except String ℚ :=
  if rrfK + (rank0 + 1) = 0 then .error "float division by zero" else .ok (1 / ((rrfK + (rank0 + 1) : Int) : ℚ))

def fuseOne (rrfK : Int) (fused : Ranked) (entry : (String × ℚ) × Nat) : Except String Ranked := do
  let amount ← contribution rrfK entry.2
  .ok (Tally.add fused (entry.1.1, amount))

def reciprocalRankFusion (rankings : List Ranked) (rrfK : Int) : Except String Ranked := do
  let fused ← rankings.foldlM (fun fused ranking => ranking.zipIdx.foldlM (fuseOne rrfK) fused) []
  .ok (sorted fused)

/-! With a smoothing constant that is not negative the fusion is a tally. -/

/-- What a rank is worth. -/
def weight (rrfK : Int) (rank0 : Nat) : ℚ := 1 / ((rrfK + (rank0 + 1) : Int) : ℚ)

/-- What a ranking has for each of its documents. -/
def contributions (rrfK : Int) (ranking : Ranked) : Ranked :=
  ranking.zipIdx.map (fun entry => (entry.1.1, weight rrfK entry.2))

section

variable {rrfK : Int} (smooth : 0 ≤ rrfK)

include smooth

theorem contribution_ok (rank0 : Nat) : contribution rrfK rank0 = .ok (weight rrfK rank0) := by
  have positive : rrfK + (rank0 + 1) ≠ 0 := by omega
  simp only [contribution, if_neg positive, weight]

theorem weight_pos (rank0 : Nat) : 0 < weight rrfK rank0 := by
  have positive : (0 : ℚ) < ((rrfK + (rank0 + 1) : Int) : ℚ) := by
    apply Int.cast_pos.mpr
    omega
  exact one_div_pos.mpr positive

/-- A better rank is worth more. -/
theorem weight_lt {better worse : Nat} (h : better < worse) : weight rrfK worse < weight rrfK better := by
  apply one_div_lt_one_div_of_lt
  · apply Int.cast_pos.mpr
    omega
  · apply Int.cast_lt.mpr
    omega

theorem foldlM_fuseOne (entries : List ((String × ℚ) × Nat)) (fused : Ranked) :
    entries.foldlM (fuseOne rrfK) fused =
      .ok ((entries.map (fun entry => (entry.1.1, weight rrfK entry.2))).foldl Tally.add fused) := by
  induction entries generalizing fused with
  | nil => rfl
  | cons entry entries ih =>
    simp only [List.foldlM_cons, fuseOne, contribution_ok smooth, Except.ok_bind, ih, List.map_cons, List.foldl_cons]

theorem fusion_tally (rankings : List Ranked) :
    reciprocalRankFusion rankings rrfK = .ok (sorted (Tally.tally (rankings.flatMap (contributions rrfK)))) := by
  have loop : ∀ (rankings : List Ranked) (fused : Ranked),
      rankings.foldlM (fun fused ranking => ranking.zipIdx.foldlM (fuseOne rrfK) fused) fused =
        .ok ((rankings.flatMap (contributions rrfK)).foldl Tally.add fused) := by
    intro rankings
    induction rankings with
    | nil => exact fun _ => rfl
    | cons ranking rankings ih =>
      intro fused
      rw [List.foldlM_cons, foldlM_fuseOne smooth, Except.ok_bind, ih, List.flatMap_cons, List.foldl_append]
      rfl
  rw [reciprocalRankFusion, loop, Except.ok_bind]
  rfl

end

theorem keys_contributions (rrfK : Int) (ranking : Ranked) : (contributions rrfK ranking).map Prod.fst = ids ranking := by
  simp only [contributions, List.map_map, ids]
  rw [← List.zipIdx_map_fst 0 ranking, List.map_map]
  simp only [List.zipIdx_map_fst]
  rfl

/-- A document of a ranking without repeated ids gets what its rank is worth. -/
theorem total_contributions (rrfK : Int) {ranking : Ranked} (distinct : (ids ranking).Nodup) (id : String) :
    Tally.total id (contributions rrfK ranking) =
      if id ∈ ids ranking then weight rrfK ((ids ranking).idxOf id) else 0 := by
  have shifted : ∀ (ranking : Ranked) (start : Nat), (ids ranking).Nodup →
      Tally.total id ((ranking.zipIdx start).map (fun entry => (entry.1.1, weight rrfK entry.2))) =
        if id ∈ ids ranking then weight rrfK (start + (ids ranking).idxOf id) else 0 := by
    intro ranking
    induction ranking with
    | nil => exact fun _ _ => rfl
    | cons item ranking ih =>
      intro start distinct
      obtain ⟨new, rest⟩ := List.nodup_cons.mp distinct
      rw [List.zipIdx_cons, List.map_cons, Tally.total_cons, ih (start + 1) rest]
      by_cases same : item.1 = id
      · subst same
        have absent : item.1 ∉ ranking.map Prod.fst := new
        simp [absent, ids]
      · have listed : id ∈ ids (item :: ranking) ↔ id ∈ ids ranking := by
          simp [ids, Ne.symm same]
        have place : (ids (item :: ranking)).idxOf id = (ids ranking).idxOf id + 1 := List.idxOf_cons_ne _ same
        simp only [if_neg same, zero_add, listed, place, Nat.add_assoc, Nat.add_comm 1]
  simpa [contributions] using shifted ranking 0 distinct

/-- What a document gets from all rankings. -/
def score (rrfK : Int) (rankings : List Ranked) (id : String) : ℚ :=
  (rankings.map (fun ranking =>
    if id ∈ ids ranking then weight rrfK ((ids ranking).idxOf id) else 0)).sum

theorem mem_fused (rrfK : Int) {rankings : List Ranked} (distinct : ∀ ranking ∈ rankings, (ids ranking).Nodup)
    {item : String × ℚ} : item ∈ sorted (Tally.tally (rankings.flatMap (contributions rrfK))) ↔
      (∃ ranking ∈ rankings, item.1 ∈ ids ranking) ∧ item.2 = score rrfK rankings item.1 := by
  have amount : Tally.total item.1 (rankings.flatMap (contributions rrfK)) = score rrfK rankings item.1 := by
    rw [Tally.total_flatMap, score]
    apply congrArg List.sum
    apply List.map_congr_left
    intro ranking member
    exact total_contributions rrfK (distinct ranking member) item.1
  have known : item.1 ∈ (rankings.flatMap (contributions rrfK)).map Prod.fst ↔
      ∃ ranking ∈ rankings, item.1 ∈ ids ranking := by
    rw [List.map_flatMap, List.mem_flatMap]
    simp only [keys_contributions]
  rw [(sorted_perm _).mem_iff, Tally.mem_tally, amount, known]

/-- In the ranking, the first document comes before the second. -/
def Above (ranking : Ranked) (d e : String) : Prop :=
  d ∈ ids ranking ∧ (ids ranking).idxOf d < (ids ranking).idxOf e

/-- What a fusion of rankings is: every id once, in an order that does not depend on that of the rankings; and a
document that comes before another wherever the other is ranked scores more. -/
structure Fuses (rrfK : Int) (rankings : List Ranked) (fused : Ranked) : Prop where
  once : (ids fused).Nodup
  all : ∀ id, id ∈ ids fused ↔ ∃ ranking ∈ rankings, id ∈ ids ranking
  unordered : ∀ others, rankings.Perm others → reciprocalRankFusion others rrfK = .ok fused
  monotone : ∀ d e scoreE, (e, scoreE) ∈ fused → (∀ ranking ∈ rankings, e ∈ ids ranking → Above ranking d e) →
    ∃ scoreD, (d, scoreD) ∈ fused ∧ scoreE < scoreD

theorem fusion_fuses {rrfK : Int} (smooth : 0 ≤ rrfK) {rankings : List Ranked}
    (distinct : ∀ ranking ∈ rankings, (ids ranking).Nodup) :
    ∃ fused, reciprocalRankFusion rankings rrfK = .ok fused ∧ Fuses rrfK rankings fused := by
  refine ⟨_, fusion_tally smooth rankings, ?_, ?_, ?_, ?_⟩
  · exact ((sorted_perm _).map Prod.fst).nodup_iff.mpr (Tally.nodup_keys _)
  · intro id
    simp only [ids, List.mem_map]
    constructor
    · rintro ⟨item, member, rfl⟩
      simpa [ids] using ((mem_fused rrfK distinct).mp member).1
    · intro ranked
      have listed : ∃ ranking ∈ rankings, id ∈ ids ranking := by simpa [ids] using ranked
      exact ⟨(id, score rrfK rankings id), (mem_fused rrfK distinct).mpr ⟨listed, rfl⟩, rfl⟩
  · intro others perm
    rw [fusion_tally smooth others]
    exact congrArg Except.ok (sorted_of_perm (Tally.tally_perm (perm.symm.flatMap_right _)))
  · intro d e scoreE member dominated
    obtain ⟨⟨ranking, listed, ranked⟩, total⟩ := (mem_fused rrfK distinct).mp member
    obtain ⟨present, above⟩ := dominated ranking listed ranked
    refine ⟨score rrfK rankings d, (mem_fused rrfK distinct).mpr ⟨⟨ranking, listed, present⟩, rfl⟩, ?_⟩
    dsimp only at total ⊢
    rw [total]
    apply List.sum_lt_sum
    · intro other member
      by_cases found : e ∈ ids other
      · obtain ⟨first, before⟩ := dominated other member found
        rw [if_pos found, if_pos first]
        exact (weight_lt smooth before).le
      · rw [if_neg found]
        split
        · exact (weight_pos smooth _).le
        · exact le_rfl
    · refine ⟨ranking, listed, ?_⟩
      rw [if_pos ranked, if_pos present]
      exact weight_lt smooth above

end Onmc.Retrieval
