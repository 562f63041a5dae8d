import Mathlib.Data.Finset.Card
import Mathlib.Data.String.Basic
import Mathlib.Tactic.NormNum
import Onmc.Greedy
import Onmc.Hooks.PromptRecall
import Onmc.NumOrder
import Onmc.Ranking

/-! Near-duplicate memories of one kind are dropped, the best of each keeping its place. -/
namespace Onmc.Ingest

open Onmc.Storage

/-- `_dedup_sort_key` -/
def dedupSortKey (m : MemoryEntry) : ℚ ×ₗ ℚ ×ₗ String :=
  toLex (-m.confidence.value.toRat, toLex (-m.feedbackScore.toRat, m.id))

/-- `(item.kind.value, item.id)` -/
def listingKey (m : MemoryEntry) : String ×ₗ String := toLex (StrEnum.value m.kind, m.id)

/-- `sorted(memories, key=key)` -/
def sortedBy {β : Type} [LinearOrder β] (key : MemoryEntry → β) (memories : List MemoryEntry) : List MemoryEntry :=
  memories.insertionSort (fun a b => key a ≤ key b)

section

variable [Lowercase]

def titleTokens (m : MemoryEntry) : Finset String := (Hooks.tokenize m.title).toFinset

/-- `_title_overlap` -/
def titleOverlap (left right : MemoryEntry) : ℚ :=
  if left.kind ≠ right.kind then 0
  else if titleTokens left = ∅ ∨ titleTokens right = ∅ then 0
  else ((titleTokens left ∩ titleTokens right).card : ℚ) / max (titleTokens left).card (titleTokens right).card

def duplicates (memory current : MemoryEntry) : Bool := decide (4 / 5 ≤ titleOverlap memory current)

def deduplicateMemories (memories : List MemoryEntry) : List MemoryEntry × Nat :=
  let (kept, removed) := Greedy.pass duplicates [] 0 (sortedBy dedupSortKey memories)
  (sortedBy listingKey kept, removed)

end

/-! Sorting by a key. -/

section

variable {β : Type} [LinearOrder β] {key : MemoryEntry → β}

theorem sortedBy_perm (key : MemoryEntry → β) (memories : List MemoryEntry) :
    (sortedBy key memories).Perm memories := List.perm_insertionSort _ _

theorem sortedBy_sorted (key : MemoryEntry → β) (memories : List MemoryEntry) :
    (sortedBy key memories).Pairwise (fun a b => key a ≤ key b) := Ranking.sortBy_sorted key memories

/-- A key that tells the memories apart leaves one order for them. -/
theorem sortedBy_unique {memories others : List MemoryEntry} (perm : memories.Perm others)
    (apart : ∀ a ∈ memories, ∀ b ∈ memories, key a = key b → a = b) : sortedBy key memories = sortedBy key others :=
  Ranking.sortBy_unique perm apart

end

theorem same_of_id {memories : List MemoryEntry} (distinct : (memories.map MemoryEntry.id).Nodup) {a b : MemoryEntry}
    (first : a ∈ memories) (second : b ∈ memories) (same : a.id = b.id) : a = b :=
  List.inj_on_of_nodup_map distinct first second same

theorem dedupSortKey_id {a b : MemoryEntry} (same : dedupSortKey a = dedupSortKey b) : a.id = b.id := by
  have parts := Prod.mk.inj (toLex_inj.mp same)
  exact (Prod.mk.inj (toLex_inj.mp parts.2)).2

section

variable [Lowercase]

theorem titleOverlap_comm (a b : MemoryEntry) : titleOverlap a b = titleOverlap b a := by
  simp only [titleOverlap, ne_comm (a := a.kind), @or_comm (titleTokens a = ∅), Finset.inter_comm (titleTokens a),
    max_comm (titleTokens a).card]

/-- Only memories of one kind overlap. -/
theorem kind_of_overlap {a b : MemoryEntry} (overlap : 4 / 5 ≤ titleOverlap a b) : b.kind = a.kind := by
  by_contra differs
  rw [titleOverlap, if_pos (Ne.symm differs)] at overlap
  norm_num at overlap

/-- What the pass keeps of a list: a set of memories with different titles, such that everything else has a
better one of its kind in it. -/
structure Deduplicates (memories kept : List MemoryEntry) (removed : Nat) : Prop where
  among : kept.Subset memories
  apart : kept.Pairwise (fun a b => titleOverlap a b < 4 / 5)
  covered : ∀ m ∈ memories, m ∈ kept ∨
    ∃ k ∈ kept, k.kind = m.kind ∧ 4 / 5 ≤ titleOverlap m k ∧ dedupSortKey k ≤ dedupSortKey m
  counted : kept.length + removed = memories.length

theorem deduplicate_laws {memories : List MemoryEntry} (distinct : (memories.map MemoryEntry.id).Nodup) :
    Deduplicates memories (deduplicateMemories memories).1 (deduplicateMemories memories).2 ∧
      ∀ others, memories.Perm others → deduplicateMemories others = deduplicateMemories memories := by
  obtain ⟨sorted, ranked⟩ : ∃ sorted, sorted = sortedBy dedupSortKey memories := ⟨_, rfl⟩
  obtain ⟨outcome, passed⟩ : ∃ outcome, outcome = Greedy.pass duplicates [] 0 sorted := ⟨_, rfl⟩
  have result : deduplicateMemories memories = (sortedBy listingKey outcome.1, outcome.2) := by
    rw [passed, ranked]
    rfl
  have listing := sortedBy_perm listingKey outcome.1
  have ranking : sorted.Perm memories := ranked ▸ sortedBy_perm dedupSortKey memories
  rw [result]
  refine ⟨⟨?_, ?_, ?_, ?_⟩, ?_⟩
  · intro m member
    have kept := listing.subset member
    rw [passed] at kept
    exact ranking.subset ((Greedy.pass_sublist [] 0 sorted).subset kept)
  · have symmetric : ∀ {a b : MemoryEntry}, titleOverlap a b < 4 / 5 → titleOverlap b a < 4 / 5 := by
      intro a b less
      rwa [titleOverlap_comm]
    apply (listing.pairwise_iff symmetric).mpr
    rw [passed]
    apply (Greedy.pass_apart [] 0 sorted List.Pairwise.nil).imp
    intro a b free
    rw [titleOverlap_comm]
    exact not_le.mp (of_decide_eq_false free)
  · intro m member
    have ordered : ([] ++ sorted).Pairwise (fun a b => dedupSortKey a ≤ dedupSortKey b) := by
      rw [ranked]
      exact sortedBy_sorted dedupSortKey memories
    have covered := @Greedy.pass_covers _ duplicates _ [] 0 sorted ordered m (ranking.symm.subset member)
    rw [← passed] at covered
    rcases covered with kept | ⟨k, kept, overlap, better⟩
    · exact .inl (listing.symm.subset kept)
    · have enough := of_decide_eq_true overlap
      exact .inr ⟨k, listing.symm.subset kept, kind_of_overlap enough, enough, better⟩
  · have count : outcome.1.length + outcome.2 = ([] : List MemoryEntry).length + 0 + sorted.length := by
      rw [passed]
      exact Greedy.pass_length [] 0 sorted
    rw [listing.length_eq, count, ranking.length_eq]
    simp
  · intro others perm
    have same : sortedBy dedupSortKey others = sorted := by
      rw [ranked]
      refine (sortedBy_unique perm ?_).symm
      intro a first b second equal
      exact same_of_id distinct first second (dedupSortKey_id equal)
    simp only [deduplicateMemories, same, ← passed]

end

section

attribute [local instance] Lowercase.ascii

def boundary (id title : String) (confidence : Confidence) : MemoryEntry where
  id := id
  kind := .decision
  title := title
  summary := "Keep the shared cache boundary."
  details := "Keep the shared cache boundary."
  sourceType := .llmExtracted
  sourceRef := "pr:42"
  tags := ["cache"]
  confidence := confidence
  feedbackScore := .ofInt 0
  createdAt := ⟨0, DateTime.zero_inRange⟩
  updatedAt := ⟨0, DateTime.zero_inRange⟩
  staleness := none
  lastVerifiedAt := none
  promotionState := .injectable

def weakerAndStronger : List MemoryEntry :=
  [boundary "decision-weak" "Cache shared boundary" half,
    boundary "decision-strong" "Shared cache boundary" ⟨⟨9, 1, .inr (by decide)⟩, by decide⟩]

theorem deduplicate_laws_cache :
    Deduplicates weakerAndStronger (deduplicateMemories weakerAndStronger).1 (deduplicateMemories weakerAndStronger).2 ∧
      ∀ others, weakerAndStronger.Perm others →
        deduplicateMemories others = deduplicateMemories weakerAndStronger :=
  deduplicate_laws (by decide)

end

end Onmc.Ingest
