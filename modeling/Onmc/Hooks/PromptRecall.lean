import Onmc.Learning.Ingest
import Onmc.Ranking
import Onmc.Storage.Sqlite

/-! Recall of memories for one prompt: a limited search, scores, a rerank, a budget, and the text. -/
namespace Onmc.Hooks

open Onmc.Storage

/-- Floating-point numbers, none of them a NaN, as far as the scores compute with them. -/
class RecallFloats (V : Type) [LinearOrder V] where
  ofNat : Nat → V
  ofDecimal : Decimal → V
  add : V → V → V
  mul : V → V → V
  positive : ofDecimal (.ofInt 0) < ofDecimal ⟨1, 1, .inr (by decide)⟩

/-- What `search_memories` matches for a query, and the order of relevance that it returns them in. -/
structure Relevance where
  found : String → MemoryEntry → Bool
  before : String → MemoryEntry → MemoryEntry → Bool
  total : ∀ query a b, before query a b = true ∨ before query b a = true
  trans : ∀ query a b c, before query a b = true → before query b c = true → before query a c = true

/-- The memories of a store, in the order of their rows. -/
structure Memories where
  entries : List MemoryEntry
  distinct : (entries.map MemoryEntry.id).Nodup
  agreeing : ∀ m ∈ entries, hasUnpromotedPrefix m.sourceRef = true ↔ m.promotionState = .quarantined

namespace Memories

/-- `ORDER BY updated_at DESC, title ASC` -/
def listOrder (a b : MemoryEntry) : Prop :=
  b.updatedAt.iso < a.updatedAt.iso ∨ (a.updatedAt.iso = b.updatedAt.iso ∧ a.title ≤ b.title)

instance : DecidableRel listOrder := fun _ _ => inferInstanceAs (Decidable (_ ∨ _))

def listMemories (s : Memories) : List MemoryEntry := s.entries.insertionSort listOrder

/-- All that a query finds, the most relevant first. -/
def ranked (s : Memories) (rel : Relevance) (query : String) : List MemoryEntry :=
  (s.entries.filter (rel.found query)).insertionSort (fun a b => rel.before query a b = true)

def searchMemories (s : Memories) (rel : Relevance) (query : String) (limit : Nat) : List MemoryEntry :=
  (s.ranked rel query).take limit

end Memories

theorem read_id {row : MemoryRow} {m : MemoryEntry} (read : rowToMemory row = some m) :
    m.id = row.id ∧ (hasUnpromotedPrefix m.sourceRef = true ↔ m.promotionState = .quarantined) := by
  simp only [rowToMemory, Option.bind_eq_bind, Option.bind_eq_some_iff, Option.pure_def, Option.some.injEq] at read
  obtain ⟨_, -, _, -, _, -, _, -, _, -, _, -, _, -, rfl⟩ := read
  exact ⟨MemoryEntry.validated_id _, MemoryEntry.marked_iff _⟩

theorem read_ids {rows : List MemoryRow} {entries : List MemoryEntry} (read : rows.mapM rowToMemory = some entries) :
    entries.map MemoryEntry.id = rows.map MemoryRow.id ∧
      ∀ m ∈ entries, hasUnpromotedPrefix m.sourceRef = true ↔ m.promotionState = .quarantined := by
  induction rows generalizing entries with
  | nil =>
    obtain rfl := Option.some.inj read
    exact ⟨rfl, fun m member => absurd member List.not_mem_nil⟩
  | cons row rows ih =>
    simp only [List.mapM_cons, Option.bind_eq_bind, Option.bind_eq_some_iff, Option.pure_def, Option.some.injEq]
      at read
    obtain ⟨m, first, rest, others, rfl⟩ := read
    obtain ⟨ids, agreeing⟩ := ih others
    obtain ⟨id, agrees⟩ := read_id first
    refine ⟨by rw [List.map_cons, List.map_cons, id, ids], fun m member => ?_⟩
    rcases List.mem_cons.mp member with rfl | member
    · exact agrees
    · exact agreeing m member

/-- The memories of a store whose rows can all be read. -/
def Memories.ofStore (s : Store) {entries : List MemoryEntry} (read : s.memories.rows.mapM rowToMemory = some entries) :
    Memories where
  entries := entries
  distinct := (read_ids read).1 ▸ s.memories.unique
  agreeing := (read_ids read).2

/-! Texts. -/

def stopwords : List String := ["a", "an", "and", "are", "as", "at", "be", "by", "for", "from", "how", "in",
  "into", "is", "it", "of", "on", "or", "that", "the", "this", "to", "up", "with"]

/-- `TOKEN_RE` -/
def tokenChar (c : Char) : Bool := c.isAlphanum || "_./-".toList.contains c

def tokenize [Lowercase] (text : String) : List String :=
  let raws := PyText.runs (fun c => !tokenChar c) (Lowercase.lower text).toList
  let parts := raws.flatMap (PyText.runs "/_.-".toList.contains)
  (parts.map String.ofList).filter (fun part => !(part.length ≤ 1 || stopwords.contains part))

def countTokens (text : String) : Nat := (PyText.words text).length

def rstrip (text : String) : String := String.ofList (text.toList.reverse.dropWhile PyText.isSpace).reverse

/-- `serialize.terse._truncate` -/
def truncate (text : String) (maxChars : Nat) : String :=
  let text := PyText.strip text
  if text.length ≤ maxChars then text else PyText.first (maxChars - 1) text ++ "…"

def kindLabel : MemoryKind → String
  | .invariant => "INVARIANT"
  | .decision => "DECISION"
  | .failedApproach => "FAILED(don't retry)"
  | .hotspot => "HOTSPOT"
  | .gotcha => "GOTCHA"
  | .gitPattern => "GIT_PATTERN"
  | .validationRule => "RULE"
  | .designConflict => "CONFLICT"
  | .docFact => "FACT"

section Scores

variable {V : Type} [LinearOrder V] [RecallFloats V] [Lowercase]

open RecallFloats

def zero : V := ofDecimal (.ofInt 0)

/-- `_MIN_SCORE` -/
def minScore : V := ofDecimal ⟨1, 1, .inr (by decide)⟩

def isUnpromotedSource (sourceRef : String) : Bool := hasUnpromotedPrefix sourceRef

/-- `feedback_score <= -0.5` -/
def rejected (m : MemoryEntry) : Bool := !Decimal.lt ⟨-5, 1, .inr (by decide)⟩ m.feedbackScore

/-- `confidence <= 0.0` -/
def worthless (m : MemoryEntry) : Bool := !Decimal.lt (.ofInt 0) m.confidence.value

def scoreMemory (m : MemoryEntry) (queryTokens : List String) : V :=
  if isUnpromotedSource m.sourceRef then zero
  else if rejected m then zero
  else if worthless m then zero
  else
    let haystack := tokenize (PyText.join " "
      [m.title, m.summary, m.details, m.sourceRef, PyText.join " " m.tags])
    let overlap := (PyText.fromKeys queryTokens).filter haystack.contains
    let raw := add (add (ofNat (overlap.length * 3)) (ofDecimal m.confidence.value))
      (mul (ofDecimal m.feedbackScore) (ofDecimal ⟨2, 1, .inr (by decide)⟩))
    if [some StalenessLabel.stale, some .orphaned, some .unanchored].contains m.staleness then
      mul raw (ofDecimal ⟨35, 2, .inr (by decide)⟩)
    else raw

/-- `key=lambda item: (-item[0], item[1].title)` -/
def byScore (a b : V × MemoryEntry) : Prop := b.1 < a.1 ∨ (a.1 = b.1 ∧ a.2.title ≤ b.2.title)

instance : DecidableRel (@byScore V _) := fun _ _ => inferInstanceAs (Decidable (_ ∨ _))

/-- One entry an id: the first. -/
def firstById : List String → List MemoryEntry → List MemoryEntry
  | _, [] => []
  | seenIds, m :: rest =>
    if seenIds.contains m.id then firstById seenIds rest else m :: firstById (m.id :: seenIds) rest

def scored (queryTokens : List String) (candidates : List MemoryEntry) : List (V × MemoryEntry) :=
  ((firstById [] candidates).filterMap (fun m =>
    let score := scoreMemory m queryTokens
    if minScore ≤ score then some (score, m) else none)).insertionSort byScore

/-- The models behind the rerank, as far as they are there and switched on. -/
structure Reranker (V : Type) where
  /-- A cross-encoder: every candidate with its score, by its place among the candidates. -/
  crossEncoder : String → List MemoryEntry → Option (List (V × Nat))
  complete : ∀ query candidates results, crossEncoder query candidates = some results →
    (results.map Prod.snd).Perm (List.range candidates.length)
  /-- The distances of the sqlite-vec index. -/
  distance : Option (String → MemoryEntry → V)
  /-- The blend of a candidate's score with its cosine to the query, by its place; nothing where the query
  cannot be embedded. -/
  blend : String → Option (List (V × MemoryEntry) → Nat → V)

/-- `semantic_search`: the nearest of all memories that are stored. -/
def semanticSearch (s : Memories) (distance : MemoryEntry → V) (limit : Nat) : List MemoryEntry :=
  (s.entries.insertionSort (fun a b => distance a ≤ distance b)).take limit

def rerankViaSqlitevec (s : Memories) (distance : MemoryEntry → V) (candidates : List MemoryEntry) :
    List MemoryEntry :=
  let near := (semanticSearch s distance candidates.length).filterMap (fun m => candidates.find? (·.id = m.id))
  near ++ candidates.filter (fun m => !(near.map (·.id)).contains m.id)

/-- The entries of scored ones, the best first. -/
def inOrder (results : List (V × MemoryEntry)) : List MemoryEntry := (results.insertionSort byScore).map Prod.snd

/-- `rerank_with_embeddings`; without a reranker, embeddings are off. -/
def rerank (reranker : Option (Reranker V)) (s : Memories) (query : String) (top : List (V × MemoryEntry)) :
    List MemoryEntry :=
  let candidates := top.map Prod.snd
  match reranker with
  | none => candidates
  | some models =>
    if candidates.isEmpty then candidates
    else
      match models.crossEncoder query candidates with
      | some results =>
        inOrder (results.filterMap (fun result => (candidates[result.2]?).map (fun m => (result.1, m))))
      | none =>
        match models.distance with
        | some distance => rerankViaSqlitevec s (distance query) candidates
        | none =>
          match models.blend query with
          | none => candidates
          | some blend => inOrder (candidates.zipIdx.map (fun (m, i) => (blend top i, m)))

/-- What fits within the cap, whatever its place; the first always does. -/
def keepWithin (maxChars : Int) : Int → List MemoryEntry → List MemoryEntry → List MemoryEntry
  | _, kept, [] => kept
  | total, kept, m :: rest =>
    let chars : Int := m.title.length + m.summary.length + m.details.length + 50
    if kept.isEmpty ∨ total + chars ≤ maxChars then keepWithin maxChars (total + chars) (kept ++ [m]) rest
    else keepWithin maxChars total kept rest

def applyCharBudget (candidates : List MemoryEntry) (maxChars : Int) : List MemoryEntry × Nat :=
  if maxChars ≤ 0 then (candidates, 0)
  else
    let kept := keepWithin maxChars 0 [] candidates
    (kept, candidates.length - kept.length)

end Scores

def droppedNote (dropped : Nat) : String :=
  "[" ++ toString dropped ++ " " ++ (if dropped = 1 then "memory" else "memories") ++ " not shown — budget cap]"

def renderRecallTerse (memories : List MemoryEntry) (maxItems : Nat) : String :=
  PyText.first 800 (PyText.join "\n" ((memories.take maxItems).map (fun m =>
    kindLabel m.kind ++ ": " ++ m.title ++ " — " ++ truncate m.summary 120)))

def entryText (m : MemoryEntry) : String :=
  PyText.join "\n" (["**" ++ m.title ++ "** (" ++ StrEnum.value m.kind ++ ")", "  " ++ m.summary] ++
    (if m.details ≠ "" ∧ PyText.strip m.details ≠ PyText.strip m.summary then ["  _" ++ m.details ++ "_"] else []) ++
    [""])

/-- The entries that the token budget leaves room for; the first always has it. -/
def entriesWithin (budgetTokens : Int) : Nat → Bool → List MemoryEntry → List String
  | _, _, [] => []
  | tokenUsed, included, m :: rest =>
    let tokens := countTokens (entryText m)
    if budgetTokens < tokenUsed + tokens ∧ included then []
    else entryText m :: entriesWithin budgetTokens (tokenUsed + tokens) true rest

def header : String := "## Relevant repo memory\n\n"

/-- The settings of one recall, as its arguments and the environment resolve to. -/
structure RecallOptions (V : Type) where
  limit : Nat
  budgetTokens : Int
  terse : Bool
  minScore : V
  maxChars : Int
  /-- `ONMC_LEARNING` -/
  learning : Option String

def render {V : Type} (opts : RecallOptions V) (top : List MemoryEntry) (dropped : Nat) : String × Nat :=
  if opts.terse then
    let text := renderRecallTerse top opts.limit
    if text = "" then ("", 0)
    else
      let text := if dropped = 0 then text else text ++ "\n" ++ droppedNote dropped
      (text, countTokens text)
  else
    let entries := entriesWithin opts.budgetTokens (countTokens header) false top
    if entries = [] then ("", 0)
    else
      let markdown := rstrip (PyText.join "\n" (header :: entries)) ++ "\n"
      let markdown := if dropped = 0 then markdown else markdown ++ droppedNote dropped ++ "\n"
      (markdown, countTokens markdown)

section Compile

variable {V : Type} [LinearOrder V] [RecallFloats V] [Lowercase]

/-- The candidates of the search, or the whole list where it finds nothing. -/
def candidates (s : Memories) (rel : Relevance) (prompt : String) (limit : Nat) : List MemoryEntry :=
  match s.searchMemories rel prompt (limit * 4) with
  | [] => s.listMemories
  | found => found

/-- What is injected for a prompt, and how many entries the cap dropped. -/
def select (reranker : Option (Reranker V)) (rel : Relevance) (opts : RecallOptions V) (s : Memories)
    (prompt : String) : Option (List MemoryEntry × Nat) :=
  if PyText.strip prompt = "" ∨ Learning.isLearningEnabled opts.learning = false ∨ tokenize prompt = [] then none
  else
    match @scored V _ _ _ (tokenize prompt) (candidates s rel prompt opts.limit) with
    | [] => none
    | best :: rest =>
      if zero < opts.minScore ∧ best.1 < opts.minScore then none
      else some (applyCharBudget (rerank reranker s prompt ((best :: rest).take opts.limit)) opts.maxChars)

def compilePromptRecall (reranker : Option (Reranker V)) (rel : Relevance) (opts : RecallOptions V) (s : Memories)
    (prompt : String) : String × Nat :=
  match select reranker rel opts s prompt with
  | none => ("", 0)
  | some (top, dropped) => render opts top dropped

end Compile

end Onmc.Hooks
