import Mathlib.Data.List.Infix
import Onmc.Fnmatch
import Onmc.Search

/-! Do two shell patterns match a common path? A path is read once along both patterns; where the
two can get to is searched. -/
namespace Onmc.Fnmatch

open Search (search Edge Closed unseen)

/-! Paths of a repository: named segments between slashes. -/

/-- What a segment of a path is, as far as it is read. -/
inductive Segment where
  | empty | dot | dots | name
deriving DecidableEq

namespace Segment

/-- A segment after one more character, nothing where no path goes on so. -/
def next (s : Segment) (c : Char) : Option Segment :=
  if c = '/' then if s = .name then some .empty else none
  else if c = '\x00' then none
  else if c = '.' then
    match s with
    | .empty => some .dot
    | .dot => some .dots
    | _ => some .name
  else some .name

def accepts : Segment → List Char → Bool
  | s, [] => s = .name
  | s, c :: cs =>
    match s.next c with
    | none => false
    | some s => s.accepts cs

def all : List Segment := [.empty, .dot, .dots, .name]

theorem mem_all (s : Segment) : s ∈ all := by
  cases s <;> decide

end Segment

/-- A relative path: no segment is empty, `.` or `..`, and no character is NUL. -/
def isPath (path : String) : Bool := Segment.empty.accepts path.toList

example : isPath "src/.env" = true ∧ isPath "src//a" = false ∧ isPath "../a" = false ∧ isPath "" = false := by decide

/-! Reading a path along two patterns. -/

abbrev Config := List Token × List Token × Segment

def chars : List Char := (List.range 0x110000).map Char.ofNat

theorem mem_chars (c : Char) : c ∈ chars := by
  have bound : c.toNat < 0x110000 := by
    have valid : c.toNat < 0xD800 ∨ (0xDFFF < c.toNat ∧ c.toNat < 0x110000) := c.valid
    omega
  exact List.mem_map.mpr ⟨c.toNat, List.mem_range.mpr bound, Char.ofNat_toNat c⟩

/-- What is left of a pattern when its first star stands for nothing more. -/
def skips : List Token → List (List Token)
  | .star :: tokens => [tokens]
  | _ => []

/-- What is left of a pattern after a character. -/
def steps (c : Char) : List Token → List (List Token)
  | [] => []
  | .star :: tokens => [.star :: tokens]
  | token :: tokens => if token.accepts c then [tokens] else []

/-- Where one character leads. -/
def read (config : Config) (c : Char) : List Config :=
  match config.2.2.next c with
  | none => []
  | some segment => (steps c config.1).flatMap fun a => (steps c config.2.1).map fun b => (a, b, segment)

def successors (config : Config) : List Config :=
  (skips config.1).map (fun a => (a, config.2.1, config.2.2)) ++
    (skips config.2.1).map (fun b => (config.1, b, config.2.2)) ++ (chars.flatMap (read config)).eraseDups

def done (config : Config) : Bool := config = ([], [], .name)

/-- Everything that is left of two patterns at some time. -/
def configs (a b : List Token) : List Config :=
  a.tails.flatMap fun a => b.tails.flatMap fun b => Segment.all.map fun s => (a, b, s)

def overlapping (a b : List Token) : Bool :=
  let next := fun config => some (successors config)
  search next done (unseen next [] (configs a b) + 2) [(a, b, .empty)] [] = some true

/-- Some path of a repository matches both patterns. -/
def overlaps (pattern other : String) : Bool := overlapping (tokens pattern) (tokens other)

/-! The search is exact. -/

theorem mem_configs {a b : List Token} {config : Config} :
    config ∈ configs a b ↔ config.1 <:+ a ∧ config.2.1 <:+ b := by
  obtain ⟨a', b', s⟩ := config
  simp [configs, List.mem_tails, Segment.mem_all]

theorem skips_suffix {tokens rest : List Token} (h : rest ∈ skips tokens) : rest <:+ tokens := by
  unfold skips at h
  split at h
  · rw [List.mem_singleton.mp h]
    exact List.suffix_cons _ _
  · cases h

theorem steps_suffix {c : Char} {tokens rest : List Token} (h : rest ∈ steps c tokens) : rest <:+ tokens := by
  unfold steps at h
  split at h
  · cases h
  · rw [List.mem_singleton.mp h]
  · split at h
    · rw [List.mem_singleton.mp h]
      exact List.suffix_cons _ _
    · cases h

/-- The ways to get on from where two patterns are. -/
theorem mem_successors {config other : Config} : other ∈ successors config ↔
    (∃ a ∈ skips config.1, other = (a, config.2.1, config.2.2)) ∨
      (∃ b ∈ skips config.2.1, other = (config.1, b, config.2.2)) ∨
        ∃ c segment, config.2.2.next c = some segment ∧ ∃ a ∈ steps c config.1, ∃ b ∈ steps c config.2.1,
          other = (a, b, segment) := by
  have reading : other ∈ (chars.flatMap (read config)).eraseDups ↔ ∃ c segment, config.2.2.next c = some segment ∧
      ∃ a ∈ steps c config.1, ∃ b ∈ steps c config.2.1, other = (a, b, segment) := by
    rw [List.mem_eraseDups, List.mem_flatMap]
    constructor
    · rintro ⟨c, _, h⟩
      unfold read at h
      split at h
      · cases h
      · rename_i segment next
        obtain ⟨a, ha, h⟩ := List.mem_flatMap.mp h
        obtain ⟨b, hb, same⟩ := List.mem_map.mp h
        exact ⟨c, segment, next, a, ha, b, hb, same.symm⟩
    · rintro ⟨c, segment, next, a, ha, b, hb, same⟩
      refine ⟨c, mem_chars c, ?_⟩
      simp only [read, next, List.mem_flatMap, List.mem_map]
      exact ⟨a, ha, b, hb, same.symm⟩
  simp only [successors, List.mem_append, List.mem_map, reading, or_assoc, eq_comm]

theorem successors_closed (a b : List Token) : Closed (fun config => some (successors config)) (configs a b) := by
  intro config inside
  refine ⟨_, rfl, ?_⟩
  obtain ⟨left, right⟩ := mem_configs.mp inside
  intro other h
  rw [mem_configs]
  rcases mem_successors.mp h with ⟨a', skipped, rfl⟩ | ⟨b', skipped, rfl⟩ | ⟨c, _, _, a', ha, b', hb, rfl⟩
  · exact ⟨(skips_suffix skipped).trans left, right⟩
  · exact ⟨left, (skips_suffix skipped).trans right⟩
  · exact ⟨(steps_suffix ha).trans left, (steps_suffix hb).trans right⟩

theorem matchTokens_star {tokens : List Token} {cs : List Char} : matchTokens (.star :: tokens) cs = true ↔
    matchTokens tokens cs = true ∨ ∃ c rest, cs = c :: rest ∧ matchTokens (.star :: tokens) rest = true := by
  cases cs with
  | nil => simp [matchTokens]
  | cons c cs => simp [matchTokens, List.tails]

/-- The rest of a text is matched by what is left of a pattern. -/
theorem matchTokens_skips {tokens rest : List Token} {cs : List Char} (h : rest ∈ skips tokens)
    (matched : matchTokens rest cs = true) : matchTokens tokens cs = true := by
  unfold skips at h
  split at h
  · rw [List.mem_singleton.mp h] at matched
    exact matchTokens_star.mpr (.inl matched)
  · cases h

theorem matchTokens_steps {c : Char} {tokens rest : List Token} {cs : List Char} (h : rest ∈ steps c tokens)
    (matched : matchTokens rest cs = true) : matchTokens tokens (c :: cs) = true := by
  unfold steps at h
  split at h
  · cases h
  · rw [List.mem_singleton.mp h] at matched
    exact matchTokens_star.mpr (.inr ⟨c, cs, rfl, matched⟩)
  · rename_i token tokens notStar
    split at h
    · rename_i accepted
      rw [List.mem_singleton.mp h] at matched
      cases token with
      | star => exact absurd rfl notStar
      | _ => simp [matchTokens, accepted, matched]
    · cases h

/-- How a pattern goes along a text that it matches. -/
theorem matchTokens_cases {tokens : List Token} {cs : List Char} (matched : matchTokens tokens cs = true) :
    (∃ rest ∈ skips tokens, matchTokens rest cs = true) ∨ (tokens = [] ∧ cs = []) ∨
      ∃ c later, cs = c :: later ∧ ∃ rest ∈ steps c tokens, matchTokens rest later = true := by
  cases tokens with
  | nil =>
    right
    left
    simpa [matchTokens] using matched
  | cons token tokens =>
    cases token with
    | star =>
      rcases matchTokens_star.mp matched with here | ⟨c, rest, rfl, later⟩
      · exact .inl ⟨tokens, List.mem_singleton.mpr rfl, here⟩
      · exact .inr (.inr ⟨c, rest, rfl, _, List.mem_singleton.mpr rfl, later⟩)
    | _ =>
      right
      right
      cases cs with
      | nil => simp [matchTokens] at matched
      | cons c cs =>
        simp only [matchTokens, Bool.and_eq_true] at matched
        exact ⟨c, cs, rfl, tokens, by simp [steps, matched.1], matched.2⟩

/-- The text takes both patterns and the path to their ends. -/
def Reads (config : Config) (cs : List Char) : Prop :=
  matchTokens config.1 cs = true ∧ matchTokens config.2.1 cs = true ∧ config.2.2.accepts cs = true

theorem reads_of_edge {config other : Config} {cs : List Char} (h : other ∈ successors config) (reads : Reads other cs) :
    ∃ text, Reads config text := by
  rcases mem_successors.mp h with ⟨a, skipped, rfl⟩ | ⟨b, skipped, rfl⟩ | ⟨c, segment, next, a, ha, b, hb, rfl⟩
  · exact ⟨cs, matchTokens_skips skipped reads.1, reads.2⟩
  · exact ⟨cs, reads.1, matchTokens_skips skipped reads.2.1, reads.2.2⟩
  · refine ⟨c :: cs, matchTokens_steps ha reads.1, matchTokens_steps hb reads.2.1, ?_⟩
    rw [Segment.accepts, next]
    exact reads.2.2

theorem steps_length {c : Char} {tokens rest : List Token} (h : rest ∈ steps c tokens) : rest.length ≤ tokens.length :=
  (steps_suffix h).length_le

theorem skips_length {tokens rest : List Token} (h : rest ∈ skips tokens) : rest.length < tokens.length := by
  unfold skips at h
  split at h
  · rw [List.mem_singleton.mp h, List.length_cons]
    omega
  · cases h

/-- A path that both patterns match leads to their ends. -/
theorem reach_of_reads (size : Nat) {config : Config} {cs : List Char} (reads : Reads config cs)
    (bound : cs.length + config.1.length + config.2.1.length < size) :
    ∃ other, Relation.ReflTransGen (Edge fun config => some (successors config)) config other ∧ done other = true := by
  induction size generalizing config cs with
  | zero => omega
  | succ size ih =>
    have go {other : Config} (edge : other ∈ successors config) {later : List Char} (reads : Reads other later)
        (smaller : later.length + other.1.length + other.2.1.length < size) :
        ∃ last, Relation.ReflTransGen (Edge fun config => some (successors config)) config last ∧ done last = true := by
      obtain ⟨last, reach, ends⟩ := ih reads smaller
      exact ⟨last, .head ⟨_, rfl, edge⟩ reach, ends⟩
    obtain ⟨a, b, s⟩ := config
    obtain ⟨left, right, path⟩ := reads
    simp only at bound left right path
    rcases matchTokens_cases left with ⟨a', skipped, left'⟩ | left'
    · have shorter := skips_length skipped
      refine go (mem_successors.mpr (.inl ⟨a', skipped, rfl⟩)) ⟨left', right, path⟩ ?_
      simp only
      omega
    rcases matchTokens_cases right with ⟨b', skipped, right'⟩ | right'
    · have shorter := skips_length skipped
      refine go (mem_successors.mpr (.inr (.inl ⟨b', skipped, rfl⟩))) ⟨left, right', path⟩ ?_
      simp only
      omega
    -- neither pattern begins with a star that is over, so both are at the end or read a character
    rcases left' with ⟨rfl, rfl⟩ | ⟨c, later, rfl, a', ha, left'⟩
    · rcases right' with ⟨rfl, _⟩ | ⟨c, later, read, _⟩
      · refine ⟨_, .refl, ?_⟩
        simpa [done, Segment.accepts] using path
      · cases read
    · rcases right' with ⟨_, read⟩ | ⟨d, later', read, b', hb, right'⟩
      · cases read
      · cases read
        rw [Segment.accepts] at path
        split at path
        · cases path
        · rename_i segment next
          have shorter := steps_length ha
          have shorter' := steps_length hb
          refine go (mem_successors.mpr (.inr (.inr ⟨c, segment, next, a', ha, b', hb, rfl⟩))) ⟨left', right', path⟩ ?_
          simp only [List.length_cons] at bound ⊢
          omega

theorem reads_of_reach {config other : Config}
    (reach : Relation.ReflTransGen (Edge fun config => some (successors config)) config other)
    (ends : done other = true) : ∃ cs, Reads config cs := by
  induction reach using Relation.ReflTransGen.head_induction_on with
  | refl =>
    have same : other = ([], [], .name) := by simpa [done] using ends
    exact ⟨[], by rw [same]; exact ⟨rfl, rfl, rfl⟩⟩
  | head edge _ ih =>
    obtain ⟨more, same, member⟩ := edge
    cases same
    obtain ⟨cs, reads⟩ := ih
    exact reads_of_edge member reads

theorem overlapping_iff {a b : List Token} :
    overlapping a b = true ↔ ∃ cs, Reads (a, b, .empty) cs := by
  have start : ∀ config ∈ [((a, b, .empty) : Config)], config ∈ configs a b := by
    intro config member
    rw [List.mem_singleton.mp member, mem_configs]
    exact ⟨List.suffix_refl a, List.suffix_refl b⟩
  have enough : [((a, b, .empty) : Config)].length +
      unseen (fun config => some (successors config)) [] (configs a b) <
        unseen (fun config => some (successors config)) [] (configs a b) + 2 := by
    rw [List.length_singleton]
    omega
  obtain ⟨found, result, exact⟩ := Search.search_iff done (successors_closed a b) start enough
  simp only [overlapping, result, Option.some.injEq, decide_eq_true_eq]
  rw [exact]
  constructor
  · rintro ⟨config, member, other, reach, ends⟩
    rw [List.mem_singleton.mp member] at reach
    exact reads_of_reach reach ends
  · rintro ⟨cs, reads⟩
    obtain ⟨other, reach, ends⟩ := reach_of_reads _ reads (Nat.lt_succ_self _)
    exact ⟨_, List.mem_singleton.mpr rfl, other, reach, ends⟩

/-- Two patterns overlap exactly when some path of a repository matches both. -/
theorem overlaps_iff {pattern other : String} : overlaps pattern other = true ↔
    ∃ path, isPath path = true ∧ fnmatch path pattern = true ∧ fnmatch path other = true := by
  rw [overlaps, overlapping_iff]
  constructor
  · rintro ⟨cs, left, right, path⟩
    refine ⟨String.ofList cs, ?_, ?_, ?_⟩
    · rwa [isPath, String.toList_ofList]
    · rwa [fnmatch, String.toList_ofList]
    · rwa [fnmatch, String.toList_ofList]
  · rintro ⟨path, fine, left, right⟩
    exact ⟨path.toList, left, right, fine⟩

end Onmc.Fnmatch
