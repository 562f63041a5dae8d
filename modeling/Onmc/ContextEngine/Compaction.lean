import Onmc.Lines
import Onmc.Regex
import Onmc.Dict
import Onmc.EventLog

/-! Verified compaction: what a compacted text must still carry, and the repair that puts it back. The check looks
for a constraint anywhere in the text; the repair looks for it line by line, strips the line, and goes by ids. -/
namespace Onmc.ContextEngine

/-- What is relied on of `str.lower`: a line feed ends every context that it looks at, and it makes none. -/
structure LowersLines [Lowercase] : Prop where
  empty : Lowercase.lower "" = ""
  feed : ∀ before after : String,
    Lowercase.lower (before ++ "\n" ++ after) = Lowercase.lower before ++ "\n" ++ Lowercase.lower after
  unbroken : ∀ text : String, '\n' ∉ text.toList → '\n' ∉ (Lowercase.lower text).toList

inductive ConstraintKind where
  | literal | regex
  deriving DecidableEq

section

variable [Regex.Engine]

/-- One load-bearing fact that must survive every compaction, checked when it is declared. -/
structure Constraint where
  constraintId : String
  pattern : String
  kind : ConstraintKind
  named : PyText.strip constraintId ≠ ""
  nonempty : PyText.strip pattern ≠ ""
  compiles : kind = .regex → Regex.Engine.compiles pattern = true

def Constraint.holdsIn [Lowercase] (c : Constraint) (text : String) : Bool :=
  match c.kind with
  | .regex => Regex.Engine.search true c.pattern text
  | .literal => PyText.contains (Lowercase.lower text) (Lowercase.lower c.pattern)

structure CompactionVerdict where
  accepted : Bool
  lost : List String
  checked : Nat
  tokensBefore : Nat
  tokensAfter : Nat

def CompactionVerdict.tokensFreed (v : CompactionVerdict) : Nat := v.tokensBefore - v.tokensAfter

/-- `_estimate_tokens` -/
def estimateTokens (text : String) : Nat := if text = "" then 0 else max 1 (text.length / 4)

variable [Lowercase]

/-- The constraints that held in the full context. -/
def active (before : String) (constraints : List Constraint) : List Constraint :=
  constraints.filter (fun c => c.holdsIn before)

/-- Those of them that the compacted text no longer satisfies. -/
def missing (before after : String) (constraints : List Constraint) : List Constraint :=
  (active before constraints).filter (fun c => !c.holdsIn after)

def checkCompaction (before after : String) (constraints : List Constraint) : CompactionVerdict :=
  let lost := (missing before after constraints).map Constraint.constraintId
  ⟨lost.isEmpty, lost, (active before constraints).length, estimateTokens before, estimateTokens after⟩

/-- `{c.constraint_id: c for c in constraints}` -/
def byId (constraints : List Constraint) : List (String × Constraint) :=
  constraints.foldl (fun items c => Dict.setItem c.constraintId c items) []

/-- The first line of the full context that satisfies the constraint, else its pattern; stripped. -/
def preservedLine (before : String) (c : Constraint) : String :=
  PyText.strip (((Lines.splitlines before).find? (fun line => c.holdsIn line)).getD c.pattern)

/-- `by_id[constraint_id]`, and its line. -/
def preservedFor (before : String) (constraints : List Constraint) (constraintId : String) : Except String String :=
  match (byId constraints).lookup constraintId with
  | some c => .ok (preservedLine before c)
  | none => .error ("KeyError: " ++ constraintId)

def repairCompaction (after before : String) (verdict : CompactionVerdict) (constraints : List Constraint) :
    Except String String :=
  if verdict.accepted then .ok after
  else do
    let preserved ← verdict.lost.mapM (preservedFor before constraints)
    let block := PyText.join "\n" (PyText.fromKeys preserved)
    .ok (after ++ "\n\n<preserved-constraints>\n" ++ block ++ "\n</preserved-constraints>")

end

/-! The check, read as a law about the constraints. -/

section

variable [Regex.Engine] [Lowercase]

theorem accepted_iff {before after : String} {constraints : List Constraint} :
    (checkCompaction before after constraints).accepted = true ↔
      ∀ c ∈ constraints, c.holdsIn before = true → c.holdsIn after = true := by
  simp only [checkCompaction, missing, active, List.isEmpty_iff, List.map_eq_nil_iff, List.filter_eq_nil_iff,
    List.mem_filter, Bool.not_eq_true, Bool.not_eq_false', and_imp]

omit [Lowercase] in
/-- The last constraint declared under an id answers for it. -/
theorem lookup_byId (constraints : List Constraint) (id : String) :
    (byId constraints).lookup id = constraints.reverse.find? (fun c => c.constraintId = id) := by
  have fold : ∀ (later : List Constraint) (items : List (String × Constraint)),
      (later.foldl (fun items c => Dict.setItem c.constraintId c items) items).lookup id =
        (later.reverse.find? (fun c => c.constraintId = id)).or (items.lookup id) := by
    intro later
    induction later with
    | nil => simp
    | cons c later ih =>
      intro items
      rw [List.foldl_cons, ih, Dict.lookup_setItem, List.reverse_cons, List.find?_append]
      cases found : later.reverse.find? (fun c => c.constraintId = id) with
      | some d => rfl
      | none =>
        by_cases same : c.constraintId = id
        · simp [same]
        · simp [same, Ne.symm same]
  rw [byId, fold]
  simp

/-- The lines that the repair puts back, one for each lost constraint: that of the last one under its id. -/
def putBack (before after : String) (constraints : List Constraint) : List String :=
  (missing before after constraints).map (fun c => preservedLine before
    ((constraints.reverse.find? (fun d => d.constraintId = c.constraintId)).getD c))

theorem preserved_ok (before after : String) (constraints : List Constraint) :
    ((missing before after constraints).map Constraint.constraintId).mapM (preservedFor before constraints) =
      .ok (putBack before after constraints) := by
  have known : ∀ c ∈ missing before after constraints, c ∈ constraints := by
    intro c member
    exact List.mem_of_mem_filter (List.mem_of_mem_filter member)
  unfold putBack
  generalize missing before after constraints = lost at known
  induction lost with
  | nil => rfl
  | cons c lost ih =>
    obtain ⟨d, found⟩ : ∃ d, constraints.reverse.find? (fun d => d.constraintId = c.constraintId) = some d := by
      rw [← Option.isSome_iff_exists, List.find?_isSome]
      exact ⟨c, List.mem_reverse.mpr (known c List.mem_cons_self), by simp⟩
    have first : preservedFor before constraints c.constraintId = .ok (preservedLine before d) := by
      simp only [preservedFor, lookup_byId, found]
    have rest := ih (fun c member => known c (List.mem_cons_of_mem _ member))
    simp only [List.map_cons, List.mapM_cons, first, rest, Except.ok_bind, found, Option.getD_some]
    rfl

/-- The lines of a repaired text, the compacted text being the first. -/
def repairedLines (before after : String) (constraints : List Constraint) : List String :=
  [after, "", "<preserved-constraints>"] ++ PyText.fromKeys (putBack before after constraints) ++
    ["</preserved-constraints>"]

theorem repair_rejected {before after : String} {constraints : List Constraint}
    (rejected : (checkCompaction before after constraints).accepted = false) :
    repairCompaction after before (checkCompaction before after constraints) constraints =
      .ok (PyText.join "\n" (repairedLines before after constraints)) := by
  have some : PyText.fromKeys (putBack before after constraints) ≠ [] := by
    intro none
    have lost : (missing before after constraints) ≠ [] := by
      intro empty
      rw [checkCompaction, empty] at rejected
      cases rejected
    obtain ⟨c, rest, split⟩ := List.exists_cons_of_ne_nil lost
    have member : preservedLine before ((constraints.reverse.find? (fun d => d.constraintId = c.constraintId)).getD c) ∈
        PyText.fromKeys (putBack before after constraints) := by
      rw [PyText.fromKeys, List.mem_eraseDups, putBack, split]
      exact List.mem_cons_self
    rw [none] at member
    cases member
  have lost : (checkCompaction before after constraints).lost =
      (missing before after constraints).map Constraint.constraintId := rfl
  simp only [repairCompaction, rejected, Bool.false_eq_true, if_false, lost, preserved_ok, Except.ok_bind]
  congr 1
  simp only [repairedLines, PyText.join, List.cons_append, List.nil_append]
  rw [String.intercalate_cons_cons, String.intercalate_cons_cons, String.intercalate_cons_of_ne_nil (by simp),
    String.intercalate_append_of_ne_nil some (by simp), String.intercalate_singleton]
  apply String.toList_injective
  simp

/-- The constraint keeps holding in a text when lines are put around it. -/
def Constraint.Local (c : Constraint) : Prop :=
  ∀ lines line, line ∈ lines → c.holdsIn line = true → c.holdsIn (PyText.join "\n" lines) = true

/-- A literal without a line feed. -/
def Constraint.OneLine (c : Constraint) : Prop := c.kind = .literal ∧ '\n' ∉ c.pattern.toList

/-- The constraint holds in the compacted text, in a line that is put back, or in a tag of the repair. -/
def Carried (before after : String) (constraints : List Constraint) (c : Constraint) : Prop :=
  c.holdsIn after = true ∨ (∃ line ∈ putBack before after constraints, c.holdsIn line = true) ∨
    c.holdsIn "<preserved-constraints>" = true ∨ c.holdsIn "</preserved-constraints>" = true

omit [Regex.Engine] in
theorem lower_join (lowers : LowersLines) (lines : List String) :
    Lowercase.lower (PyText.join "\n" lines) = PyText.join "\n" (lines.map Lowercase.lower) := by
  simp only [PyText.join]
  induction lines with
  | nil =>
    rw [String.intercalate_nil, lowers.empty]
    rfl
  | cons line lines ih =>
    by_cases last : lines = []
    · subst last
      simp
    · have mapped : lines.map Lowercase.lower ≠ [] := by simpa using last
      rw [List.map_cons, String.intercalate_cons_of_ne_nil last, String.intercalate_cons_of_ne_nil mapped, lowers.feed, ih]

theorem holdsIn_literal {c : Constraint} (literal : c.kind = .literal) (text : String) :
    c.holdsIn text = PyText.contains (Lowercase.lower text) (Lowercase.lower c.pattern) := by
  simp only [Constraint.holdsIn, literal]

/-- Every literal is found wherever a line that holds it stands. -/
theorem literal_local (lowers : LowersLines) {c : Constraint} (literal : c.kind = .literal) : c.Local := by
  intro lines line member holds
  rw [holdsIn_literal literal] at holds ⊢
  rw [lower_join lowers]
  exact Lines.contains_join_of_mem (List.mem_map_of_mem member) holds

theorem mem_repairedLines {before after : String} {constraints : List Constraint} {line : String} :
    line ∈ repairedLines before after constraints ↔ line = after ∨ line = "" ∨ line = "<preserved-constraints>" ∨
      line ∈ putBack before after constraints ∨ line = "</preserved-constraints>" := by
  simp only [repairedLines, PyText.fromKeys, List.mem_append, List.mem_cons, List.mem_eraseDups, List.not_mem_nil, or_false,
    or_assoc]

/-- What is carried is found in the repaired text. -/
theorem carried_found {before after : String} {constraints : List Constraint} {c : Constraint} (anywhere : c.Local)
    (carried : Carried before after constraints c) :
    c.holdsIn (PyText.join "\n" (repairedLines before after constraints)) = true := by
  rcases carried with holds | ⟨line, member, holds⟩ | holds | holds
  · exact anywhere _ after (mem_repairedLines.mpr (.inl rfl)) holds
  · exact anywhere _ line (mem_repairedLines.mpr (.inr (.inr (.inr (.inl member))))) holds
  · exact anywhere _ _ (mem_repairedLines.mpr (.inr (.inr (.inl rfl)))) holds
  · exact anywhere _ _ (mem_repairedLines.mpr (.inr (.inr (.inr (.inr rfl))))) holds

/-- A one-line literal that is found in the repaired text is carried. -/
theorem found_carried (lowers : LowersLines) {before after : String} {constraints : List Constraint} {c : Constraint}
    (oneLine : c.OneLine) (found : c.holdsIn (PyText.join "\n" (repairedLines before after constraints)) = true) :
    Carried before after constraints c := by
  obtain ⟨literal, unbroken⟩ := oneLine
  rw [holdsIn_literal literal, lower_join lowers, Lines.contains_join (lowers.unbroken _ unbroken)
    (by simp [repairedLines])] at found
  obtain ⟨lowered, member, holds⟩ := found
  obtain ⟨line, listed, rfl⟩ := List.mem_map.mp member
  rw [← holdsIn_literal literal] at holds
  rcases mem_repairedLines.mp listed with rfl | rfl | rfl | back | rfl
  · exact .inl holds
  · rw [holdsIn_literal literal, lowers.empty, Lines.contains_iff] at holds
    have blank : (Lowercase.lower c.pattern).toList = [] := List.infix_nil.mp holds
    refine .inl ?_
    rw [holdsIn_literal literal, Lines.contains_iff, blank]
    exact List.nil_infix
  · exact .inr (.inr (.inl holds))
  · exact .inr (.inl ⟨line, back, holds⟩)
  · exact .inr (.inr (.inr holds))

/-- Repairing an accepted text leaves it as it is. A repaired text is accepted where every constraint that held
before is carried and keeps holding among other lines; and for a one-line literal there is no other way. -/
theorem repair_passes (lowers : LowersLines) (before after : String) (constraints : List Constraint) :
    ∃ repaired,
      repairCompaction after before (checkCompaction before after constraints) constraints = .ok repaired ∧
      ((checkCompaction before after constraints).accepted = true → repaired = after) ∧
      ((∀ c ∈ active before constraints, Carried before after constraints c ∧ c.Local) →
        (checkCompaction before repaired constraints).accepted = true) ∧
      ((checkCompaction before repaired constraints).accepted = true →
        ∀ c ∈ active before constraints, c.OneLine → Carried before after constraints c) := by
  cases accepted : (checkCompaction before after constraints).accepted with
  | true =>
    refine ⟨after, ?_, fun _ => rfl, fun _ => accepted, ?_⟩
    · simp only [repairCompaction, accepted, if_true]
    · intro _ c member _
      obtain ⟨declared, held⟩ := List.mem_filter.mp member
      exact .inl (accepted_iff.mp accepted c declared held)
  | false =>
    refine ⟨_, repair_rejected accepted, ?_, ?_, ?_⟩
    · intro impossible
      cases impossible
    · intro carried
      rw [accepted_iff]
      intro c declared held
      obtain ⟨carries, anywhere⟩ := carried c (List.mem_filter.mpr ⟨declared, held⟩)
      exact carried_found anywhere carries
    · intro passes c member oneLine
      obtain ⟨declared, held⟩ := List.mem_filter.mp member
      exact found_carried lowers oneLine (accepted_iff.mp passes c declared held)

end

section

/-- Patterns that match nothing: a world without regular expressions. -/
@[reducible] def noPatterns : Regex.Engine := ⟨fun _ => true, fun _ _ _ => false⟩

attribute [local instance] noPatterns Lowercase.ascii

theorem ascii_lowersLines : LowersLines where
  empty := rfl
  feed := by
    intro before after
    apply String.toList_injective
    simp only [Lowercase.lower, String.toList_append, String.toList_ofList, List.map_append]
    rfl
  unbroken := by
    intro text absent present
    simp only [Lowercase.lower, String.toList_ofList, List.mem_map] at present
    obtain ⟨c, member, lowered⟩ := present
    have feed : c = '\n' := by
      unfold Char.toLower at lowered
      split at lowered
      · rename_i capital
        have small := congrArg Char.toNat lowered
        simp only [Char.toNat, UInt32.toNat_add] at small
        have least : 65 ≤ c.toNat := capital.1
        have most : c.toNat ≤ 90 := capital.2
        simp at small
        omega
      · exact lowered
    exact absent (feed ▸ member)

def literalConstraint (constraintId pattern : String) (named : PyText.strip constraintId ≠ "")
    (nonempty : PyText.strip pattern ≠ "") : Constraint where
  constraintId := constraintId
  pattern := pattern
  kind := .literal
  named := named
  nonempty := nonempty
  compiles := by
    intro regex
    cases regex

def noPush : Constraint := literalConstraint "c1" "no force-push" (by decide) (by decide)

def indentedPush : Constraint := literalConstraint "c1" "    no force-push" (by decide) (by decide)

theorem repair_passes_push :
    (repairCompaction "summary" "Policy:\n    no force-push" (checkCompaction "Policy:\n    no force-push" "summary" [noPush])
      [noPush]).map (fun repaired => (checkCompaction "Policy:\n    no force-push" repaired [noPush]).accepted) = .ok true := by
  obtain ⟨repaired, repairs, -, passes, -⟩ :=
    repair_passes ascii_lowersLines "Policy:\n    no force-push" "summary" [noPush]
  have accepted := passes (by
    intro c member
    obtain rfl := List.mem_singleton.mp (List.mem_of_mem_filter member)
    exact ⟨.inr (.inl ⟨"no force-push", by decide, by decide⟩), literal_local ascii_lowersLines rfl⟩)
  rw [repairs]
  exact congrArg Except.ok accepted

/-- A literal with its indentation: the line is put back without it. -/
theorem repair_padded :
    (repairCompaction "summary" "Policy:\n    no force-push"
      (checkCompaction "Policy:\n    no force-push" "summary" [indentedPush]) [indentedPush]) =
        .ok "summary\n\n<preserved-constraints>\nno force-push\n</preserved-constraints>" ∧
    (checkCompaction "Policy:\n    no force-push"
      "summary\n\n<preserved-constraints>\nno force-push\n</preserved-constraints>" [indentedPush]).accepted = false := by
  constructor <;> decide +kernel

end

end Onmc.ContextEngine
