import Mathlib.Data.List.Infix
import Onmc.PyText

/-! Text by lines: what Python's `splitlines` takes for a line end, and what occurs in lines joined by line feeds. -/
namespace Onmc.Lines

/-- The line boundaries of `str.splitlines`. -/
def isBreak (c : Char) : Bool := [10, 11, 12, 13, 28, 29, 30, 133, 8232, 8233].contains c.toNat

/-- `str.splitlines`, with the line under way. -/
def splitFrom : List Char → List Char → List (List Char)
  | line, [] => if line.isEmpty then [] else [line]
  | line, '\r' :: '\n' :: rest => line :: splitFrom [] rest
  | line, c :: rest => if isBreak c then line :: splitFrom [] rest else splitFrom (line ++ [c]) rest

/-- `text.splitlines()` -/
def splitlines (text : String) : List String := (splitFrom [] text.toList).map String.ofList

/-- A line feed ends the line under way. -/
theorem splitFrom_line {cs : List Char} (single : ∀ c ∈ cs, isBreak c = false) (line rest : List Char) :
    splitFrom line (cs ++ '\n' :: rest) = (line ++ cs) :: splitFrom [] rest := by
  induction cs generalizing line with
  | nil =>
    rw [List.nil_append, splitFrom]
    · simp [show isBreak '\n' = true by decide]
    · exact nofun
  | cons c cs ih =>
    have inside := single c List.mem_cons_self
    rw [List.cons_append, splitFrom]
    · simp only [inside, Bool.false_eq_true, if_false, ih (fun d member => single d (List.mem_cons_of_mem _ member)),
        List.append_assoc, List.singleton_append]
    · rintro _ rfl
      exact absurd inside (by decide)

/-- No line boundary in the text. -/
def Unbroken (text : String) : Prop := ∀ c ∈ text.toList, isBreak c = false

instance (text : String) : Decidable (Unbroken text) := List.decidableBAll (fun c => isBreak c = false) text.toList

theorem splitFrom_unbroken {line cs : List Char} (single : ∀ c ∈ line, isBreak c = false) :
    ∀ piece ∈ splitFrom line cs, ∀ c ∈ piece, isBreak c = false := by
  fun_induction splitFrom line cs with
  | case1 line empty => simp
  | case2 line full => simpa using single
  | case3 line rest ih =>
    intro piece member
    rcases List.mem_cons.mp member with rfl | later
    · exact single
    · exact ih nofun piece later
  | case4 line c rest pair ends ih =>
    intro piece member
    rcases List.mem_cons.mp member with rfl | later
    · exact single
    · exact ih nofun piece later
  | case5 line c rest pair inside ih =>
    apply ih
    intro d member
    rcases List.mem_append.mp member with before | last
    · exact single d before
    · rw [List.mem_singleton.mp last]
      simpa using inside

/-- The lines of a text have no line boundary in them. -/
theorem splitlines_unbroken {text line : String} (member : line ∈ splitlines text) : Unbroken line := by
  obtain ⟨piece, split, rfl⟩ := List.mem_map.mp member
  intro c inside
  rw [String.toList_ofList] at inside
  exact @splitFrom_unbroken [] _ nofun piece split c inside

/-- Lines without boundaries, each with a line feed, are split into the same lines. -/
theorem splitlines_feeds {lines : List String} (single : ∀ line ∈ lines, Unbroken line) :
    splitlines (String.ofList (lines.flatMap (fun line => line.toList ++ ['\n']))) = lines := by
  rw [splitlines, String.toList_ofList]
  induction lines with
  | nil => rfl
  | cons line lines ih =>
    have rest := ih (fun other member => single other (List.mem_cons_of_mem _ member))
    rw [List.flatMap_cons, List.append_assoc, List.singleton_append, splitFrom_line (single line List.mem_cons_self),
      List.map_cons, rest, List.nil_append, String.ofList_toList]

section

variable {α : Type} {sep : α} {needle : List α}

/-- What stops before the separator stops before what follows it. -/
theorem prefix_before (absent : sep ∉ needle) {before after : List α} (h : needle <+: before ++ sep :: after) :
    needle <+: before := by
  have line : before ++ [sep] <+: before ++ sep :: after := ⟨after, by simp⟩
  rcases List.prefix_or_prefix_of_prefix h line with short | long
  · rcases List.prefix_concat_iff.mp short with whole | short
    · exact absurd (whole ▸ List.mem_append_right _ List.mem_cons_self) absent
    · exact short
  · exact absurd (long.subset (List.mem_append_right _ List.mem_cons_self)) absent

/-- A needle without the separator lies on one side of it. -/
theorem infix_append_sep (absent : sep ∉ needle) {before after : List α} :
    needle <:+: before ++ sep :: after ↔ needle <:+: before ∨ needle <:+: after := by
  constructor
  · induction before with
    | nil =>
      intro found
      rcases List.infix_cons_iff.mp found with start | later
      · have whole : needle <+: [] ++ sep :: after := start
        exact .inl (prefix_before absent whole).isInfix
      · exact .inr later
    | cons c before ih =>
      intro found
      rcases List.infix_cons_iff.mp found with start | later
      · have whole : needle <+: (c :: before) ++ sep :: after := start
        exact .inl (prefix_before absent whole).isInfix
      · rcases ih later with first | second
        · exact .inl (List.infix_cons first)
        · exact .inr second
  · rintro (first | second)
    · exact List.infix_append_of_infix_left first
    · exact List.infix_append_of_infix_right (List.infix_cons second)

theorem infix_intercalate_of_mem {pieces : List (List α)} {piece : List α} (member : piece ∈ pieces) :
    piece <:+: [sep].intercalate pieces := by
  induction pieces with
  | nil => cases member
  | cons first pieces ih =>
    by_cases last : pieces = []
    · subst last
      rw [List.mem_singleton.mp member, List.intercalate_singleton]
    · rw [List.intercalate_cons_of_ne_nil last, List.append_assoc]
      rcases List.mem_cons.mp member with rfl | later
      · exact List.infix_append_left
      · exact List.infix_append_of_infix_right (List.infix_append_of_infix_right (ih later))

theorem infix_intercalate (absent : sep ∉ needle) {pieces : List (List α)} (some : pieces ≠ []) :
    needle <:+: [sep].intercalate pieces ↔ ∃ piece ∈ pieces, needle <:+: piece := by
  constructor
  · induction pieces with
    | nil => exact absurd rfl some
    | cons first pieces ih =>
      intro found
      by_cases last : pieces = []
      · subst last
        exact ⟨first, List.mem_cons_self, by simpa using found⟩
      · rw [List.intercalate_cons_of_ne_nil last, List.append_assoc, List.singleton_append,
          infix_append_sep absent] at found
        rcases found with found | found
        · exact ⟨first, List.mem_cons_self, found⟩
        · obtain ⟨piece, member, inside⟩ := ih last found
          exact ⟨piece, List.mem_cons_of_mem _ member, inside⟩
  · rintro ⟨piece, member, inside⟩
    exact inside.trans (infix_intercalate_of_mem member)

end

theorem contains_iff {text needle : String} : PyText.contains text needle = true ↔ needle.toList <:+: text.toList := by
  simp only [PyText.contains, List.any_eq_true, List.mem_tails, List.isPrefixOf_iff_prefix]
  constructor
  · rintro ⟨rest, suffix, start⟩
    exact start.isInfix.trans suffix.isInfix
  · rintro ⟨before, after, split⟩
    exact ⟨needle.toList ++ after, ⟨before, by rw [← split, List.append_assoc]⟩, List.prefix_append _ _⟩

/-- What a line holds, the lines joined by line feeds hold. -/
theorem contains_join_of_mem {lines : List String} {line needle : String} (member : line ∈ lines)
    (found : PyText.contains line needle = true) : PyText.contains (PyText.join "\n" lines) needle = true := by
  rw [contains_iff] at found ⊢
  rw [PyText.join, String.toList_intercalate]
  exact found.trans (infix_intercalate_of_mem (List.mem_map_of_mem member))

/-- A needle without a line feed occurs in joined lines exactly where it occurs in one of them. -/
theorem contains_join {lines : List String} {needle : String} (absent : '\n' ∉ needle.toList) (some : lines ≠ []) :
    PyText.contains (PyText.join "\n" lines) needle = true ↔ ∃ line ∈ lines, PyText.contains line needle = true := by
  rw [contains_iff, PyText.join, String.toList_intercalate]
  have feed : "\n".toList = ['\n'] := rfl
  have listed : lines.map String.toList ≠ [] := by simpa using some
  rw [feed, infix_intercalate absent listed]
  simp only [List.mem_map, exists_exists_and_eq_and, contains_iff]

end Onmc.Lines
