import Mathlib.Data.List.Nodup
import Mathlib.Data.List.Sort
import Onmc.UnifiedDiff
import Onmc.Lines

/-! How git names the files of a diff and orders its hunks. -/
namespace UnifiedDiff

open Onmc.Lines (isBreak Unbroken)

/-- A character that git writes in a name as it is. -/
def plainChar (c : Char) : Bool := decide (32 ≤ c.toNat ∧ c.toNat ≤ 126) && c ≠ '"' && c ≠ '\\'

def octalDigit (n : Nat) : Char := Char.ofNat (48 + n % 8)

def octal (byte : UInt8) : List Char :=
  ['\\', octalDigit (byte.toNat / 64), octalDigit (byte.toNat / 8), octalDigit byte.toNat]

def quoteChar (c : Char) : List Char :=
  if plainChar c then [c]
  else
    match c.toNat with
    | 7 => ['\\', 'a']
    | 8 => ['\\', 'b']
    | 9 => ['\\', 't']
    | 10 => ['\\', 'n']
    | 11 => ['\\', 'v']
    | 12 => ['\\', 'f']
    | 13 => ['\\', 'r']
    | 34 => ['\\', '"']
    | 92 => ['\\', '\\']
    | _ => (String.utf8EncodeChar c).flatMap octal

/-- The new name with its prefix, quoted where it has to be. -/
def label (path : String) : String :=
  if path.toList.all plainChar then "b/" ++ path
  else String.ofList (['"', 'b', '/'] ++ path.toList.flatMap quoteChar ++ ['"'])

/-- A tab ends a label with a space in it. -/
def newLabel (path : String) : String := if ' ' ∈ (label path).toList then label path ++ "\t" else label path

/-- A diff as git writes it with its default settings: the hunks of a file are in the order of its lines and
apart, and no file that is added to comes twice. -/
structure GitDiff where
  sections : Diff
  ordered : ∀ s ∈ sections, s.hunks.Pairwise (fun h h' => h.newStart + count h.body .removed ≤ h'.newStart)
  apart : sections.Pairwise (fun s s' => s.added ≠ [] → s'.added ≠ [] → s.path ≠ s'.path)
  labelled : ∀ s ∈ sections, s.newName = newLabel s.path ∨ (s.newName = "/dev/null" ∧ s.added = [])

/-! Names. -/

def Shown (c : Char) : Prop := 32 ≤ c.toNat ∧ c.toNat ≤ 126

theorem shown_octalDigit (n : Nat) : Shown (octalDigit n) := by
  have all : ∀ k < 8, Shown (Char.ofNat (48 + k)) := by
    unfold Shown
    decide
  exact all (n % 8) (Nat.mod_lt n (by decide))

theorem shown_octal (byte : UInt8) : ∀ c ∈ octal byte, Shown c := by
  intro c member
  simp only [octal, List.mem_cons, List.not_mem_nil, or_false] at member
  rcases member with rfl | rfl | rfl | rfl
  · unfold Shown
    decide
  · exact shown_octalDigit _
  · exact shown_octalDigit _
  · exact shown_octalDigit _

theorem shown_plainChar {c : Char} (plain : plainChar c = true) : Shown c := by
  simp only [plainChar, Bool.and_eq_true, decide_eq_true_eq] at plain
  exact plain.1.1

theorem shown_one {c : Char} (shown : Shown c) : ∀ d ∈ [c], Shown d := by
  intro d member
  exact List.mem_singleton.mp member ▸ shown

/-- What is written for a character can be printed, and is something. -/
theorem quoteChar_shown (c : Char) : (∀ d ∈ quoteChar c, Shown d) ∧ quoteChar c ≠ [] := by
  unfold quoteChar
  split
  · rename_i plain
    refine ⟨fun d member => ?_, List.cons_ne_nil _ _⟩
    rw [List.mem_singleton.mp member]
    exact shown_plainChar plain
  · split
    all_goals first
      | exact ⟨List.forall_mem_cons.mpr ⟨by unfold Shown; decide, shown_one (by unfold Shown; decide)⟩, List.cons_ne_nil _ _⟩
      | skip
    constructor
    · intro d member
      obtain ⟨byte, -, inside⟩ := List.mem_flatMap.mp member
      exact shown_octal byte d inside
    · intro none
      cases bytes : String.utf8EncodeChar c with
      | nil =>
        have size := String.length_utf8EncodeChar c
        rw [bytes, List.length_nil] at size
        exact absurd size.symm (Nat.pos_iff_ne_zero.mp c.utf8Size_pos)
      | cons byte bytes' =>
        rw [bytes, List.flatMap_cons] at none
        cases none

theorem label_shown (path : String) : ∀ c ∈ (label path).toList, Shown c := by
  have quote : Shown '"' := by unfold Shown; decide
  have letter : Shown 'b' := by unfold Shown; decide
  have slash : Shown '/' := by unfold Shown; decide
  have plain : ∀ d ∈ "b/".toList, Shown d := List.forall_mem_cons.mpr ⟨letter, shown_one slash⟩
  have fixed : (∀ d ∈ "b/".toList, Shown d) ∧ (∀ d ∈ ['"', 'b', '/'], Shown d) ∧ ∀ d ∈ ['"'], Shown d :=
    ⟨plain, List.forall_mem_cons.mpr ⟨quote, plain⟩, shown_one quote⟩
  intro c member
  unfold label at member
  split at member
  · rename_i plain
    rw [String.toList_append] at member
    rcases List.mem_append.mp member with start | inside
    · exact fixed.1 c start
    · exact shown_plainChar (List.all_eq_true.mp plain c inside)
  · rw [String.toList_ofList, List.mem_append, List.mem_append] at member
    rcases member with (start | inside) | last
    · exact fixed.2.1 c start
    · obtain ⟨d, -, quoted⟩ := List.mem_flatMap.mp inside
      exact (quoteChar_shown d).1 c quoted
    · exact fixed.2.2 c last

theorem shown_unbroken {c : Char} (shown : Shown c) : isBreak c = false := by
  obtain ⟨low, high⟩ := shown
  simp only [isBreak, List.contains_eq_mem, List.mem_cons, List.not_mem_nil, or_false, decide_eq_false_iff_not]
  omega

theorem newLabel_unbroken (path : String) : Unbroken (newLabel path) := by
  have inside (c : Char) (member : c ∈ (label path).toList) := shown_unbroken (label_shown path c member)
  have tab : Unbroken "\t" := by decide
  intro c member
  unfold newLabel at member
  split at member
  · rw [String.toList_append] at member
    rcases List.mem_append.mp member with first | last
    · exact inside c first
    · exact tab c last
  · exact inside c member

theorem length_quoted (cs : List Char) : cs.length ≤ (cs.flatMap quoteChar).length := by
  induction cs with
  | nil => simp
  | cons c cs ih =>
    have some := List.length_pos_iff.mpr (quoteChar_shown c).2
    simp only [List.flatMap_cons, List.length_append, List.length_cons]
    omega

/-! Line numbers. -/

theorem addedFrom_range {path : String} {n : Nat} {body : List BodyLine} :
    ∀ a ∈ addedFrom path n body, a.file = path ∧ n ≤ a.lineno ∧ a.lineno < n + count body .removed := by
  induction body generalizing n with
  | nil => exact nofun
  | cons l body ih =>
    have next : count (l :: body) .removed = count body .removed + if l.kind = .removed then 0 else 1 := by
      simp only [count, List.filter_cons]
      by_cases kind : l.kind = .removed
      · simp [kind]
      · simp [kind]
    intro a member
    rw [next]
    cases kind : l.kind with
    | context =>
      simp only [addedFrom, kind] at member
      obtain ⟨same, low, high⟩ := ih a member
      exact ⟨same, by omega, by simp only [reduceCtorEq, if_false]; omega⟩
    | removed =>
      simp only [addedFrom, kind] at member
      obtain ⟨same, low, high⟩ := ih a member
      exact ⟨same, low, by simp only [if_true]; omega⟩
    | added =>
      simp only [addedFrom, kind] at member
      simp only [reduceCtorEq, if_false]
      rcases List.mem_cons.mp member with rfl | later
      · exact ⟨rfl, Nat.le_refl n, Nat.lt_add_of_pos_right (Nat.succ_pos _)⟩
      · obtain ⟨same, low, high⟩ := ih a later
        exact ⟨same, by omega, by omega⟩

theorem addedFrom_sorted (path : String) (n : Nat) (body : List BodyLine) :
    (addedFrom path n body).Pairwise (fun a b => a.lineno < b.lineno) := by
  induction body generalizing n with
  | nil => exact List.Pairwise.nil
  | cons l body ih =>
    cases kind : l.kind with
    | context => simpa only [addedFrom, kind] using ih (n + 1)
    | removed => simpa only [addedFrom, kind] using ih n
    | added =>
      simp only [addedFrom, kind]
      refine List.pairwise_cons.mpr ⟨fun b member => ?_, ih (n + 1)⟩
      exact (addedFrom_range b member).2.1

theorem Section.added_file (s : Section) : ∀ a ∈ s.added, a.file = s.path := by
  intro a member
  obtain ⟨h, -, inside⟩ := List.mem_flatMap.mp member
  exact (addedFrom_range a inside).1

theorem Section.added_sorted {s : Section}
    (ordered : s.hunks.Pairwise (fun h h' => h.newStart + count h.body .removed ≤ h'.newStart)) :
    s.added.Pairwise (fun a b => a.lineno < b.lineno) := by
  refine List.pairwise_flatMap.mpr ⟨fun h _ => addedFrom_sorted s.path h.newStart h.body, ?_⟩
  apply ordered.imp
  intro h h' order a first b second
  have low := (addedFrom_range b second).2.1
  have high := (addedFrom_range a first).2.2
  omega

/-- An added line by its file and its number there. -/
def AddedLine.at (a : AddedLine) : String × Nat := (a.file, a.lineno)

/-- No line of a file is added twice. -/
theorem GitDiff.added_nodup (d : GitDiff) : ((added d.sections).map AddedLine.at).Nodup := by
  rw [List.Nodup, List.pairwise_map]
  refine List.pairwise_flatMap.mpr ⟨fun s member => ?_, ?_⟩
  · apply (Section.added_sorted (d.ordered s member)).imp
    intro a b less same
    have numbers : a.lineno = b.lineno := congrArg Prod.snd same
    omega
  · apply d.apart.imp
    intro s s' apart a first b second same
    apply apart (List.ne_nil_of_mem first) (List.ne_nil_of_mem second)
    have files : a.file = b.file := congrArg Prod.fst same
    rw [← s.added_file a first, files, s'.added_file b second]

end UnifiedDiff
