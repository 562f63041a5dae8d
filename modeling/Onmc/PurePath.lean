import Mathlib.Data.List.Basic
import Mathlib.Data.List.Infix
import Onmc.Separated

/-! Pure paths: how a path is spelled, and which file a spelling stands for once its dots are
resolved by the text alone. -/
namespace PurePath

abbrev Part := List Char

/-- A part between slashes that is kept: neither empty nor a single dot. -/
def Kept (part : Part) : Prop := part ≠ [] ∧ part ≠ ['.'] ∧ '/' ∉ part

def kept (part : Part) : Bool := part != [] && part != ['.']

end PurePath

/-- A path as its root, of no, one or two slashes, and its parts. -/
structure PurePath where
  slashes : Fin 3
  parts : List PurePath.Part
  parts_kept : ∀ part ∈ parts, PurePath.Kept part
  deriving DecidableEq

namespace PurePath

/-- The root of a text: two slashes are a root of their own, more are one. -/
def rootOf (text : List Char) : Fin 3 :=
  match text with
  | '/' :: '/' :: '/' :: _ => 1
  | '/' :: '/' :: _ => 2
  | '/' :: _ => 1
  | _ => 0

def partsOf (text : List Char) : List Part := (text.splitOn '/').filter kept

theorem slashless_of_mem_splitOn {text : List Char} {part : Part} (h : part ∈ text.splitOn '/') :
    '/' ∉ part := Onmc.Separated.not_mem_of_mem_splitOn h

theorem partsOf_kept (text : List Char) : ∀ part ∈ partsOf text, Kept part := by
  intro part h
  obtain ⟨member, keep⟩ := List.mem_filter.mp h
  simp only [kept, Bool.and_eq_true, bne_iff_ne] at keep
  exact ⟨keep.1, keep.2, slashless_of_mem_splitOn member⟩

def parse (text : List Char) : PurePath := ⟨rootOf text, partsOf text, partsOf_kept text⟩

/-- The text of a path; the empty one is a dot. -/
def text (p : PurePath) : List Char :=
  if p.slashes = 0 ∧ p.parts = [] then ['.']
  else List.replicate p.slashes '/' ++ ['/'].intercalate p.parts

/-- `PurePath.suffix`: the last dot of a name and what follows it; a dot at either end is none. -/
def suffix (name : Part) : List Char :=
  let ext := name.reverse.takeWhile (· ≠ '.')
  let stem := (name.reverse.dropWhile (· ≠ '.')).drop 1
  if ext = [] ∨ stem = [] then [] else '.' :: ext.reverse

/-- `PurePath.stem` -/
def stem (name : Part) : Part := name.take (name.length - (suffix name).length)

theorem partsOf_slash (text : List Char) : partsOf ('/' :: text) = partsOf text := by
  have split : ('/' :: text).splitOn '/' = [] :: text.splitOn '/' :=
    List.splitOn_append_cons_self_of_not_mem (List.not_mem_nil : '/' ∉ []) text
  simp [partsOf, split, kept]

theorem partsOf_intercalate {parts : List Part} (keep : ∀ part ∈ parts, Kept part) :
    partsOf (['/'].intercalate parts) = parts := by
  by_cases empty : parts = []
  · subst empty
    rfl
  · rw [partsOf, List.splitOn_intercalate '/' (fun part h => (keep part h).2.2) empty]
    apply List.filter_eq_self.mpr
    intro part h
    simp [kept, (keep part h).1, (keep part h).2.1]

theorem intercalate_cons (part : Part) (parts : List Part) :
    ∃ rest, ['/'].intercalate (part :: parts) = part ++ rest := by
  cases parts with
  | nil => exact ⟨[], by simp⟩
  | cons next parts => exact ⟨_, by rw [List.intercalate_cons_cons, List.append_assoc]⟩

/-- A joined path does not begin with a slash. -/
theorem intercalate_slashless {parts : List Part} (keep : ∀ part ∈ parts, Kept part) :
    ∀ rest, ['/'].intercalate parts ≠ '/' :: rest := by
  intro rest same
  cases parts with
  | nil => simp at same
  | cons part parts =>
    obtain ⟨nonempty, -, slashless⟩ := keep part List.mem_cons_self
    obtain ⟨tail, joined⟩ := intercalate_cons part parts
    obtain ⟨c, part', rfl⟩ := List.exists_cons_of_ne_nil nonempty
    rw [joined, List.cons_append, List.cons.injEq] at same
    exact slashless (by simp [same.1])

theorem rootOf_slashless {text : List Char} (h : ∀ rest, text ≠ '/' :: rest) :
    rootOf text = 0 ∧ rootOf ('/' :: text) = 1 ∧ rootOf ('/' :: '/' :: text) = 2 := by
  cases text with
  | nil => exact ⟨rfl, rfl, rfl⟩
  | cons c rest =>
    have differ : c ≠ '/' := fun same => h rest (by rw [same])
    refine ⟨?_, ?_, ?_⟩ <;> simp [rootOf, differ]

@[ext] theorem ext {p q : PurePath} (slashes : p.slashes = q.slashes) (parts : p.parts = q.parts) :
    p = q := by
  cases p
  cases q
  congr

/-- Spelling a path and reading it again changes nothing. -/
theorem parse_text (p : PurePath) : parse p.text = p := by
  obtain ⟨slashes, parts, keep⟩ := p
  have joined := partsOf_intercalate keep
  obtain ⟨none, one, two⟩ := rootOf_slashless (intercalate_slashless keep)
  by_cases empty : slashes = 0 ∧ parts = []
  · obtain ⟨rfl, rfl⟩ := empty
    ext : 1 <;> rfl
  · simp only [text, empty, if_false]
    match slashes with
    | 0 => ext : 1 <;> simp [parse, none, joined]
    | 1 => ext : 1 <;> simp [parse, one, partsOf_slash, joined]
    | 2 => ext : 1 <;> simp [parse, List.replicate, two, partsOf_slash, joined]

/-! The file a path stands for, as the parts that lead to it from the root of the file system. -/

def ascend (place : List Part) (part : Part) : List Part :=
  if part = ['.', '.'] then place.dropLast else place ++ [part]

/-- Where a path leads from a directory, by its text alone. -/
def locate (directory : List Part) (p : PurePath) : List Part :=
  p.parts.foldl ascend (if p.slashes = 0 then directory else [])

/-- The way to a path from a directory it lies under. -/
def below (directory : List Part) (p : PurePath) : Option (List Part) :=
  if directory <+: locate directory p then some ((locate directory p).drop directory.length) else none

theorem foldl_ascend (place parts : List Part) (climbs : ['.', '.'] ∉ parts) :
    parts.foldl ascend place = place ++ parts := by
  induction parts generalizing place with
  | nil => simp
  | cons part parts ih =>
    simp only [List.mem_cons, not_or] at climbs
    rw [List.foldl_cons, ih _ climbs.2]
    simp [ascend, Ne.symm climbs.1]

/-- A relative path without `..` is its own way. -/
theorem below_relative (directory : List Part) {p : PurePath} (relative : p.slashes = 0)
    (climbs : ['.', '.'] ∉ p.parts) : below directory p = some p.parts := by
  simp [below, locate, relative, foldl_ascend _ _ climbs]

end PurePath
