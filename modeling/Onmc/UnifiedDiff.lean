import Mathlib.Data.List.Basic

/-! The unified diffs that git writes, and the lines that they add to the new files. -/
namespace UnifiedDiff

inductive Kind
  | context
  | removed
  | added
  deriving DecidableEq

/-- A line of an old or a new file; the last one of a file may have no end. -/
structure BodyLine where
  kind : Kind
  text : String
  ended : Bool
  single : '\n' ∉ text.toList

def Kind.sign : Kind → String
  | .context => " "
  | .removed => "-"
  | .added => "+"

def noNewline : String := "\\ No newline at end of file"

def BodyLine.lines (l : BodyLine) : List String :=
  (l.kind.sign ++ l.text) :: if l.ended then [] else [noNewline]

/-- The lines on the old or on the new side. -/
def count (body : List BodyLine) (absent : Kind) : Nat := (body.filter (fun l => l.kind ≠ absent)).length

structure Hunk where
  oldStart : Nat
  newStart : Nat
  heading : String
  body : List BodyLine
  /-- Lines are counted from one where there are any. -/
  started : 0 < count body .removed → 0 < newStart

/-- `start,count`, the count only where it is not one. -/
def range (start count : Nat) : String := if count = 1 then toString start else toString start ++ "," ++ toString count

def Hunk.header (h : Hunk) : String :=
  "@@ -" ++ range h.oldStart (count h.body .added) ++ " +" ++ range h.newStart (count h.body .removed) ++ " @@" ++ h.heading

def Hunk.lines (h : Hunk) : List String := h.header :: h.body.flatMap BodyLine.lines

/-- What is told of one file: the lines on its names, modes and binary contents, none of which begins like a
hunk or an added line, and its hunks. -/
structure Section where
  preamble : List String
  plain : ∀ l ∈ preamble, l.toList.head? ≠ some '+' ∧ l.toList.head? ≠ some '@'
  /-- The names as they are written. -/
  oldName : String
  newName : String
  /-- The path of the new file. -/
  path : String
  named : path ≠ ""
  hunks : List Hunk

def Section.lines (s : Section) : List String :=
  s.preamble ++ ((if s.hunks = [] then [] else ["--- " ++ s.oldName, "+++ " ++ s.newName]) ++ s.hunks.flatMap Hunk.lines)

abbrev Diff := List Section

def lines (d : Diff) : List String := d.flatMap Section.lines

def text (d : Diff) : String := String.ofList ((lines d).flatMap (fun l => l.toList ++ ['\n']))

/-- An added line, with its file and its number there. -/
structure AddedLine where
  file : String
  lineno : Nat
  text : String
  deriving DecidableEq

/-- The added lines of a body whose first new line has a number. -/
def addedFrom (path : String) : Nat → List BodyLine → List AddedLine
  | _, [] => []
  | n, l :: body =>
    match l.kind with
    | .context => addedFrom path (n + 1) body
    | .removed => addedFrom path n body
    | .added => ⟨path, n, l.text⟩ :: addedFrom path (n + 1) body

def Section.added (s : Section) : List AddedLine := s.hunks.flatMap (fun h => addedFrom s.path h.newStart h.body)

def added (d : Diff) : List AddedLine := d.flatMap Section.added

end UnifiedDiff
