import Mathlib.Algebra.Order.BigOperators.Group.List
import Onmc.Dict
import Onmc.GitDiff
import Onmc.LinePieces
import Onmc.VisibleLines
import Onmc.Verifier.Adapters
import Onmc.VerifyDiff.Reading

/-! The lines that a run changed, as the coverage gate reads them from its diff, and when they are the
lines that the diff adds. -/
namespace Onmc.Harness.CoverageGate

open PyText Lines UnifiedDiff
open VerifyDiff (hunkStart)

/-- `path`, `new_line` and `in_hunk` -/
structure Cursor where
  path : Option String
  newLine : Nat
  inHunk : Bool

/-- `text.removeprefix(start)` -/
def removePrefix (start text : String) : String :=
  if startsWith text start then String.ofList (text.toList.drop start.toList.length) else text

def target (raw : String) : Option String :=
  let target := strip (String.ofList (raw.toList.drop 4))
  if target = "/dev/null" then none else some (removePrefix "b/" target)

/-- One turn of the loop, and the line of a file that it adds to the result. -/
def readLine (c : Cursor) (raw : String) : Cursor × List (String × Nat) :=
  if startsWith raw "+++ " then ({ c with path := target raw, inHunk := false }, [])
  else
    match hunkStart raw with
    | some n => ({ c with newLine := n, inHunk := true }, [])
    | none =>
      match c.inHunk, c.path with
      | true, some path =>
        if startsWith raw "+" && !startsWith raw "+++" then ({ c with newLine := c.newLine + 1 }, [(path, c.newLine)])
        else if startsWith raw "-" && !startsWith raw "---" then (c, [])
        else ({ c with newLine := c.newLine + 1 }, [])
      | _, _ => (c, [])

def readLines : Cursor → List String → Cursor × List (String × Nat)
  | c, [] => (c, [])
  | c, raw :: rest =>
    let (c, first) := readLine c raw
    let (c, others) := readLines c rest
    (c, first ++ others)

/-- The lines of each file; a file is there once a line of it is. -/
def changedLinesFromDiff (diffText : String) : List (String × List Nat) :=
  (readLines ⟨none, 0, false⟩ (splitlines diffText)).2.foldl (fun changed line => Dict.addTo line.1 line.2 changed) []

/-- For each file exactly the new numbers of the added lines. -/
def Exact (d : GitDiff) : Prop :=
  ∀ path n, n ∈ Dict.listed (changedLinesFromDiff (text d.sections)) path ↔
    (path, n) ∈ (added d.sections).map AddedLine.at

/-! When it is. -/

/-- A path that the reader takes for itself: printable without quotes and backslashes, no space at its end. -/
def Legible (path : String) : Prop := path.toList.all plainChar ∧ path.toList.getLast? ≠ some ' '

/-- How far a stray piece moves the count. -/
def slip (stray : List String) : Nat :=
  (stray.map (fun piece => if startsWith piece "-" && !startsWith piece "---" then 0 else 1)).sum

/-- How far the count is off after a line of a body: a removed line that begins with `--` is counted, and so are the
pieces that another line boundary cuts off and the remark on a missing newline. -/
def drift (l : BodyLine) : Nat :=
  (if l.kind = .removed && startsWith l.text "--" then 1 else 0) + slip (extra (l.kind.sign ++ l.text)) +
    if l.ended then 0 else 1

/-- How far the count is off at the start of a body. -/
def lead (h : Hunk) : Nat := slip (extra h.header)

/-- No piece that another line boundary cuts off is taken for an added line or for a header. -/
def QuietLine (raw : String) : Prop := ∀ piece ∈ extra raw, startsWith piece "+" = false ∧ hunkStart piece = none

def Quiet (d : Diff) : Prop := ∀ raw ∈ lines d, QuietLine raw

/-- An added line does not begin like a header. -/
def PlainLine (l : BodyLine) : Prop := l.kind = .added → startsWith l.text "++" = false

structure Clear (d : Diff) : Prop where
  plain : ∀ s ∈ d, ∀ h ∈ s.hunks, ∀ l ∈ h.body, PlainLine l
  /-- The count is right at each added line. -/
  started : ∀ s ∈ d, ∀ h ∈ s.hunks, VerifyDiff.Adds h.body → lead h = 0
  steady : ∀ s ∈ d, ∀ h ∈ s.hunks, h.body.Pairwise (fun l next => next.kind = .added → drift l = 0)
  legible : ∀ s ∈ d, s.added ≠ [] → Legible s.path

/-! Names. -/

/-- The name that is read from a label. -/
def readName (path : String) : String :=
  if path.toList.all plainChar then String.ofList (path.toList.reverse.dropWhile isSpace).reverse else label path

theorem stripChars_ends {c d : Char} (first : isSpace c = false) (last : isSpace d = false) (cs : List Char) :
    stripChars (c :: (cs ++ [d])) = c :: (cs ++ [d]) := by
  have back : (c :: (cs ++ [d])).reverse = d :: (cs.reverse ++ [c]) := by simp
  rw [stripChars, List.dropWhile_cons_of_neg (by simp [first]), back, List.dropWhile_cons_of_neg (by simp [last]), ← back,
    List.reverse_reverse]

theorem strip_newLabel (path : String) : strip (newLabel path) = strip (label path) := by
  unfold newLabel
  split
  · have tab : "\t".toList = ['\t'] := by decide
    rw [strip, strip, String.toList_append, tab, stripChars_last (by decide)]
  · rfl

/-- White space goes from the end of a name that is not quoted. -/
theorem stripChars_unquoted (cs : List Char) :
    stripChars ('b' :: '/' :: cs) = 'b' :: '/' :: (cs.reverse.dropWhile isSpace).reverse := by
  have fixed : isSpace 'b' = false ∧ isSpace '/' = false := by decide
  have back : ('b' :: '/' :: cs).reverse = cs.reverse ++ ['/', 'b'] := by simp
  rw [stripChars, List.dropWhile_cons_of_neg (by simp [fixed]), back, List.dropWhile_append]
  split
  · rename_i blank
    rw [List.isEmpty_iff.mp blank]
    simp [fixed]
  · simp

theorem target_label (path : String) : target ("+++ " ++ newLabel path) = some (readName path) := by
  have rest : String.ofList (("+++ " ++ newLabel path).toList.drop 4) = newLabel path := by
    rw [String.toList_append, List.drop_left' (by decide), String.ofList_toList]
  simp only [target, rest, strip_newLabel]
  unfold label readName
  split
  · have chars : ("b/" ++ path).toList = 'b' :: '/' :: path.toList := by simp
    have stripped : (strip ("b/" ++ path)).toList = 'b' :: '/' :: (path.toList.reverse.dropWhile isSpace).reverse := by
      rw [strip, String.toList_ofList, chars, stripChars_unquoted]
    have other : strip ("b/" ++ path) ≠ "/dev/null" := by
      intro same
      rw [same] at stripped
      exact absurd (congrArg List.head? stripped) (by rw [List.head?_cons]; decide)
    rw [if_neg other, removePrefix]
    simp [startsWith, stripped]
  · rename_i quoted
    have stripped : strip (String.ofList (['"', 'b', '/'] ++ path.toList.flatMap quoteChar ++ ['"'])) =
        String.ofList (['"', 'b', '/'] ++ path.toList.flatMap quoteChar ++ ['"']) := by
      rw [strip, String.toList_ofList]
      exact congrArg String.ofList (stripChars_ends (by decide) (by decide) _)
    have other : String.ofList (['"', 'b', '/'] ++ path.toList.flatMap quoteChar ++ ['"']) ≠ "/dev/null" := by
      intro same
      have chars := congrArg (fun name => name.toList.head?) same
      exact absurd chars (by simp)
    rw [stripped, if_neg other, removePrefix, label, if_neg quoted]
    simp [startsWith]

theorem readName_legible {path : String} (legible : Legible path) : readName path = path := by
  obtain ⟨plain, last⟩ := legible
  rw [readName, if_pos plain]
  have whole : path.toList.reverse.dropWhile isSpace = path.toList.reverse := by
    apply dropWhile_self
    intro c first
    have inside : c ∈ path.toList := List.mem_reverse.mp (List.mem_of_head? first)
    have shown := shown_plainChar (List.all_eq_true.mp plain c inside)
    rw [List.head?_reverse] at first
    rw [Bool.eq_false_iff]
    intro space
    have blank : c = ' ' := by
      obtain ⟨low, high⟩ := shown
      apply Char.toNat_inj.mp
      simp only [isSpace, Bool.or_eq_true, Bool.and_eq_true, decide_eq_true_eq, beq_iff_eq] at space
      have value : ' '.toNat = 32 := rfl
      omega
    exact last (blank ▸ first)
  rw [whole, List.reverse_reverse, String.ofList_toList]

/-! One line. -/

theorem readLines_append (c : Cursor) (first second : List String) :
    readLines c (first ++ second) = ((readLines (readLines c first).1 second).1,
      (readLines c first).2 ++ (readLines (readLines c first).1 second).2) := by
  induction first generalizing c with
  | nil => rfl
  | cons raw first ih => simp only [List.cons_append, readLines, ih, List.append_assoc]

/-- A line that is read as added. -/
def emits (raw : String) : Bool := startsWith raw "+" && !startsWith raw "+++"

theorem readLine_length (c : Cursor) (raw : String) : (readLine c raw).2.length ≤ if emits raw then 1 else 0 := by
  simp only [readLine]
  split
  · exact Nat.zero_le _
  · split
    · exact Nat.zero_le _
    · split
      · split
        · rename_i added
          have emitted : emits raw = true := added
          simp [emitted]
        · split
          · exact Nat.zero_le _
          · exact Nat.zero_le _
      · exact Nat.zero_le _

theorem readLines_length (c : Cursor) (raws : List String) : (readLines c raws).2.length ≤ raws.countP emits := by
  induction raws generalizing c with
  | nil => exact Nat.zero_le _
  | cons raw raws ih =>
    have here := readLine_length c raw
    have rest := ih (readLine c raw).1
    simp only [readLines, List.length_append, List.countP_cons]
    omega

theorem startsWith_longer {text start longer : String} (longs : start.toList <+: longer.toList)
    (other : startsWith text start = false) : startsWith text longer = false := by
  rw [Bool.eq_false_iff] at other ⊢
  intro begins
  apply other
  rw [startsWith, List.isPrefixOf_iff_prefix] at begins ⊢
  exact longs.trans begins

/-- A line that does not begin like a hunk is none. -/
theorem hunkStart_none {raw : String} (other : startsWith raw "@" = false) : hunkStart raw = none := by
  unfold hunkStart
  split
  · rename_i rest chars
    rw [startsWith, chars] at other
    exact absurd other (by simp)
  · rfl

theorem hunkStart_piece {raw : String} (other : startsWith raw "@" = false) : hunkStart (firstPiece raw) = none :=
  hunkStart_none ((startsWith_firstPiece (by decide) raw).trans other)

section

variable {path : String} {n : Nat}

theorem readLine_stray {piece : String} (unadded : startsWith piece "+" = false) (unhunked : hunkStart piece = none) :
    readLine ⟨some path, n, true⟩ piece = (⟨some path, n + slip [piece], true⟩, []) := by
  have unnamed : startsWith piece "+++ " = false := startsWith_longer (by decide) unadded
  by_cases removed : (startsWith piece "-" && !startsWith piece "---") = true
  · simp only [readLine, unnamed, unhunked, unadded, removed, slip, Bool.false_and, Bool.false_eq_true, if_false, if_true,
      List.map_cons, List.map_nil, List.sum_cons, List.sum_nil, Nat.add_zero]
  · simp only [readLine, unnamed, unhunked, unadded, removed, slip, Bool.false_and, Bool.false_eq_true, if_false,
      List.map_cons, List.map_nil, List.sum_cons, List.sum_nil, Nat.add_zero]

theorem readLines_stray {stray : List String}
    (quiet : ∀ piece ∈ stray, startsWith piece "+" = false ∧ hunkStart piece = none) :
    readLines ⟨some path, n, true⟩ stray = (⟨some path, n + slip stray, true⟩, []) := by
  induction stray generalizing n with
  | nil => rfl
  | cons piece stray ih =>
    obtain ⟨unadded, unhunked⟩ := quiet piece List.mem_cons_self
    have rest := @ih (n + slip [piece]) (fun other member => quiet other (List.mem_cons_of_mem _ member))
    have total : slip (piece :: stray) = slip [piece] + slip stray := by simp [slip]
    simp only [readLines, readLine_stray unadded unhunked, rest, total, Nat.add_assoc, List.nil_append]

end

section

variable {path : String} {n : Nat}

theorem readLine_context (text : String) :
    readLine ⟨some path, n, true⟩ (firstPiece (" " ++ text)) = (⟨some path, n + 1, true⟩, []) := by
  have begins (start : String) (single : Unbroken start) := startsWith_firstPiece single (" " ++ text)
  have unhunked : hunkStart (firstPiece (" " ++ text)) = none := hunkStart_piece (by simp [startsWith, List.isPrefixOf])
  have tests : startsWith (" " ++ text) "+++ " = false ∧ startsWith (" " ++ text) "+" = false ∧
      startsWith (" " ++ text) "-" = false := by simp [startsWith, List.isPrefixOf]
  simp only [readLine, unhunked, begins "+++ " (by decide), begins "+" (by decide), begins "-" (by decide), tests,
    Bool.false_and, Bool.false_eq_true, if_false]

theorem readLine_removed (text : String) :
    readLine ⟨some path, n, true⟩ (firstPiece ("-" ++ text)) =
      (⟨some path, n + (if startsWith text "--" then 1 else 0), true⟩, []) := by
  have begins (start : String) (single : Unbroken start) := startsWith_firstPiece single ("-" ++ text)
  have unhunked : hunkStart (firstPiece ("-" ++ text)) = none := hunkStart_piece (by simp [startsWith, List.isPrefixOf])
  have tests : startsWith ("-" ++ text) "+++ " = false ∧ startsWith ("-" ++ text) "+" = false ∧
      startsWith ("-" ++ text) "-" = true := by simp [startsWith, List.isPrefixOf]
  have dashes : startsWith ("-" ++ text) "---" = startsWith text "--" := by simp [startsWith]
  simp only [readLine, unhunked, begins "+++ " (by decide), begins "+" (by decide), begins "-" (by decide),
    begins "---" (by decide), tests, dashes, Bool.false_and, Bool.false_eq_true, if_false, Bool.true_and]
  cases startsWith text "--" with
  | true => rfl
  | false => rfl

theorem readLine_added {text : String} (plain : startsWith text "++" = false) :
    readLine ⟨some path, n, true⟩ (firstPiece ("+" ++ text)) = (⟨some path, n + 1, true⟩, [(path, n)]) := by
  have begins (start : String) (single : Unbroken start) := startsWith_firstPiece single ("+" ++ text)
  have unhunked : hunkStart (firstPiece ("+" ++ text)) = none := hunkStart_piece (by simp [startsWith, List.isPrefixOf])
  have plus : startsWith ("+" ++ text) "+" = true := by simp [startsWith]
  have pluses : startsWith ("+" ++ text) "+++" = false := by simpa [startsWith] using plain
  have unnamed : startsWith ("+" ++ text) "+++ " = false := startsWith_longer (by decide) pluses
  simp only [readLine, unhunked, begins "+++ " (by decide), begins "+" (by decide), begins "+++" (by decide), plus, pluses,
    unnamed, Bool.not_false, Bool.and_true, Bool.false_eq_true, if_false, if_true]

theorem readLines_remark (l : BodyLine) :
    readLines ⟨some path, n, true⟩ ((if l.ended then [] else [noNewline]).flatMap pieces) =
      (⟨some path, n + (if l.ended then 0 else 1), true⟩, []) := by
  cases l.ended with
  | true => rfl
  | false =>
    have single : pieces noNewline = [noNewline] := pieces_unbroken (by decide)
    have stray := @readLine_stray path n noNewline (by decide) (by decide)
    have one : slip [noNewline] = 1 := by decide
    simp only [Bool.false_eq_true, if_false, List.flatMap_cons, List.flatMap_nil, single, List.append_nil, readLines, stray,
      one]

/-- What a line of a body is read as, with its stray pieces and the remark after it. -/
theorem readLines_line {l : BodyLine}
    (quiet : ∀ piece ∈ extra (l.kind.sign ++ l.text), startsWith piece "+" = false ∧ hunkStart piece = none)
    (plain : l.kind = .added → startsWith l.text "++" = false) :
    readLines ⟨some path, n, true⟩ (l.lines.flatMap pieces) = match l.kind with
      | .context => (⟨some path, n + 1 + drift l, true⟩, [])
      | .removed => (⟨some path, n + drift l, true⟩, [])
      | .added => (⟨some path, n + 1 + drift l, true⟩, [(path, n)]) := by
  have rest (m : Nat) : readLines ⟨some path, m, true⟩
      (extra (l.kind.sign ++ l.text) ++ (if l.ended then [] else [noNewline]).flatMap pieces) =
      (⟨some path, m + slip (extra (l.kind.sign ++ l.text)) + (if l.ended then 0 else 1), true⟩, []) := by
    rw [readLines_append, readLines_stray quiet]
    simp only [readLines_remark, List.append_nil]
  rw [BodyLine.lines, List.flatMap_cons, pieces_eq, List.cons_append]
  simp only [readLines]
  cases kind : l.kind with
  | context =>
    rw [kind] at rest
    simp only [Kind.sign, readLine_context] at rest ⊢
    simp only [rest, drift, kind, Kind.sign, reduceCtorEq, decide_false, Bool.false_and, Bool.false_eq_true, if_false,
      Nat.zero_add, Nat.add_assoc, List.append_nil]
  | removed =>
    rw [kind] at rest
    simp only [Kind.sign, readLine_removed] at rest ⊢
    simp only [rest, drift, kind, Kind.sign, decide_true, Bool.true_and, Nat.add_assoc, List.append_nil]
  | added =>
    rw [kind] at rest
    simp only [Kind.sign, readLine_added (plain kind)] at rest ⊢
    simp only [rest, drift, kind, Kind.sign, reduceCtorEq, decide_false, Bool.false_and, Bool.false_eq_true, if_false,
      Nat.zero_add, Nat.add_assoc, List.append_nil]

end

/-! A diff whose lines are quiet and whose added lines are plain. -/

/-- An added line: its file, its number there and the number that is read for it. -/
structure Entry where
  path : String
  lineno : Nat
  read : Nat

def Entry.at (e : Entry) : String × Nat := (e.path, e.lineno)

def Entry.seen (e : Entry) : String × Nat := (readName e.path, e.read)

def entriesFrom (path : String) : Nat → Nat → List BodyLine → List Entry
  | _, _, [] => []
  | n, m, l :: body =>
    match l.kind with
    | .context => entriesFrom path (n + 1) (m + 1 + drift l) body
    | .removed => entriesFrom path n (m + drift l) body
    | .added => ⟨path, n, m⟩ :: entriesFrom path (n + 1) (m + 1 + drift l) body

def hunkEntries (path : String) (h : Hunk) : List Entry := entriesFrom path h.newStart (h.newStart + lead h) h.body

def sectionEntries (s : Section) : List Entry := s.hunks.flatMap (hunkEntries s.path)

def entries (d : Diff) : List Entry := d.flatMap sectionEntries

theorem entriesFrom_at (path : String) (n m : Nat) (body : List BodyLine) :
    (entriesFrom path n m body).map Entry.at = (addedFrom path n body).map AddedLine.at := by
  induction body generalizing n m with
  | nil => rfl
  | cons l body ih =>
    cases kind : l.kind with
    | context => simpa only [entriesFrom, addedFrom, kind] using ih (n + 1) _
    | removed => simpa only [entriesFrom, addedFrom, kind] using ih n _
    | added =>
      simp only [entriesFrom, addedFrom, kind, List.map_cons, ih]
      rfl

theorem sectionEntries_at (s : Section) : (sectionEntries s).map Entry.at = s.added.map AddedLine.at := by
  rw [sectionEntries, Section.added, List.map_flatMap, List.map_flatMap]
  exact List.flatMap_congr (fun h _ => entriesFrom_at s.path _ _ h.body)

theorem entries_at (d : Diff) : (entries d).map Entry.at = (added d).map AddedLine.at := by
  rw [entries, added, List.map_flatMap, List.map_flatMap]
  exact List.flatMap_congr (fun s _ => sectionEntries_at s)

theorem mem_bodyLine (l : BodyLine) : l.kind.sign ++ l.text ∈ l.lines := List.mem_cons_self

theorem readLines_body {path : String} {body : List BodyLine} (quiet : ∀ l ∈ body, QuietLine (l.kind.sign ++ l.text))
    (plain : ∀ l ∈ body, PlainLine l) (n m : Nat) : ∃ k,
      readLines ⟨some (readName path), m, true⟩ ((body.flatMap BodyLine.lines).flatMap pieces) =
        (⟨some (readName path), k, true⟩, (entriesFrom path n m body).map Entry.seen) := by
  induction body generalizing n m with
  | nil => exact ⟨m, rfl⟩
  | cons l body ih =>
    have here := @readLines_line (readName path) m l (quiet l List.mem_cons_self) (plain l List.mem_cons_self)
    have later := ih (fun l member => quiet l (List.mem_cons_of_mem _ member))
      (fun l member => plain l (List.mem_cons_of_mem _ member))
    rw [List.flatMap_cons, List.flatMap_append, readLines_append, here]
    cases kind : l.kind with
    | context =>
      obtain ⟨k, rest⟩ := later (n + 1) (m + 1 + drift l)
      exact ⟨k, by simp only [rest, entriesFrom, kind, List.nil_append]⟩
    | removed =>
      obtain ⟨k, rest⟩ := later n (m + drift l)
      exact ⟨k, by simp only [rest, entriesFrom, kind, List.nil_append]⟩
    | added =>
      obtain ⟨k, rest⟩ := later (n + 1) (m + 1 + drift l)
      exact ⟨k, by simp only [rest, entriesFrom, kind, List.map_cons, List.singleton_append, Entry.seen]⟩

theorem firstPiece_header (h : Hunk) : hunkStart (firstPiece h.header) = some h.newStart := by
  have digits (n : Nat) : Unbroken (toString n) := by
    intro c member
    have digit : c.isDigit = true := Json.toDigits_isDigit n c (by simpa using member)
    apply shown_unbroken
    simp only [Char.isDigit, Bool.and_eq_true, decide_eq_true_eq] at digit
    have low : 48 ≤ c.toNat := digit.1
    have high : c.toNat ≤ 57 := digit.2
    exact ⟨by omega, by omega⟩
  have join {first second : String} (one : Unbroken first) (two : Unbroken second) : Unbroken (first ++ second) := by
    intro c member
    rcases List.mem_append.mp (String.toList_append ▸ member) with before | after
    · exact one c before
    · exact two c after
  have numbers (start count : Nat) : Unbroken (UnifiedDiff.range start count) := by
    unfold UnifiedDiff.range
    split
    · exact digits start
    · exact join (join (digits start) (by decide)) (digits count)
  have start : Unbroken ("@@ -" ++ UnifiedDiff.range h.oldStart (count h.body .added) ++ " +" ++
      UnifiedDiff.range h.newStart (count h.body .removed) ++ " @@") :=
    join (join (join (join (by decide) (numbers _ _)) (by decide)) (numbers _ _)) (by decide)
  have first : firstPiece h.header = Hunk.header { h with heading := firstPiece h.heading } :=
    firstPiece_append start h.heading
  rw [first, VerifyDiff.hunkStart_header]

theorem readLines_header {c : Cursor} {path : String} (held : c.path = some path) {h : Hunk} (quiet : QuietLine h.header) :
    readLines c (pieces h.header) = (⟨some path, h.newStart + lead h, true⟩, []) := by
  have unnamed : startsWith (firstPiece h.header) "+++ " = false := by
    rw [startsWith_firstPiece (by decide)]
    simp [startsWith, Hunk.header, List.isPrefixOf]
  have start : readLine c (firstPiece h.header) = (⟨some path, h.newStart, true⟩, []) := by
    simp only [readLine, unnamed, firstPiece_header, Bool.false_eq_true, if_false, held]
  rw [pieces_eq]
  simp only [readLines, start, readLines_stray quiet, List.nil_append]
  rfl

theorem readLines_hunks {c : Cursor} {path : String} (held : c.path = some (readName path)) {hunks : List Hunk}
    (quiet : ∀ raw ∈ hunks.flatMap Hunk.lines, QuietLine raw) (plain : ∀ h ∈ hunks, ∀ l ∈ h.body, PlainLine l) :
    (readLines c ((hunks.flatMap Hunk.lines).flatMap pieces)).2 = (hunks.flatMap (hunkEntries path)).map Entry.seen := by
  induction hunks generalizing c with
  | nil => rfl
  | cons h hunks ih =>
    have inside : ∀ raw ∈ h.lines, QuietLine raw := fun raw member => quiet raw (List.mem_append_left _ member)
    have header := readLines_header held (inside h.header List.mem_cons_self)
    obtain ⟨k, body⟩ := @readLines_body path h.body
      (fun l member => inside _ (List.mem_cons_of_mem _ (List.mem_flatMap.mpr ⟨l, member, mem_bodyLine l⟩)))
      (plain h List.mem_cons_self) h.newStart (h.newStart + lead h)
    have rest := @ih ⟨some (readName path), k, true⟩ rfl (fun raw member => quiet raw (List.mem_append_right _ member))
      (fun h member => plain h (List.mem_cons_of_mem _ member))
    rw [List.flatMap_cons, List.flatMap_append, readLines_append, Hunk.lines, List.flatMap_cons, readLines_append, header,
      List.flatMap_cons, List.map_append]
    simp only [body, rest, List.nil_append]
    rfl

/-! How many lines are read as added. -/

theorem countP_pieces {raw : String} (quiet : QuietLine raw) : (pieces raw).countP emits = if emits raw then 1 else 0 := by
  have first : emits (firstPiece raw) = emits raw := by
    simp only [emits, @startsWith_firstPiece "+" (by decide), @startsWith_firstPiece "+++" (by decide)]
  have none : (extra raw).countP emits = 0 := by
    rw [List.countP_eq_zero]
    intro piece member
    simp [emits, (quiet piece member).1]
  rw [pieces_eq, List.countP_cons, none, first, Nat.zero_add]

/-- Added lines that are taken for something else. -/
def headed (l : BodyLine) : Bool := l.kind = .added && startsWith l.text "++"

theorem countP_line {l : BodyLine} (quiet : QuietLine (l.kind.sign ++ l.text)) :
    (l.lines.flatMap pieces).countP emits + (if headed l then 1 else 0) = if l.kind = .added then 1 else 0 := by
  have remark : ((if l.ended then [] else [noNewline]).flatMap pieces).countP emits = 0 := by
    cases l.ended with
    | true => rfl
    | false => decide
  rw [BodyLine.lines, List.flatMap_cons, List.countP_append, countP_pieces quiet, remark]
  cases kind : l.kind with
  | context => simp [emits, headed, startsWith, kind, Kind.sign, List.isPrefixOf]
  | removed => simp [emits, headed, startsWith, kind, Kind.sign, List.isPrefixOf]
  | added =>
    have plus : startsWith ("+" ++ l.text) "+" = true := by simp [startsWith]
    have pluses : startsWith ("+" ++ l.text) "+++" = startsWith l.text "++" := by simp [startsWith]
    simp only [emits, headed, kind, Kind.sign, plus, pluses, Bool.true_and, decide_true, if_true]
    cases startsWith l.text "++" with
    | true => rfl
    | false => rfl

theorem countP_body {path : String} {n : Nat} {body : List BodyLine}
    (quiet : ∀ l ∈ body, QuietLine (l.kind.sign ++ l.text)) :
    ((body.flatMap BodyLine.lines).flatMap pieces).countP emits + body.countP headed =
      (addedFrom path n body).length := by
  induction body generalizing n with
  | nil => rfl
  | cons l body ih =>
    have here := countP_line (quiet l List.mem_cons_self)
    have later (k : Nat) := @ih k (fun l member => quiet l (List.mem_cons_of_mem _ member))
    rw [List.flatMap_cons, List.flatMap_append, List.countP_append, List.countP_cons]
    cases kind : l.kind with
    | context =>
      have rest := later (n + 1)
      simp only [kind, reduceCtorEq, if_false] at here
      simp only [addedFrom, kind]
      omega
    | removed =>
      have rest := later n
      simp only [kind, reduceCtorEq, if_false] at here
      simp only [addedFrom, kind]
      omega
    | added =>
      have rest := later (n + 1)
      simp only [kind, if_true] at here
      simp only [addedFrom, kind, List.length_cons]
      omega

theorem countP_hunks {path : String} {hunks : List Hunk} (quiet : ∀ raw ∈ hunks.flatMap Hunk.lines, QuietLine raw) :
    ((hunks.flatMap Hunk.lines).flatMap pieces).countP emits + (hunks.flatMap Hunk.body).countP headed =
      (hunks.flatMap (fun h => addedFrom path h.newStart h.body)).length := by
  induction hunks with
  | nil => rfl
  | cons h hunks ih =>
    have inside : ∀ raw ∈ h.lines, QuietLine raw := fun raw member => quiet raw (List.mem_append_left _ member)
    have header : (pieces h.header).countP emits = 0 := by
      rw [countP_pieces (inside h.header List.mem_cons_self)]
      simp [emits, startsWith, Hunk.header, List.isPrefixOf]
    have body := @countP_body path h.newStart h.body
      (fun l member => inside _ (List.mem_cons_of_mem _ (List.mem_flatMap.mpr ⟨l, member, mem_bodyLine l⟩)))
    have rest := ih (fun raw member => quiet raw (List.mem_append_right _ member))
    simp only [List.flatMap_cons, List.flatMap_append, Hunk.lines, List.countP_append, List.length_append, header]
    omega

theorem countP_silent {raws : List String} (quiet : ∀ raw ∈ raws, QuietLine raw)
    (silent : ∀ raw ∈ raws, emits raw = false) : (raws.flatMap pieces).countP emits = 0 := by
  induction raws with
  | nil => rfl
  | cons raw raws ih =>
    rw [List.flatMap_cons, List.countP_append, countP_pieces (quiet raw List.mem_cons_self), silent raw List.mem_cons_self,
      ih (fun other member => quiet other (List.mem_cons_of_mem _ member))
        (fun other member => silent other (List.mem_cons_of_mem _ member))]
    rfl

/-- The lines of a section before its hunks. -/
def Opening (s : Section) : List String :=
  s.preamble ++ if s.hunks = [] then [] else ["--- " ++ s.oldName, "+++ " ++ s.newName]

theorem section_lines (s : Section) : s.lines = Opening s ++ s.hunks.flatMap Hunk.lines := by
  rw [Section.lines, Opening, List.append_assoc]

theorem opening_silent (s : Section) : ∀ raw ∈ Opening s, emits raw = false := by
  intro raw member
  rcases List.mem_append.mp member with before | names
  · have first := (s.plain raw before).1
    have other : startsWith raw "+" = false := by
      cases chars : raw.toList with
      | nil => simp [startsWith, chars]
      | cons c cs =>
        rw [chars, List.head?_cons] at first
        have apart : '+' ≠ c := fun same => first (congrArg some same.symm)
        simp [startsWith, chars, List.isPrefixOf, apart]
    simp [emits, other]
  · split at names
    · cases names
    · rcases List.mem_pair.mp names with rfl | rfl
      · simp [emits, startsWith, List.isPrefixOf]
      · simp [emits, startsWith, List.isPrefixOf]

theorem countP_section {s : Section} (quiet : ∀ raw ∈ s.lines, QuietLine raw) :
    (s.lines.flatMap pieces).countP emits + (s.hunks.flatMap Hunk.body).countP headed = s.added.length := by
  rw [section_lines] at quiet ⊢
  have opening := countP_silent (fun raw member => quiet raw (List.mem_append_left _ member)) (opening_silent s)
  have hunks := @countP_hunks s.path s.hunks (fun raw member => quiet raw (List.mem_append_right _ member))
  rw [List.flatMap_append, List.countP_append, opening, Nat.zero_add, hunks, Section.added]

theorem countP_diff {d : Diff} (quiet : ∀ raw ∈ lines d, QuietLine raw) :
    ((lines d).flatMap pieces).countP emits + (d.flatMap (fun s => s.hunks.flatMap Hunk.body)).countP headed =
      (added d).length := by
  induction d with
  | nil => rfl
  | cons s d ih =>
    have here := @countP_section s (fun raw member => quiet raw (List.mem_append_left _ member))
    have rest := ih (fun raw member => quiet raw (List.mem_append_right _ member))
    have split : lines (s :: d) = s.lines ++ lines d := rfl
    have sum : added (s :: d) = s.added ++ added d := rfl
    rw [split, sum, List.flatMap_append, List.countP_append, List.flatMap_cons, List.countP_append, List.length_append]
    omega

/-- A section is read line by line, under the name in its label. -/
theorem readLines_section (c : Cursor) {s : Section}
    (labelled : s.newName = newLabel s.path ∨ (s.newName = "/dev/null" ∧ s.added = []))
    (quiet : ∀ raw ∈ s.lines, QuietLine raw) (plain : ∀ h ∈ s.hunks, ∀ l ∈ h.body, PlainLine l) :
    (readLines c (s.lines.flatMap pieces)).2 = (sectionEntries s).map Entry.seen := by
  by_cases nothing : s.added = []
  · have none : sectionEntries s = [] := by
      have same := sectionEntries_at s
      rw [nothing, List.map_nil, List.map_eq_nil_iff] at same
      exact same
    have count := countP_section quiet
    have bound := readLines_length c (s.lines.flatMap pieces)
    rw [nothing, List.length_nil] at count
    rw [none, List.map_nil]
    exact List.length_eq_zero_iff.mp (by omega)
  · have named : s.newName = newLabel s.path := labelled.resolve_right (fun gone => nothing gone.2)
    have held : s.hunks ≠ [] := by
      intro none
      exact nothing (by rw [Section.added, none, List.flatMap_nil])
    have single : Unbroken ("+++ " ++ s.newName) := by
      intro c member
      rw [String.toList_append, List.mem_append] at member
      have marks : Unbroken "+++ " := by decide
      rcases member with start | rest
      · exact marks c start
      · rw [named] at rest
        exact newLabel_unbroken s.path c rest
    have split : s.lines = (s.preamble ++ ["--- " ++ s.oldName]) ++
        (["+++ " ++ s.newName] ++ s.hunks.flatMap Hunk.lines) := by
      simp [Section.lines, held]
    rw [split] at quiet ⊢
    have before := countP_silent (fun raw member => quiet raw (List.mem_append_left _ member)) (fun raw member =>
      opening_silent s raw (by
        rw [Opening, if_neg held]
        rcases List.mem_append.mp member with first | old
        · exact List.mem_append_left _ first
        · exact List.mem_append_right _ (List.mem_pair.mpr (.inl (List.mem_singleton.mp old)))))
    have bound := readLines_length c ((s.preamble ++ ["--- " ++ s.oldName]).flatMap pieces)
    have silent : (readLines c ((s.preamble ++ ["--- " ++ s.oldName]).flatMap pieces)).2 = [] :=
      List.length_eq_zero_iff.mp (by omega)
    have name (c : Cursor) : readLines c (pieces ("+++ " ++ s.newName)) =
        (⟨some (readName s.path), c.newLine, false⟩, []) := by
      have header : startsWith ("+++ " ++ newLabel s.path) "+++ " = true := by simp [startsWith]
      rw [pieces_unbroken single, named]
      simp only [readLines, readLine, header, if_true, target_label, List.append_nil]
    have hunks (n : Nat) := @readLines_hunks ⟨some (readName s.path), n, false⟩ s.path rfl s.hunks
      (fun raw member => quiet raw (List.mem_append_right _ (List.mem_append_right _ member))) plain
    have rest : (["+++ " ++ s.newName] ++ s.hunks.flatMap Hunk.lines).flatMap pieces =
        pieces ("+++ " ++ s.newName) ++ (s.hunks.flatMap Hunk.lines).flatMap pieces := by simp
    rw [List.flatMap_append, readLines_append, silent, List.nil_append, rest, readLines_append]
    simp only [name, hunks, List.nil_append]
    rfl

theorem readLines_diff (c : Cursor) {d : Diff}
    (labelled : ∀ s ∈ d, s.newName = newLabel s.path ∨ (s.newName = "/dev/null" ∧ s.added = []))
    (quiet : Quiet d) (plain : ∀ s ∈ d, ∀ h ∈ s.hunks, ∀ l ∈ h.body, PlainLine l) :
    (readLines c ((lines d).flatMap pieces)).2 = (entries d).map Entry.seen := by
  induction d generalizing c with
  | nil => rfl
  | cons s d ih =>
    have split : lines (s :: d) = s.lines ++ lines d := rfl
    have here := readLines_section c (labelled s List.mem_cons_self)
      (fun raw member => quiet raw (List.mem_append_left _ member)) (plain s List.mem_cons_self)
    have rest := ih (readLines c (s.lines.flatMap pieces)).1 (fun s member => labelled s (List.mem_cons_of_mem _ member))
      (fun raw member => quiet raw (List.mem_append_right _ member)) (fun s member => plain s (List.mem_cons_of_mem _ member))
    have total : entries (s :: d) = sectionEntries s ++ entries d := rfl
    rw [split, List.flatMap_append, readLines_append, here, rest, total, List.map_append]

/-! When the numbers and the names are right. -/

theorem entriesFrom_iff {path : String} {n m : Nat} (le : n ≤ m) {body : List BodyLine} :
    (∀ e ∈ entriesFrom path n m body, e.lineno = e.read) ↔
      (VerifyDiff.Adds body → n = m) ∧ body.Pairwise (fun l next => next.kind = .added → drift l = 0) := by
  induction body generalizing n m with
  | nil => simp [entriesFrom, VerifyDiff.Adds]
  | cons l body ih =>
    have ahead : (∀ next ∈ body, next.kind = .added → drift l = 0) ↔ (VerifyDiff.Adds body → drift l = 0) := by
      constructor
      · rintro steady ⟨next, member, kind⟩
        exact steady next member kind
      · exact fun steady next member kind => steady ⟨next, member, kind⟩
    rw [VerifyDiff.adds_cons, List.pairwise_cons, ahead]
    cases kind : l.kind with
    | context =>
      simp only [entriesFrom, kind, @ih (n + 1) (m + 1 + drift l) (by omega), reduceCtorEq, false_or]
      constructor
      · rintro ⟨start, rest⟩
        exact ⟨fun adds => by have := start adds; omega, fun adds => by have := start adds; omega, rest⟩
      · rintro ⟨start, still, rest⟩
        exact ⟨fun adds => by have := start adds; have := still adds; omega, rest⟩
    | removed =>
      simp only [entriesFrom, kind, @ih n (m + drift l) (by omega), reduceCtorEq, false_or]
      constructor
      · rintro ⟨start, rest⟩
        exact ⟨fun adds => by have := start adds; omega, fun adds => by have := start adds; omega, rest⟩
      · rintro ⟨start, still, rest⟩
        exact ⟨fun adds => by have := start adds; have := still adds; omega, rest⟩
    | added =>
      simp only [entriesFrom, kind, List.forall_mem_cons, @ih (n + 1) (m + 1 + drift l) (by omega), true_or, forall_const]
      constructor
      · rintro ⟨same, start, rest⟩
        exact ⟨same, fun adds => by have := start adds; omega, rest⟩
      · rintro ⟨same, still, rest⟩
        exact ⟨same, fun adds => by have := still adds; omega, rest⟩

theorem entriesFrom_le {path : String} {n m : Nat} (le : n ≤ m) {body : List BodyLine} :
    ∀ e ∈ entriesFrom path n m body, e.path = path ∧ e.lineno ≤ e.read := by
  induction body generalizing n m with
  | nil => exact nofun
  | cons l body ih =>
    intro e member
    cases kind : l.kind with
    | context =>
      simp only [entriesFrom, kind] at member
      exact @ih (n + 1) (m + 1 + drift l) (by omega) e member
    | removed =>
      simp only [entriesFrom, kind] at member
      exact @ih n (m + drift l) (by omega) e member
    | added =>
      simp only [entriesFrom, kind] at member
      rcases List.mem_cons.mp member with rfl | later
      · exact ⟨rfl, le⟩
      · exact @ih (n + 1) (m + 1 + drift l) (by omega) e later

theorem mem_entries {d : Diff} {e : Entry} : e ∈ entries d ↔ ∃ s ∈ d, ∃ h ∈ s.hunks, e ∈ hunkEntries s.path h := by
  simp only [entries, sectionEntries, List.mem_flatMap]

theorem entries_le {d : Diff} : ∀ e ∈ entries d, e.lineno ≤ e.read := by
  intro e member
  obtain ⟨s, -, h, -, inside⟩ := mem_entries.mp member
  exact (entriesFrom_le (Nat.le_add_right _ _) e inside).2

instance (path : String) : Decidable (Legible path) := inferInstanceAs (Decidable (_ ∧ _))

/-- A name that is read from a label without quotes is legible. -/
theorem legible_readName {path : String} (plain : path.toList.all plainChar = true) : Legible (readName path) := by
  rw [readName, if_pos plain, Legible, String.toList_ofList]
  constructor
  · rw [List.all_eq_true] at plain ⊢
    intro c member
    have kept := (List.dropWhile_suffix isSpace).subset (List.mem_reverse.mp member)
    exact plain c (List.mem_reverse.mp kept)
  · rw [List.getLast?_reverse]
    intro blank
    exact absurd (head_dropWhile blank) (by decide)

theorem length_label {path : String} (quoted : ¬ path.toList.all plainChar = true) :
    path.toList.length < (label path).toList.length := by
  have bound := length_quoted path.toList
  rw [label, if_neg quoted, String.toList_ofList]
  simp only [List.length_append, List.length_cons, List.length_nil]
  omega

/-- Sums of equal lists of values: what is never larger is equal. -/
theorem eq_of_sum_eq {α : Type} {items : List α} {f g : α → Nat} (le : ∀ a ∈ items, f a ≤ g a)
    (same : (items.map f).sum = (items.map g).sum) : ∀ a ∈ items, f a = g a := by
  induction items with
  | nil => exact nofun
  | cons a items ih =>
    have rest : (items.map f).sum ≤ (items.map g).sum :=
      List.sum_le_sum (fun b member => le b (List.mem_cons_of_mem _ member))
    have here := le a List.mem_cons_self
    simp only [List.map_cons, List.sum_cons] at same
    have equal := ih (fun b member => le b (List.mem_cons_of_mem _ member)) (by omega)
    intro b member
    rcases List.mem_cons.mp member with rfl | later
    · omega
    · exact equal b later

theorem exact_mem (d : GitDiff) : Exact d ↔
    ∀ line, line ∈ (readLines ⟨none, 0, false⟩ ((lines d.sections).flatMap pieces)).2 ↔
      line ∈ (added d.sections).map AddedLine.at := by
  simp only [Exact, changedLinesFromDiff, text, splitlines_lines, Dict.mem_listed_foldl_addTo, Prod.forall]
  have none (path : String) (n : Nat) : n ∉ Dict.listed ([] : List (String × List Nat)) path := by simp [Dict.listed]
  simp only [none, or_false]

/-- What the reader has to be given back for every added line. -/
theorem perm_of_exact {d : GitDiff} (quiet : Quiet d.sections) (exact : Exact d) :
    (∀ s ∈ d.sections, ∀ h ∈ s.hunks, ∀ l ∈ h.body, PlainLine l) ∧
      ((entries d.sections).map Entry.at).Perm ((entries d.sections).map Entry.seen) := by
  have same := (exact_mem d).mp exact
  have count := countP_diff quiet
  have bound := readLines_length ⟨none, 0, false⟩ ((lines d.sections).flatMap pieces)
  have inside : ((added d.sections).map AddedLine.at).Subperm
      (readLines ⟨none, 0, false⟩ ((lines d.sections).flatMap pieces)).2 :=
    List.subperm_of_subset d.added_nodup (fun line member => (same line).mpr member)
  have least := inside.length_le
  rw [List.length_map] at least
  have unheaded : (d.sections.flatMap (fun s => s.hunks.flatMap Hunk.body)).countP headed = 0 := by omega
  have plain : ∀ s ∈ d.sections, ∀ h ∈ s.hunks, ∀ l ∈ h.body, PlainLine l := by
    intro s first h second l third kind
    have clear := List.countP_eq_zero.mp unheaded l
      (List.mem_flatMap.mpr ⟨s, first, List.mem_flatMap.mpr ⟨h, second, third⟩⟩)
    simpa [headed, kind] using clear
  have read := readLines_diff ⟨none, 0, false⟩ d.labelled quiet plain
  refine ⟨plain, ?_⟩
  rw [entries_at, ← read]
  apply inside.perm_of_length_le
  rw [List.length_map]
  omega

/-- The numbers: none is read below its own, so that equal sums leave them as they are. -/
theorem numbers_of_perm {d : Diff} (perm : ((entries d).map Entry.at).Perm ((entries d).map Entry.seen)) :
    ∀ e ∈ entries d, e.lineno = e.read := by
  apply eq_of_sum_eq entries_le
  have sums := (perm.map Prod.snd).sum_eq
  rwa [List.map_map, List.map_map] at sums

/-- The names: what is read from a quoted label is never legible, and it is longer than the path. -/
theorem names_of_perm {d : Diff} (perm : ((entries d).map Entry.at).Perm ((entries d).map Entry.seen)) :
    ∀ e ∈ entries d, Legible e.path := by
  have sums (weight : String → Nat) :
      ((entries d).map (fun e => weight e.path)).sum = ((entries d).map (fun e => weight (readName e.path))).sum := by
    have equal := (perm.map (fun line => weight line.1)).sum_eq
    rwa [List.map_map, List.map_map] at equal
  have kept : ∀ e ∈ entries d, (if Legible (readName e.path) then 0 else 1) = if Legible e.path then 0 else 1 := by
    apply eq_of_sum_eq
    · intro e _
      by_cases legible : Legible e.path
      · rw [readName_legible legible]
      · rw [if_neg legible]
        split
        · exact Nat.zero_le 1
        · exact Nat.le_refl 1
    · exact (sums (fun path => if Legible path then 0 else 1)).symm
  have quoted : ∀ e ∈ entries d, ¬ Legible e.path → ¬ e.path.toList.all plainChar = true := by
    intro e member illegible plain
    have same := kept e member
    rw [if_neg illegible, if_pos (legible_readName plain)] at same
    exact absurd same (by decide)
  have lengths : ∀ e ∈ entries d, e.path.toList.length = (readName e.path).toList.length := by
    apply eq_of_sum_eq
    · intro e member
      by_cases legible : Legible e.path
      · rw [readName_legible legible]
      · rw [readName, if_neg (quoted e member legible)]
        exact (length_label (quoted e member legible)).le
    · exact sums (fun path => path.toList.length)
  intro e member
  by_contra illegible
  have same := lengths e member
  have longer := length_label (quoted e member illegible)
  rw [readName, if_neg (quoted e member illegible)] at same
  omega

/-- The added lines of a section are those of its entries. -/
theorem mem_section {d : Diff} {s : Section} (first : s ∈ d) (adds : s.added ≠ []) : ∃ e ∈ entries d, e.path = s.path := by
  have some : sectionEntries s ≠ [] := by
    intro none
    have same := sectionEntries_at s
    rw [none, List.map_nil] at same
    exact adds (List.map_eq_nil_iff.mp same.symm)
  obtain ⟨e, member⟩ := List.exists_mem_of_ne_nil _ some
  obtain ⟨h, second, inside⟩ := List.mem_flatMap.mp member
  exact ⟨e, mem_entries.mpr ⟨s, first, h, second, inside⟩, (entriesFrom_le (Nat.le_add_right _ _) e inside).1⟩

theorem exact_iff_clear {d : GitDiff} (quiet : Quiet d.sections) : Exact d ↔ Clear d.sections := by
  constructor
  · intro exact
    obtain ⟨plain, perm⟩ := perm_of_exact quiet exact
    have numbers := numbers_of_perm perm
    have bodies (s : Section) (first : s ∈ d.sections) (h : Hunk) (second : h ∈ s.hunks) :=
      (entriesFrom_iff (Nat.le_add_right h.newStart (lead h))).mp
        (fun e member => numbers e (mem_entries.mpr ⟨s, first, h, second, member⟩))
    refine ⟨plain, fun s first h second adds => ?_, fun s first h second => (bodies s first h second).2, ?_⟩
    · have start := (bodies s first h second).1 adds
      omega
    · intro s first adds
      obtain ⟨e, member, same⟩ := mem_section first adds
      exact same ▸ names_of_perm perm e member
  · intro clear
    have same : (entries d.sections).map Entry.seen = (entries d.sections).map Entry.at := by
      apply List.map_congr_left
      intro e member
      obtain ⟨s, first, h, second, inside⟩ := mem_entries.mp member
      have place := (entriesFrom_le (Nat.le_add_right _ _) e inside).1
      have adds : s.added ≠ [] := by
        intro none
        have all := sectionEntries_at s
        rw [none, List.map_nil, List.map_eq_nil_iff] at all
        have held : e ∈ sectionEntries s := List.mem_flatMap.mpr ⟨h, second, inside⟩
        rw [all] at held
        cases held
      have start (adds : VerifyDiff.Adds h.body) : h.newStart = h.newStart + lead h := by
        rw [clear.started s first h second adds, Nat.add_zero]
      have number := (entriesFrom_iff (Nat.le_add_right h.newStart (lead h))).mpr
        ⟨start, clear.steady s first h second⟩ e inside
      have name := readName_legible (clear.legible s first adds)
      rw [Entry.seen, Entry.at, place, name, number]
    rw [exact_mem, readLines_diff _ d.labelled quiet clear.plain, same, entries_at]
    exact fun line => Iff.rfl

/-- On quiet diffs exactly the clear ones are read right, and a clear quiet diff is. -/
theorem changedLines_exact (d : GitDiff) :
    (Quiet d.sections ∧ Clear d.sections → Exact d) ∧ (Quiet d.sections → Exact d → Clear d.sections) :=
  ⟨fun ⟨quiet, clear⟩ => (exact_iff_clear quiet).mpr clear, fun quiet exact => (exact_iff_clear quiet).mp exact⟩

/-! The gate. -/

/-- The check on a run's diff, with the report at the root: absent, unreadable or parsed. -/
def coverageFalseGreenCheck [Lowercase] (report : Option (Except String Json)) (diffText : String) : Bool :=
  let changed := changedLinesFromDiff diffText
  if changed.isEmpty then false
  else
    match report with
    | none => true
    | some report =>
      match report >>= fun report => Verifier.verifiedOrFalseGreen report
          (changed.map (fun file => (file.1, file.2.map Int.ofNat))) true Verifier.defaultCoverageTestId with
      | .ok falseGreen => falseGreen
      | .error _ => true

/-- Only evidence clears a change. -/
theorem coverageFalseGreenCheck_clears [Lowercase] {report : Option (Except String Json)} {diffText : String} :
    coverageFalseGreenCheck report diffText = false ↔ changedLinesFromDiff diffText = [] ∨
      ∃ json, report = some (.ok json) ∧ Verifier.Clears json
        ((changedLinesFromDiff diffText).map (fun file => (file.1, file.2.map Int.ofNat)))
        Verifier.defaultCoverageTestId := by
  simp only [coverageFalseGreenCheck, List.isEmpty_iff]
  by_cases nothing : changedLinesFromDiff diffText = []
  · simp [nothing]
  · simp only [nothing, false_or]
    cases report with
    | none => simp
    | some report =>
      cases report with
      | error e => simp
      | ok json =>
        simp only [Except.ok_bind, Option.some.injEq, Except.ok.injEq, exists_eq_left', Verifier.Clears]
        cases Verifier.verifiedOrFalseGreen json
            ((changedLinesFromDiff diffText).map (fun file => (file.1, file.2.map Int.ofNat))) true
            Verifier.defaultCoverageTestId with
        | error e => simp
        | ok falseGreen => simp

/-- A comment of a script is replaced. -/
def dashes : GitDiff where
  sections := [{
    preamble := ["diff --git a/q.sql b/q.sql"]
    plain := by decide
    oldName := "a/q.sql"
    newName := "b/q.sql"
    path := "q.sql"
    named := by decide
    hunks := [⟨1, 1, "", [⟨.removed, "-- all", true, by decide⟩, ⟨.added, "-- some", true, by decide⟩],
      fun _ => Nat.one_pos⟩] }]
  ordered := by
    intro s first
    obtain rfl := List.mem_singleton.mp first
    exact List.pairwise_singleton _ _
  apart := List.pairwise_singleton _ _
  labelled := by
    intro s first
    obtain rfl := List.mem_singleton.mp first
    exact .inl (by decide)

/-- The removed comment is counted as a line of the new file. -/
theorem dashes_shifted : (added dashes.sections).map AddedLine.at = [("q.sql", 1)] ∧
    changedLinesFromDiff (text dashes.sections) = [("q.sql", [2])] ∧ ¬ Exact dashes := by
  have read : changedLinesFromDiff (text dashes.sections) = [("q.sql", [2])] := by decide
  have wanted : (added dashes.sections).map AddedLine.at = [("q.sql", 1)] := by decide
  refine ⟨wanted, read, ?_⟩
  intro exact
  have found := (exact "q.sql" 1).mpr (by rw [wanted]; exact List.mem_singleton.mpr rfl)
  rw [read] at found
  exact absurd found (by decide)

end Onmc.Harness.CoverageGate
