import Onmc.Lines

/-! What `splitlines` makes of lines that a line feed ends and that hold other line boundaries. -/
namespace Onmc.Lines

/-- The pieces of a line that a line feed ends. -/
def pieces (line : String) : List String := splitlines (line ++ "\n")

def firstPiece (line : String) : String := String.ofList (line.toList.takeWhile (fun c => !isBreak c))

def extra (line : String) : List String := (pieces line).tail

theorem splitFrom_inside {c : Char} (inside : isBreak c = false) (line rest : List Char) :
    splitFrom line (c :: rest) = splitFrom (line ++ [c]) rest := by
  rw [splitFrom]
  · simp only [inside, Bool.false_eq_true, if_false]
  · rintro _ rfl _
    exact absurd inside (by decide)

theorem splitFrom_break {c : Char} {rest : List Char} (ends : isBreak c = true)
    (apart : c = '\r' → rest.head? ≠ some '\n') (line : List Char) :
    splitFrom line (c :: rest) = line :: splitFrom [] rest := by
  rw [splitFrom]
  · simp only [ends, if_true]
  · rintro _ rfl rfl
    exact apart rfl rfl

/-- A line feed ends the line under way, whatever comes next. -/
theorem splitFrom_feed (line cs rest : List Char) :
    splitFrom line (cs ++ '\n' :: rest) = splitFrom line (cs ++ ['\n']) ++ splitFrom [] rest := by
  have feed (line tail : List Char) : splitFrom line ('\n' :: tail) = line :: splitFrom [] tail :=
    splitFrom_break (by decide) (fun same => absurd same (by decide)) line
  have nothing : splitFrom [] [] = [] := by simp [splitFrom]
  fun_induction splitFrom line cs with
  | case1 line empty => simp only [List.nil_append, feed, nothing, List.singleton_append]
  | case2 line full => simp only [List.nil_append, feed, nothing, List.singleton_append]
  | case3 line cs ih => simp only [List.cons_append, splitFrom, ih]
  | case4 line c cs pair ends ih =>
    cases cs with
    | nil =>
      by_cases carriage : c = '\r'
      · simp [carriage, splitFrom]
      · have apart (tail : List Char) : c = '\r' → tail.head? ≠ some '\n' := fun same => absurd same carriage
        simp only [List.cons_append, List.nil_append, splitFrom_break ends (apart _), feed, nothing]
    | cons d cs =>
      have apart (tail : List Char) : c = '\r' → (d :: tail).head? ≠ some '\n' := by
        rintro carriage next
        obtain rfl := Option.some.inj next
        exact pair cs carriage rfl
      rw [List.cons_append, List.cons_append, splitFrom_break ends (apart _), List.cons_append, List.cons_append,
        splitFrom_break ends (apart _), List.cons_append]
      exact congrArg (line :: ·) ih
  | case5 line c cs pair inside ih =>
    have inner : isBreak c = false := by simpa using inside
    rw [List.cons_append, List.cons_append, splitFrom_inside inner, splitFrom_inside inner, ih]

theorem splitFrom_first (line cs : List Char) : ∃ tail,
    splitFrom line (cs ++ ['\n']) = (line ++ cs.takeWhile (fun c => !isBreak c)) :: tail := by
  induction cs generalizing line with
  | nil =>
    have feed : splitFrom line ['\n'] = line :: splitFrom [] [] :=
      splitFrom_break (by decide) (fun same => absurd same (by decide)) line
    exact ⟨splitFrom [] [], by simpa using feed⟩
  | cons c cs ih =>
    by_cases ends : isBreak c
    · have stop : (c :: cs).takeWhile (fun c => !isBreak c) = [] := by simp [ends]
      rw [stop, List.append_nil, List.cons_append]
      by_cases pair : c = '\r' ∧ (cs ++ ['\n']).head? = some '\n'
      · obtain ⟨rfl, next⟩ := pair
        obtain ⟨rest, split⟩ : ∃ rest, cs ++ ['\n'] = '\n' :: rest := List.head?_eq_some_iff.mp next
        exact ⟨splitFrom [] rest, by rw [split, splitFrom]⟩
      · exact ⟨_, splitFrom_break ends (fun same next => pair ⟨same, next⟩) line⟩
    · have inner : isBreak c = false := by simpa using ends
      obtain ⟨tail, rest⟩ := ih (line ++ [c])
      exact ⟨tail, by simp [splitFrom_inside inner, rest, inner]⟩

theorem pieces_eq (line : String) : pieces line = firstPiece line :: extra line := by
  obtain ⟨tail, split⟩ := splitFrom_first [] line.toList
  have feed : (line ++ "\n").toList = line.toList ++ ['\n'] := by simp
  have whole : pieces line = firstPiece line :: tail.map String.ofList := by
    rw [pieces, splitlines, feed, split, List.nil_append, List.map_cons, firstPiece]
  rw [extra, whole, List.tail_cons]

/-- Lines that line feeds end are split one by one. -/
theorem splitlines_lines (lines : List String) :
    splitlines (String.ofList (lines.flatMap (fun line => line.toList ++ ['\n']))) = lines.flatMap pieces := by
  rw [splitlines, String.toList_ofList]
  induction lines with
  | nil => rfl
  | cons line lines ih =>
    have feed : (line ++ "\n").toList = line.toList ++ ['\n'] := by simp
    rw [List.flatMap_cons, List.append_assoc, List.singleton_append, splitFrom_feed, List.map_append, ih,
      List.flatMap_cons, pieces, splitlines, feed]

theorem pieces_unbroken {line : String} (single : Unbroken line) : pieces line = [line] := by
  have alone := @splitlines_feeds [line] (by simpa using single)
  have feed : String.ofList ([line].flatMap (fun line => line.toList ++ ['\n'])) = line ++ "\n" := by
    apply String.toList_injective
    simp
  rwa [feed] at alone

theorem firstPiece_append {start : String} (single : Unbroken start) (rest : String) :
    firstPiece (start ++ rest) = start ++ firstPiece rest := by
  apply String.toList_injective
  have all : ∀ c ∈ start.toList, (!isBreak c) = true := fun c member => by simp [single c member]
  rw [firstPiece, String.toList_ofList, String.toList_append, List.takeWhile_append_of_pos all, String.toList_append,
    firstPiece, String.toList_ofList]

/-- A start without line boundaries is a start of the first piece. -/
theorem startsWith_firstPiece {start : String} (single : Unbroken start) (line : String) :
    PyText.startsWith (firstPiece line) start = PyText.startsWith line start := by
  rw [PyText.startsWith, PyText.startsWith, firstPiece, String.toList_ofList, Bool.eq_iff_iff, List.isPrefixOf_iff_prefix,
    List.isPrefixOf_iff_prefix]
  constructor
  · exact fun first => first.trans (List.takeWhile_prefix _)
  · rintro ⟨rest, split⟩
    have all : ∀ c ∈ start.toList, (!isBreak c) = true := fun c member => by simp [single c member]
    rw [← split, List.takeWhile_append_of_pos all]
    exact List.prefix_append _ _

end Onmc.Lines
