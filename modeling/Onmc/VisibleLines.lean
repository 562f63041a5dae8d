import Onmc.Lines

/-! The lines of a text that are not blank, without the white space around them: what joining and stripping
leave as it is. -/
namespace Onmc.Lines

open PyText

/-- Pieces between line boundaries, stripped, the empty ones left out. -/
def rows (cs : List Char) : List (List Char) := ((cs.splitOnP isBreak).map stripChars).filter (fun row => row ≠ [])

/-- `[line.strip() for line in text.splitlines() if line.strip()]` -/
def visible (text : String) : List String := ((splitlines text).map strip).filter (fun line => line ≠ "")

theorem single_concat {line : List Char} {c : Char} (single : ∀ d ∈ line, isBreak d = false)
    (inside : isBreak c = false) : ∀ d ∈ line ++ [c], isBreak d = false := by
  intro d member
  rcases List.mem_append.mp member with before | last
  · exact single d before
  · rw [List.mem_singleton.mp last]
    exact inside

theorem rows_nil : rows [] = [] := by decide

theorem rows_single {cs : List Char} (single : ∀ c ∈ cs, isBreak c = false) :
    rows cs = [stripChars cs].filter (fun row => row ≠ []) := by
  rw [rows, List.splitOnP_eq_singleton single, List.map_singleton]

theorem rows_append {c : Char} (ends : isBreak c = true) (before after : List Char) :
    rows (before ++ c :: after) = rows before ++ rows after := by
  simp only [rows, List.splitOnP_append_cons before after ends, List.map_append, List.filter_append]

theorem rows_break {c : Char} (ends : isBreak c = true) (after : List Char) : rows (c :: after) = rows after := by
  have apart := rows_append ends [] after
  rwa [rows_nil, List.nil_append, List.nil_append] at apart

theorem stripChars_space {c : Char} (space : isSpace c = true) (cs : List Char) :
    stripChars (c :: cs) = stripChars cs := by
  simp only [stripChars, List.dropWhile_cons, space, if_true]

theorem stripChars_last {c : Char} (space : isSpace c = true) (cs : List Char) :
    stripChars (cs ++ [c]) = stripChars cs := by
  induction cs with
  | nil => exact stripChars_space space []
  | cons d cs ih =>
    by_cases white : isSpace d
    · rw [List.cons_append, stripChars_space white, stripChars_space white, ih]
    · simp only [stripChars, List.cons_append, List.dropWhile_cons, white, Bool.false_eq_true, if_false]
      rw [List.reverse_cons, List.reverse_append, List.reverse_singleton, List.singleton_append, List.cons_append,
        List.dropWhile_cons_of_pos space, List.reverse_cons]

theorem rows_space {c : Char} (space : isSpace c = true) (cs : List Char) : rows (c :: cs) = rows cs := by
  by_cases ends : isBreak c
  · exact rows_break ends cs
  · simp only [rows, List.splitOnP_cons_eq_if_modifyHead, ends, Bool.false_eq_true, if_false]
    cases pieces : cs.splitOnP isBreak with
    | nil => rfl
    | cons piece pieces => simp only [List.modifyHead_cons, List.map_cons, stripChars_space space]

/-- Induction on what follows a line under way. -/
theorem rows_last {c : Char} (space : isSpace c = true) {line : List Char} (single : ∀ d ∈ line, isBreak d = false)
    (cs : List Char) : rows (line ++ (cs ++ [c])) = rows (line ++ cs) := by
  induction cs generalizing line with
  | nil =>
    rw [List.nil_append, List.append_nil]
    by_cases ends : isBreak c
    · rw [rows_append ends line [], rows_nil, List.append_nil]
    · rw [rows_single (single_concat single (by simpa using ends)), rows_single single, stripChars_last space]
  | cons d cs ih =>
    by_cases ends : isBreak d
    · rw [List.cons_append, rows_append ends, rows_append ends]
      exact congrArg (rows line ++ ·) (@ih [] nofun)
    · simpa using ih (single_concat single (by simpa using ends))

theorem rows_dropWhile (cs : List Char) : rows (cs.dropWhile isSpace) = rows cs := by
  induction cs with
  | nil => rfl
  | cons c cs ih =>
    by_cases space : isSpace c
    · rw [List.dropWhile_cons_of_pos space, rows_space space, ih]
    · rw [List.dropWhile_cons_of_neg space]

theorem rows_reverse_dropWhile (cs : List Char) : rows (cs.dropWhile isSpace).reverse = rows cs.reverse := by
  induction cs with
  | nil => rfl
  | cons c cs ih =>
    by_cases space : isSpace c
    · rw [List.dropWhile_cons_of_pos space, ih, List.reverse_cons]
      exact (@rows_last c space [] nofun cs.reverse).symm
    · rw [List.dropWhile_cons_of_neg space]

theorem rows_stripChars (cs : List Char) : rows (stripChars cs) = rows cs := by
  rw [stripChars, rows_reverse_dropWhile, List.reverse_reverse, rows_dropWhile]

/-- The rows are the stripped lines: a carriage return before a line feed adds a blank row at most. -/
theorem rows_splitFrom {line : List Char} (single : ∀ c ∈ line, isBreak c = false) (cs : List Char) :
    ((splitFrom line cs).map stripChars).filter (fun row => row ≠ []) = rows (line ++ cs) := by
  fun_induction splitFrom line cs with
  | case1 line empty =>
    obtain rfl := List.isEmpty_iff.mp empty
    rfl
  | case2 line full => rw [List.append_nil, rows_single single, List.map_singleton]
  | case3 line rest ih =>
    rw [rows_append (by decide), rows_break (by decide), List.map_cons, rows_single single, ← List.nil_append rest,
      ← ih (List.forall_mem_nil _), ← List.filter_append, List.singleton_append, List.nil_append]
  | case4 line c rest pair ends ih =>
    rw [rows_append ends, List.map_cons, rows_single single, ← List.nil_append rest, ← ih (List.forall_mem_nil _), ← List.filter_append,
      List.singleton_append, List.nil_append]
  | case5 line c rest pair inside ih =>
    rw [ih (single_concat single (by simpa using inside)), List.append_assoc, List.singleton_append]

theorem visible_eq (text : String) : visible text = (rows text.toList).map String.ofList := by
  have lines := @rows_splitFrom [] nofun text.toList
  rw [List.nil_append] at lines
  rw [← lines, visible, splitlines, List.map_map, List.filter_map, List.filter_map, List.map_map]
  have same : ((fun line => decide (line ≠ "")) ∘ strip ∘ String.ofList) =
      (fun row => decide (row ≠ [])) ∘ stripChars := by
    funext cs
    simp [strip]
  rw [same]
  apply List.map_congr_left
  intro cs _
  simp [strip]

theorem visible_strip (text : String) : visible (strip text) = visible text := by
  rw [visible_eq, visible_eq, strip, String.toList_ofList, rows_stripChars]

theorem visible_unbroken {line : String} (single : Unbroken line) :
    visible line = [strip line].filter (fun line => line ≠ "") := by
  rw [visible_eq, rows_single single]
  by_cases blank : stripChars line.toList = []
  · simp [strip, blank]
  · simp [strip, blank]

theorem visible_feed (before after : String) : visible (before ++ "\n" ++ after) = visible before ++ visible after := by
  have feed : "\n".toList = ['\n'] := by decide
  rw [visible_eq, visible_eq, visible_eq, String.toList_append, String.toList_append, feed, List.append_assoc,
    List.singleton_append, rows_append (by decide), List.map_append]

theorem visible_end (text : String) : visible (text ++ "\n") = visible text := by
  have fed := visible_feed text ""
  rwa [String.append_empty, show visible "" = [] by decide, List.append_nil] at fed

/-- Joining texts by line feeds puts their lines together. -/
theorem visible_join (pieces : List String) : visible (join "\n" pieces) = pieces.flatMap visible := by
  induction pieces with
  | nil => decide
  | cons piece pieces ih =>
    cases pieces with
    | nil => simp [join]
    | cons next pieces =>
      have joined : join "\n" (piece :: next :: pieces) = piece ++ "\n" ++ join "\n" (next :: pieces) := by
        simp [join, String.intercalate_cons_cons]
      rw [joined, visible_feed, ih, List.flatMap_cons, List.flatMap_cons, List.flatMap_cons]

end Onmc.Lines
