import Onmc.DurableRuntime.Store

/-! The lines of a text file that is read with universal newlines. -/
namespace Onmc.DurableRuntime

/-- The text ends where `splitlines` ends a line. -/
def EndsLine (text : String) : Prop :=
  text.toList.getLast? = some '\n' ∨ text.toList.getLast? = some '\r'

instance (text : String) : Decidable (EndsLine text) := inferInstanceAs (Decidable (_ ∨ _))

theorem splitLinesFrom_line {cs : List Char} (h : Json.OneLine cs) (line rest : List Char) :
    splitLinesFrom line (cs ++ '\n' :: rest) =
      String.ofList (line ++ cs) :: splitLinesFrom [] rest := by
  induction cs generalizing line with
  | nil => simp [splitLinesFrom]
  | cons c cs ih =>
    obtain ⟨hn, hr⟩ := h c List.mem_cons_self
    have tail := ih (fun d hd => h d (List.mem_cons_of_mem _ hd)) (line ++ [c])
    rw [List.cons_append, splitLinesFrom]
    · simp only [hn, hr, or_self, if_false, tail, List.append_assoc, List.cons_append, List.nil_append]
    · intro _ carriage
      exact absurd carriage hr

theorem splitLinesFrom_break (line : List Char) {c : Char} {cs : List Char} (isBreak : c = '\n' ∨ c = '\r')
    (single : c = '\r' → cs.head? ≠ some '\n') :
    splitLinesFrom line (c :: cs) = String.ofList line :: splitLinesFrom [] cs := by
  rw [splitLinesFrom]
  · rw [if_pos isBreak]
  · rintro rest rfl rfl
    exact single rfl rfl

theorem splitLinesFrom_other (line : List Char) {c : Char} (cs : List Char) (other : ¬ (c = '\n' ∨ c = '\r')) :
    splitLinesFrom line (c :: cs) = splitLinesFrom (line ++ [c]) cs := by
  rw [splitLinesFrom]
  · rw [if_neg other]
  · rintro rest rfl rfl
    exact other (.inr rfl)

/-- Text after a line break is split on its own. -/
theorem splitLinesFrom_ends {cs more : List Char} (line : List Char)
    (ends : (cs = [] ∧ line = []) ∨ cs.getLast? = some '\n' ∨ cs.getLast? = some '\r')
    (next : more.head? ≠ some '\n') :
    splitLinesFrom line (cs ++ more) = splitLinesFrom line cs ++ splitLinesFrom [] more := by
  fun_induction splitLinesFrom line cs with
  | case1 line empty =>
    rw [List.isEmpty_iff.mp empty]
    rfl
  | case2 line full =>
    rcases ends with ⟨_, rfl⟩ | ends
    · simp at full
    · simp at ends
  | case3 line cs ih =>
    have tail : (cs = [] ∧ ([] : List Char) = []) ∨ cs.getLast? = some '\n' ∨ cs.getLast? = some '\r' := by
      cases cs with
      | nil => exact .inl ⟨rfl, rfl⟩
      | cons d ds => simpa [List.getLast?_cons_cons] using ends
    simp only [List.cons_append, splitLinesFrom, ih tail]
  | case4 line c cs pair isBreak ih =>
    have tail : (cs = [] ∧ ([] : List Char) = []) ∨ cs.getLast? = some '\n' ∨ cs.getLast? = some '\r' := by
      cases cs with
      | nil => exact .inl ⟨rfl, rfl⟩
      | cons d ds => simpa [List.getLast?_cons_cons] using ends
    have single : c = '\r' → (cs ++ more).head? ≠ some '\n' := by
      intro carriage
      cases cs with
      | nil => exact next
      | cons d ds =>
        intro feed
        exact pair ds carriage (by rw [Option.some.inj feed])
    rw [List.cons_append, splitLinesFrom_break line isBreak single, ih tail]
    rfl
  | case5 line c cs pair other ih =>
    have tail : (cs = [] ∧ line ++ [c] = []) ∨ cs.getLast? = some '\n' ∨ cs.getLast? = some '\r' := by
      cases cs with
      | nil =>
        rcases ends with ⟨h, _⟩ | ends
        · cases h
        · simp only [List.getLast?_singleton, Option.some.injEq] at ends
          exact absurd ends other
      | cons d ds => simpa [List.getLast?_cons_cons] using ends
    rw [List.cons_append, splitLinesFrom_other line _ other, ih tail]

/-- Text after an open line continues it. -/
theorem splitLinesFrom_open {cs body : List Char} (line : List Char) (single : Json.OneLine body)
    (open' : (cs = [] ∧ line ≠ []) ∨ ∃ c, cs.getLast? = some c ∧ c ≠ '\n' ∧ c ≠ '\r') :
    ∃ before last, splitLinesFrom line cs = before ++ [String.ofList last] ∧
      splitLinesFrom line (cs ++ (body ++ ['\n'])) = before ++ [String.ofList (last ++ body)] := by
  fun_induction splitLinesFrom line cs with
  | case1 line empty =>
    rcases open' with ⟨_, full⟩ | ⟨c, hc, _⟩
    · exact absurd (List.isEmpty_iff.mp empty) full
    · cases hc
  | case2 line full =>
    have split := splitLinesFrom_line single line []
    refine ⟨[], line, rfl, ?_⟩
    rw [List.nil_append, split]
    simp [splitLinesFrom]
  | case3 line cs ih =>
    have tail : (cs = [] ∧ ([] : List Char) ≠ []) ∨ ∃ c, cs.getLast? = some c ∧ c ≠ '\n' ∧ c ≠ '\r' := by
      cases cs with
      | nil => simp at open'
      | cons d ds => simpa [List.getLast?_cons_cons] using open'
    obtain ⟨before, last, split, longer⟩ := ih tail
    refine ⟨String.ofList line :: before, last, by rw [split, List.cons_append], ?_⟩
    simp only [List.cons_append, splitLinesFrom, longer]
  | case4 line c cs pair isBreak ih =>
    have tail : (cs = [] ∧ ([] : List Char) ≠ []) ∨ ∃ c, cs.getLast? = some c ∧ c ≠ '\n' ∧ c ≠ '\r' := by
      cases cs with
      | nil =>
        simp only [List.getLast?_singleton, Option.some.injEq] at open'
        rcases open' with ⟨h, _⟩ | ⟨d, rfl, feed, carriage⟩
        · cases h
        · exact absurd isBreak (by simp [feed, carriage])
      | cons d ds => simpa [List.getLast?_cons_cons] using open'
    have alone : c = '\r' → (cs ++ (body ++ ['\n'])).head? ≠ some '\n' := by
      intro carriage
      cases cs with
      | nil => simp at tail
      | cons d ds =>
        intro feed
        exact pair ds carriage (by rw [Option.some.inj feed])
    obtain ⟨before, last, split, longer⟩ := ih tail
    refine ⟨String.ofList line :: before, last, by rw [split, List.cons_append], ?_⟩
    rw [List.cons_append, splitLinesFrom_break line isBreak alone, longer, List.cons_append]
  | case5 line c cs pair other ih =>
    have tail : (cs = [] ∧ line ++ [c] ≠ []) ∨ ∃ c, cs.getLast? = some c ∧ c ≠ '\n' ∧ c ≠ '\r' := by
      cases cs with
      | nil => exact .inl ⟨rfl, by simp⟩
      | cons d ds => simpa [List.getLast?_cons_cons] using open'
    rw [List.cons_append, splitLinesFrom_other line _ other]
    exact ih tail

/-- Text that continues a line makes no line of its own. -/
theorem splitLinesFrom_continues {cs body : List Char} (line : List Char) (single : Json.OneLine body)
    (open' : (cs = [] ∧ line ≠ []) ∨ ∃ c, cs.getLast? = some c ∧ c ≠ '\n' ∧ c ≠ '\r') :
    (splitLinesFrom line (cs ++ (body ++ ['\n']))).length = (splitLinesFrom line cs).length := by
  obtain ⟨before, last, split, longer⟩ := splitLinesFrom_open line single open'
  rw [split, longer, List.length_append, List.length_append, List.length_singleton, List.length_singleton]

/-- The last character of a text that does not end its last line. -/
theorem open_of_torn {text : String} (some_text : text ≠ "") (torn : ¬ EndsLine text) :
    ∃ c, text.toList.getLast? = some c ∧ c ≠ '\n' ∧ c ≠ '\r' := by
  have nonempty : text.toList ≠ [] := fun empty => some_text (String.toList_eq_nil_iff.mp empty)
  refine ⟨_, List.getLast?_eq_some_getLast nonempty, ?_, ?_⟩
  · intro feed
    exact torn (.inl (by rw [List.getLast?_eq_some_getLast nonempty, feed]))
  · intro carriage
    exact torn (.inr (by rw [List.getLast?_eq_some_getLast nonempty, carriage]))

theorem splitLinesFrom_single {cs : List Char} (single : Json.OneLine cs) (line : List Char)
    (some : line ++ cs ≠ []) : splitLinesFrom line cs = [String.ofList (line ++ cs)] := by
  induction cs generalizing line with
  | nil =>
    rw [List.append_nil] at some ⊢
    simp only [splitLinesFrom, List.isEmpty_iff, some, if_false]
  | cons c cs ih =>
    obtain ⟨feed, carriage⟩ := single c List.mem_cons_self
    rw [splitLinesFrom_other line cs (by simp [feed, carriage]),
      ih (fun d hd => single d (List.mem_cons_of_mem _ hd)) _ (by simp), List.append_assoc]
    rfl

end Onmc.DurableRuntime
