import Mathlib.Data.List.Basic
import Mathlib.Data.List.Infix

/-! Replacing parts of a text by a marker, from left to right, and which words are not found in what
is left. -/
namespace Masking

variable {α : Type}

/-- Replace what is matched, as long as the match is not empty. A match is told the element before it;
`skip` counts the elements of the last match that are still to come. -/
def mask (matchAt : Option α → List α → Nat) (marker : List α) : Option α → Nat → List α → List α
  | _, _, [] => []
  | _, skip + 1, c :: rest => mask matchAt marker (some c) skip rest
  | prev, 0, c :: rest =>
    match matchAt prev (c :: rest) with
    | 0 => c :: mask matchAt marker (some c) 0 rest
    | n + 1 => marker ++ mask matchAt marker (some c) n rest

/-- The length of a word where the text starts with it. -/
def literal [DecidableEq α] (word : List α) (_prev : Option α) (text : List α) : Nat :=
  if word.isPrefixOf text then word.length else 0

/-- A word that cannot be made of a part of the marker and what stands around it. -/
structure Apart (word marker : List α) : Prop where
  nonempty : word ≠ []
  outside : ¬word <:+: marker
  holds_none : ¬marker <:+: word
  starts : ∀ part, part ≠ [] → part <:+ marker → ¬part <+: word
  stops : ∀ part, part ≠ [] → part <+: marker → ¬part <:+ word

/-- A word in a text that starts with the marker stands after it. -/
theorem Apart.infix_after {word marker rest : List α} (apart : Apart word marker)
    (found : word <:+: marker ++ rest) : word <:+: rest := by
  obtain ⟨before, after, whole⟩ := found
  rw [List.append_assoc] at whole
  rcases List.append_eq_append_iff.mp whole with ⟨part, split, same⟩ | ⟨between, -, same⟩
  · by_cases empty : part = []
    · subst empty
      exact ⟨[], after, by simpa using same⟩
    · have last : part <:+ marker := ⟨before, split.symm⟩
      rcases List.append_eq_append_iff.mp same with ⟨more, within, -⟩ | ⟨more, within, -⟩
      · exact absurd (List.IsInfix.trans ⟨[], more, by simp [within]⟩ last.isInfix) apart.outside
      · exact absurd ⟨more, within.symm⟩ (apart.starts part empty last)
  · exact ⟨between, after, by rw [List.append_assoc]; exact same.symm⟩

/-- A part of the word at the start of what is left was there before. -/
theorem prefix_mask {word marker : List α} (apart : Apart word marker)
    (matchAt : Option α → List α → Nat) {part text : List α} {prev : Option α} {skip : Nat}
    (last : part <:+ word) (found : part <+: mask matchAt marker prev skip text) : part <+: text.drop skip := by
  induction text generalizing part prev skip with
  | nil => simpa [mask] using found
  | cons c rest ih =>
    cases skip with
    | succ skip => exact ih last found
    | zero =>
      simp only [mask] at found
      split at found
      · cases part with
        | nil => exact List.nil_prefix
        | cons x part =>
          obtain ⟨rfl, found⟩ := List.cons_prefix_cons.mp found
          have later := ih ((List.suffix_cons x part).trans last) found
          exact List.cons_prefix_cons.mpr ⟨rfl, by simpa using later⟩
      · by_cases empty : part = []
        · simp [empty]
        · rcases List.prefix_or_prefix_of_prefix found (List.prefix_append _ _) with short | long
          · exact absurd last (apart.stops part empty short)
          · exact absurd (long.isInfix.trans last.isInfix) apart.holds_none

/-- A word in what is left stood in the text where nothing was matched. -/
theorem infix_mask {word marker : List α} (apart : Apart word marker)
    (matchAt : Option α → List α → Nat) {text : List α} {prev : Option α} {skip : Nat}
    (found : word <:+: mask matchAt marker prev skip text) :
    ∃ before part prev, text = before ++ part ∧ word <+: part ∧ matchAt prev part = 0 := by
  induction text generalizing prev skip with
  | nil => exact absurd (List.infix_nil.mp (by simpa [mask] using found)) apart.nonempty
  | cons c rest ih =>
    have further : ∀ {prev skip}, word <:+: mask matchAt marker prev skip rest →
        ∃ before part prev, c :: rest = before ++ part ∧ word <+: part ∧ matchAt prev part = 0 := by
      intro prev skip found
      obtain ⟨before, part, prev, split, stands, unmatched⟩ := ih found
      exact ⟨c :: before, part, prev, by rw [split, List.cons_append], stands, unmatched⟩
    cases skip with
    | succ skip => exact further found
    | zero =>
      simp only [mask] at found
      split at found
      · rename_i unmatched
        rcases List.infix_cons_iff.mp found with here | later
        · refine ⟨[], c :: rest, prev, rfl, ?_, unmatched⟩
          obtain ⟨x, word', rfl⟩ := List.exists_cons_of_ne_nil apart.nonempty
          obtain ⟨rfl, tail⟩ := List.cons_prefix_cons.mp here
          have stood := prefix_mask apart matchAt (List.suffix_cons x word') tail
          exact List.cons_prefix_cons.mpr ⟨rfl, by simpa using stood⟩
        · exact further later
      · exact further (apart.infix_after found)

/-- Masking brings in no word that is apart from the marker. -/
theorem infix_of_mask {word marker : List α} (apart : Apart word marker)
    (matchAt : Option α → List α → Nat) {text : List α} {prev : Option α} {skip : Nat}
    (found : word <:+: mask matchAt marker prev skip text) : word <:+: text := by
  obtain ⟨before, part, -, rfl, stands, -⟩ := infix_mask apart matchAt found
  exact stands.isInfix.trans (List.suffix_append before part).isInfix

/-- Once it is masked itself, it is gone. -/
theorem not_infix_mask_literal [DecidableEq α] {word marker : List α} (apart : Apart word marker)
    (text : List α) : ¬word <:+: mask (literal word) marker none 0 text := by
  intro found
  obtain ⟨before, part, prev, -, stands, unmatched⟩ := infix_mask apart (literal word) found
  rw [literal, if_pos (List.isPrefixOf_iff_prefix.mpr stands)] at unmatched
  exact apart.nonempty (List.length_eq_zero_iff.mp unmatched)

end Masking
