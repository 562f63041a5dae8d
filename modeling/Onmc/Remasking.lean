import Onmc.Masking

/-! Where in a text the masked parts stood: what is left of it, which of it was put in, and when nothing
is left to mask. -/
namespace Masking

variable {α : Type}

/-- What stands before a place: the last of the elements up to it, or what stood before them all. -/
def lastOr (prev : Option α) (text : List α) : Option α := text.getLast?.or prev

@[simp] theorem lastOr_nil (prev : Option α) : lastOr prev [] = prev := rfl

@[simp] theorem lastOr_cons (prev : Option α) (c : α) (rest : List α) : lastOr prev (c :: rest) = lastOr (some c) rest := by
  cases rest with
  | nil => rfl
  | cons d rest =>
    rw [lastOr, lastOr, List.getLast?_cons_cons, List.getLast?_eq_some_getLast (List.cons_ne_nil d rest)]
    rfl

@[simp] theorem lastOr_append (prev : Option α) (first second : List α) :
    lastOr prev (first ++ second) = lastOr (lastOr prev first) second := by
  induction first generalizing prev with
  | nil => rfl
  | cons c first ih => rw [List.cons_append, lastOr_cons, lastOr_cons, ih]

theorem lastOr_of_ne_nil {prev : Option α} {text : List α} (some : text ≠ []) : lastOr prev text = text.getLast? := by
  rw [lastOr, List.getLast?_eq_some_getLast some]
  rfl

/-- A text, and the text with what is matched in it replaced. -/
inductive Masks (matchAt : Option α → List α → Nat) (marker : List α) : Option α → List α → List α → Prop where
  | nil {prev : Option α} : Masks matchAt marker prev [] []
  | keep {prev : Option α} {c : α} {rest out : List α} : matchAt prev (c :: rest) = 0 →
    Masks matchAt marker (some c) rest out → Masks matchAt marker prev (c :: rest) (c :: out)
  | hide {prev : Option α} {word rest out : List α} : word ≠ [] → matchAt prev (word ++ rest) = word.length →
    Masks matchAt marker (lastOr prev word) rest out → Masks matchAt marker prev (word ++ rest) (marker ++ out)

variable {matchAt : Option α → List α → Nat} {marker : List α}

theorem mask_skip (prev : Option α) (skip : Nat) (text : List α) :
    mask matchAt marker prev skip text = mask matchAt marker (lastOr prev (text.take skip)) 0 (text.drop skip) := by
  induction skip generalizing prev text with
  | zero => rfl
  | succ skip ih =>
    cases text with
    | nil => rfl
    | cons c rest => rw [mask, ih, List.take_succ_cons, lastOr_cons, List.drop_succ_cons]

theorem masks_mask (short : ∀ prev text, matchAt prev text ≤ text.length) (prev : Option α) (text : List α) :
    Masks matchAt marker prev text (mask matchAt marker prev 0 text) := by
  induction length : text.length using Nat.strong_induction_on generalizing prev text with
  | _ length ih =>
    subst length
    cases text with
    | nil => exact .nil
    | cons c rest =>
      cases matched : matchAt prev (c :: rest) with
      | zero =>
        simp only [mask, matched]
        exact .keep matched (ih rest.length (by simp) (some c) rest rfl)
      | succ n =>
        have bound := short prev (c :: rest)
        rw [matched] at bound
        have whole : c :: rest = (c :: rest).take (n + 1) ++ rest.drop n := by
          rw [← List.drop_succ_cons, List.take_append_drop]
        have size : ((c :: rest).take (n + 1)).length = n + 1 := List.length_take_of_le bound
        have later := ih (rest.drop n).length (by rw [List.length_drop, List.length_cons]; omega)
          (lastOr prev ((c :: rest).take (n + 1))) (rest.drop n) rfl
        have out : mask matchAt marker prev 0 (c :: rest) =
            marker ++ mask matchAt marker (lastOr prev ((c :: rest).take (n + 1))) 0 (rest.drop n) := by
          simp only [mask, matched]
          rw [mask_skip, List.take_succ_cons, lastOr_cons]
        have hidden := Masks.hide (List.ne_nil_of_length_eq_add_one size)
          (by rw [← whole, matched, size]) later
        rw [← whole, ← out] at hidden
        exact hidden

/-- Where nothing is matched, nothing changes. -/
theorem mask_self {prev : Option α} {text : List α}
    (unmatched : ∀ before rest, text = before ++ rest → rest ≠ [] → matchAt (lastOr prev before) rest = 0) :
    mask matchAt marker prev 0 text = text := by
  induction text generalizing prev with
  | nil => rfl
  | cons c rest ih =>
    have here := unmatched [] (c :: rest) rfl (List.cons_ne_nil c rest)
    simp only [lastOr_nil] at here
    simp only [mask, here]
    refine congrArg (c :: ·) (ih fun before later split some => ?_)
    have further := unmatched (c :: before) later (by rw [split, List.cons_append]) some
    rwa [lastOr_cons] at further

/-- After the last part that was masked, the text is as it was. -/
theorem Masks.tail {prev : Option α} {text out : List α} (h : Masks matchAt marker prev text out) : out = text ∨
    ∃ before word after head p, text = before ++ word ++ after ∧ word ≠ [] ∧
      matchAt p (word ++ after) = word.length ∧ out = head ++ marker ++ after := by
  induction h with
  | nil => exact .inl rfl
  | @keep prev c rest out _ _ ih =>
    rcases ih with rfl | ⟨before, word, after, head, p, split, some, matched, made⟩
    · exact .inl rfl
    · refine .inr ⟨c :: before, word, after, c :: head, p, ?_, some, matched, ?_⟩
      · rw [split, List.cons_append, List.cons_append]
      · rw [made, List.cons_append, List.cons_append]
  | @hide prev hidden rest out some matched _ ih =>
    rcases ih with rfl | ⟨before, word, after, head, p, split, some', matched', made⟩
    · exact .inr ⟨[], hidden, out, [], prev, rfl, some, matched, rfl⟩
    · refine .inr ⟨hidden ++ before, word, after, marker ++ head, p, ?_, some', matched', ?_⟩
      · rw [split]
        simp only [List.append_assoc]
      · rw [made]
        simp only [List.append_assoc]

/-- What stands before a place in what is left: what stood there, or the end of the marker where a word was
masked. -/
def Joins (matchAt : Option α → List α → Nat) (marker : List α) (p shown : Option α) (later : List α) : Prop :=
  shown = p ∨ ∃ q word, word ≠ [] ∧ matchAt q (word ++ later) = word.length ∧ p = word.getLast? ∧
    shown = marker.getLast?

/-- A place in what is left is inside a marker, or the same place of the text, where nothing was matched. -/
theorem Masks.place (nonempty : marker ≠ []) {prev shown : Option α} {text out before rest : List α}
    (h : Masks matchAt marker prev text out) (joins : Joins matchAt marker prev shown text)
    (split : out = before ++ rest) (some : rest ≠ []) :
    (∃ part more, part ≠ [] ∧ part <:+ marker ∧ rest = part ++ more) ∨
      ∃ earlier later, text = earlier ++ later ∧ Masks matchAt marker (lastOr prev earlier) later rest ∧
        matchAt (lastOr prev earlier) later = 0 ∧ Joins matchAt marker (lastOr prev earlier) (lastOr shown before) later := by
  induction h generalizing shown before with
  | nil =>
    obtain ⟨rfl, rfl⟩ := List.append_eq_nil_iff.mp split.symm
    exact absurd rfl some
  | @keep prev c rest' out unmatched kept ih =>
    cases before with
    | nil =>
      rw [List.nil_append] at split
      subst split
      exact .inr ⟨[], c :: rest', rfl, .keep unmatched kept, unmatched, joins⟩
    | cons d before =>
      obtain ⟨rfl, onward⟩ := List.cons_eq_cons.mp split
      rcases ih (.inl rfl) onward with inside | ⟨earlier, later, stood, masks, unmatched, joins⟩
      · exact .inl inside
      · refine .inr ⟨c :: earlier, later, by rw [stood, List.cons_append], ?_⟩
        rw [lastOr_cons, lastOr_cons]
        exact ⟨masks, unmatched, joins⟩
  | @hide prev word rest' out some' matched kept ih =>
    have joins' : Joins matchAt marker (lastOr prev word) marker.getLast? rest' :=
      .inr ⟨prev, word, some', matched, lastOr_of_ne_nil some', rfl⟩
    rcases List.append_eq_append_iff.mp split with ⟨between, begins, ends⟩ | ⟨part, begins, ends⟩
    · rcases ih joins' ends with inside | ⟨earlier, later, stood, masks, unmatched, joins⟩
      · exact .inl inside
      · refine .inr ⟨word ++ earlier, later, by rw [stood, List.append_assoc], ?_⟩
        rw [begins, lastOr_append, lastOr_append, lastOr_of_ne_nil nonempty]
        exact ⟨masks, unmatched, joins⟩
    · by_cases empty : part = []
      · subst empty
        rw [List.nil_append] at ends
        rw [List.append_nil] at begins
        subst ends
        have start : rest = [] ++ rest := rfl
        rcases ih joins' start with inside | ⟨earlier, later, stood, masks, unmatched, joins⟩
        · exact .inl inside
        · refine .inr ⟨word ++ earlier, later, by rw [stood, List.append_assoc], ?_⟩
          rw [← begins, lastOr_append, lastOr_of_ne_nil nonempty]
          exact ⟨masks, unmatched, joins⟩
      · exact .inl ⟨part, out, empty, ⟨before, begins.symm⟩, ends⟩

/-- A word that the marker cannot begin in stands in what is left as it stood in the text. -/
theorem Masks.prefix_of_plain {m : α} {tail : List α} (begins : marker = m :: tail) {prev : Option α}
    {text out word after : List α} (h : Masks matchAt marker prev text out) (plain : m ∉ word)
    (split : out = word ++ after) :
    ∃ after', text = word ++ after' ∧ Masks matchAt marker (lastOr prev word) after' after := by
  induction word generalizing prev text out with
  | nil =>
    subst split
    exact ⟨text, rfl, h⟩
  | cons c word ih =>
    rw [List.mem_cons, not_or] at plain
    cases h with
    | nil => cases split
    | @keep _ c' rest out unmatched kept =>
      obtain ⟨rfl, onward⟩ := List.cons_eq_cons.mp split
      obtain ⟨after', stood, masks⟩ := ih kept plain.2 onward
      exact ⟨after', by rw [stood, List.cons_append], by rwa [lastOr_cons]⟩
    | hide some matched kept =>
      rw [begins, List.cons_append, List.cons_append] at split
      exact absurd (List.cons_eq_cons.mp split).1 plain.1

/-- What is left starts as the text does, or with a marker where something was matched. -/
theorem Masks.head {prev : Option α} {text out : List α} (nonempty : marker ≠ [])
    (h : Masks matchAt marker prev text out) :
    out.head? = text.head? ∨ (matchAt prev text ≠ 0 ∧ out.head? = marker.head?) := by
  cases h with
  | nil => exact .inl rfl
  | keep unmatched kept => exact .inl rfl
  | hide some matched kept =>
    refine .inr ⟨?_, ?_⟩
    · rw [matched]
      exact fun none => some (List.length_eq_zero_iff.mp none)
    · exact List.head?_append_of_ne_nil _ nonempty

/-! Which of the text was put in. -/

/-- The match of a text whose elements say whether they were put in. -/
def lift (matchAt : Option α → List α → Nat) (prev : Option (α × Bool)) (text : List (α × Bool)) : Nat :=
  matchAt (prev.map Prod.fst) (text.map Prod.fst)

theorem map_mask_lift (marker : List (α × Bool)) (prev : Option (α × Bool)) (skip : Nat) (text : List (α × Bool)) :
    (mask (lift matchAt) marker prev skip text).map Prod.fst =
      mask matchAt (marker.map Prod.fst) (prev.map Prod.fst) skip (text.map Prod.fst) := by
  induction text generalizing prev skip with
  | nil => rfl
  | cons c rest ih =>
    cases skip with
    | succ skip => exact ih (some c) skip
    | zero =>
      simp only [mask, List.map_cons, lift]
      split
      · rw [List.map_cons, ih]
        rfl
      · rw [List.map_append, ih]
        rfl

def kept (text : List α) : List (α × Bool) := text.map (fun c => (c, false))

def putIn (text : List α) : List (α × Bool) := text.map (fun c => (c, true))

/-- A word that shares nothing with a marker. -/
theorem apart_of_disjoint {word : List α} (nonempty : word ≠ []) (some : marker ≠ []) (disjoint : word.Disjoint marker) :
    Apart word marker := by
  have differ : ∀ {part : List α}, part ⊆ word → part ⊆ marker → part = [] := by
    intro part old new
    cases part with
    | nil => rfl
    | cons c part => exact absurd (new List.mem_cons_self) (disjoint (old List.mem_cons_self))
  refine ⟨nonempty, ?_, ?_, ?_, ?_⟩
  · exact fun inside => nonempty (differ (List.Subset.refl _) inside.subset)
  · exact fun inside => some (differ inside.subset (List.Subset.refl _))
  · exact fun part other last first => other (differ first.subset last.subset)
  · exact fun part other first last => other (differ last.subset first.subset)

/-- A word that was kept whole shares nothing with a marker. -/
theorem apart_kept {word : List α} (nonempty : word ≠ []) (some : marker ≠ []) : Apart (kept word) (putIn marker) := by
  refine apart_of_disjoint (by simpa [kept] using nonempty) (by simpa [putIn] using some) ?_
  intro c old new
  obtain ⟨_, _, rfl⟩ := List.mem_map.mp old
  obtain ⟨_, _, same⟩ := List.mem_map.mp new
  cases same

end Masking
