import Onmc.ToolBroker.Repatterning

/-! Which characters of a redacted string were put in, and which are those of the string itself. -/
namespace Onmc.ToolBroker.Redaction

/-- The passes over a text whose characters say whether they were put in. -/
def traceAll (matchers : List (Option Char → List Char → Nat)) (text : List (Char × Bool)) : List (Char × Bool) :=
  matchers.foldl (fun text matchAt => Masking.mask (Masking.lift matchAt) (Masking.putIn redacted) none 0 text) text

/-- `redact_secrets` of a string, with the characters of the marker set apart from those that were kept. -/
def trace [WordChars] (secretValues : List String) (value : String) : List (Char × Bool) :=
  traceAll ((orderedSecrets secretValues).map Masking.literal ++ valuePatterns) (Masking.kept value.toList)

theorem map_fst_kept (text : List Char) : (Masking.kept text).map Prod.fst = text := by
  rw [Masking.kept, List.map_map]
  exact List.map_id text

theorem map_fst_putIn (text : List Char) : (Masking.putIn text).map Prod.fst = text := by
  rw [Masking.putIn, List.map_map]
  exact List.map_id text

theorem map_fst_traceAll (matchers : List (Option Char → List Char → Nat)) (text : List (Char × Bool)) :
    (traceAll matchers text).map Prod.fst = maskAll matchers (text.map Prod.fst) := by
  induction matchers generalizing text with
  | nil => rfl
  | cons matchAt matchers ih =>
    rw [traceAll, List.foldl_cons, maskAll, List.foldl_cons]
    refine (ih _).trans ?_
    rw [Masking.map_mask_lift, map_fst_putIn]
    rfl

theorem map_fst_trace [WordChars] (secretValues : List String) (value : String) :
    (trace secretValues value).map Prod.fst = (redactSecrets secretValues value).toList := by
  rw [trace, map_fst_traceAll, map_fst_kept, redactSecrets, String.toList_ofList]

/-- What was kept stands in the string, in the same order. -/
theorem kept_sublist_mask (matchAt : Option (Char × Bool) → List (Char × Bool) → Nat) (prev : Option (Char × Bool))
    (skip : Nat) (text : List (Char × Bool)) :
    ((Masking.mask matchAt (Masking.putIn redacted) prev skip text).filter (fun c => !c.2)).Sublist
      (text.filter (fun c => !c.2)) := by
  have marker : (Masking.putIn redacted).filter (fun c => !c.2) = [] := by decide
  induction text generalizing prev skip with
  | nil => exact List.Sublist.refl _
  | cons c rest ih =>
    have dropped : (rest.filter (fun c => !c.2)).Sublist ((c :: rest).filter (fun c => !c.2)) :=
      (List.sublist_cons_self c rest).filter _
    cases skip with
    | succ skip => exact (ih (some c) skip).trans dropped
    | zero =>
      simp only [Masking.mask]
      split
      · have kept := List.Sublist.filter (fun c : Char × Bool => !c.2) (List.Sublist.refl [c])
        rw [← List.singleton_append, List.filter_append, ← List.singleton_append (l := rest), List.filter_append]
        exact kept.append (ih (some c) 0)
      · rw [List.filter_append, marker, List.nil_append]
        exact (ih _ _).trans dropped

theorem kept_sublist_trace [WordChars] (secretValues : List String) (value : String) :
    (((trace secretValues value).filter (fun c => !c.2)).map Prod.fst).Sublist value.toList := by
  have all : ∀ (matchers : List (Option Char → List Char → Nat)) (text : List (Char × Bool)),
      ((traceAll matchers text).filter (fun c => !c.2)).Sublist (text.filter (fun c => !c.2)) := by
    intro matchers
    induction matchers with
    | nil => exact fun text => List.Sublist.refl _
    | cons matchAt matchers ih => exact fun text => (ih _).trans (kept_sublist_mask _ none 0 text)
  have own : (Masking.kept value.toList).filter (fun c => !c.2) = Masking.kept value.toList := by
    rw [List.filter_eq_self]
    rintro _ member
    obtain ⟨c, -, rfl⟩ := List.mem_map.mp member
    rfl
  have sub := (all ((orderedSecrets secretValues).map Masking.literal ++ valuePatterns)
    (Masking.kept value.toList)).map Prod.fst
  rwa [own, map_fst_kept] at sub

/-- No secret is left of which every character was kept. -/
theorem not_infix_trace [WordChars] {secretValues : List String} {secret : String} (known : secret ∈ secretValues)
    (filled : secret ≠ "") (value : String) : ¬Masking.kept secret.toList <:+: trace secretValues value := by
  have nonempty : secret.toList ≠ [] := fun empty => filled (String.toList_eq_nil_iff.mp empty)
  have apart : Masking.Apart (Masking.kept secret.toList) (Masking.putIn redacted) :=
    Masking.apart_kept nonempty (by decide)
  have ordered : secret.toList ∈ orderedSecrets secretValues := by
    rw [orderedSecrets, List.mem_insertionSort, List.mem_filter]
    exact ⟨List.mem_map_of_mem known, by simpa using nonempty⟩
  obtain ⟨before, after, whole⟩ := List.append_of_mem
    (List.mem_append_left valuePatterns (List.mem_map_of_mem (f := Masking.literal) ordered))
  have onward : ∀ (matchers : List (Option Char → List Char → Nat)) (text : List (Char × Bool)),
      Masking.kept secret.toList <:+: traceAll matchers text → Masking.kept secret.toList <:+: text := by
    intro matchers
    induction matchers with
    | nil => exact fun text found => found
    | cons matchAt matchers ih => exact fun text found => Masking.infix_of_mask apart _ (ih _ found)
  intro found
  rw [trace, whole, traceAll, List.foldl_append, List.foldl_cons] at found
  obtain ⟨_, part, prev, -, ⟨more, stands⟩, unmatched⟩ := Masking.infix_mask apart _ (onward after _ found)
  have shown : secret.toList <+: part.map Prod.fst := by
    rw [← stands, List.map_append, map_fst_kept]
    exact List.prefix_append _ _
  rw [Masking.lift, Masking.literal, if_pos (List.isPrefixOf_iff_prefix.mpr shown)] at unmatched
  exact nonempty (List.length_eq_zero_iff.mp unmatched)

/-- The words that are matched neither stand in the marker nor begin outside of it and end inside. -/
structure Whole (matchAt : Option Char → List Char → Nat) : Prop where
  short : ∀ prev text, matchAt prev text ≤ text.length
  outside : ∀ {prev word rest}, word ≠ [] → matchAt prev (word ++ rest) = word.length → ¬word <:+: redacted
  stops : ∀ {prev word rest}, word ≠ [] → matchAt prev (word ++ rest) = word.length →
    ∀ part, part ≠ [] → part <+: redacted → ¬part <:+ word

theorem whole_literal {word : List Char} (apart : Masking.Apart word redacted) : Whole (Masking.literal word) := by
  have found : ∀ {prev word' rest}, word' ≠ [] → Masking.literal word prev (word' ++ rest) = word'.length → word' = word := by
    intro prev word' rest filled matched
    rw [Masking.literal] at matched
    split at matched
    · rename_i here
      rw [List.isPrefixOf_iff_prefix] at here
      obtain ⟨more, whole⟩ := here
      exact (List.append_inj whole matched).1.symm
    · exact absurd (List.length_eq_zero_iff.mp matched.symm) filled
  refine ⟨?_, ?_, ?_⟩
  · intro prev text
    rw [Masking.literal]
    split
    · rename_i here
      exact (List.isPrefixOf_iff_prefix.mp here).length_le
    · exact Nat.zero_le _
  · intro prev word' rest filled matched
    exact found filled matched ▸ apart.outside
  · intro prev word' rest filled matched
    exact found filled matched ▸ apart.stops

theorem TokenLaws.whole [WordChars] {matchAt : Option Char → List Char → Nat}
    {Token : Option Char → List Char → List Char → Prop} (laws : TokenLaws matchAt Token) : Whole matchAt := by
  refine ⟨laws.short, ?_, ?_⟩
  · intro prev word rest filled matched within
    obtain ⟨-, -, c, member, unmarked⟩ := laws.plain (laws.token filled matched)
    exact unmarked (within.subset member)
  · intro prev word rest filled matched part nonempty begins ends
    obtain ⟨opened, -⟩ := laws.plain (laws.token filled matched)
    have bracket : '[' ∈ part := by
      obtain ⟨more, whole⟩ := begins
      have first : (part ++ more).head? = some '[' := by rw [whole]; rfl
      rw [List.head?_append_of_ne_nil _ nonempty] at first
      exact List.mem_of_head? first
    exact opened (ends.subset bracket)

/-- A text as it was, or one that goes on after its last marker as the text went on there. -/
def Continues (text out : List Char) : Prop := out = text ∨ ∃ before after, out = before ++ redacted ++ after ∧ after <:+ text

theorem Continues.mask {matchAt : Option Char → List Char → Nat} (whole : Whole matchAt) {text middle : List Char}
    (continues : Continues text middle) : Continues text (Masking.mask matchAt redacted none 0 middle) := by
  have masks := @Masking.masks_mask _ matchAt redacted whole.short none middle
  rcases masks.tail with same | ⟨before, word, after, head, prev, split, filled, matched, made⟩
  · rw [same]
    exact continues
  · refine .inr ?_
    rw [made]
    rcases continues with rfl | ⟨front, tail, joined, ending⟩
    · exact ⟨head, after, rfl, ⟨before ++ word, split.symm⟩⟩
    · rw [split] at joined
      rcases List.append_eq_append_iff.mp joined with ⟨more, joined, rest⟩ | ⟨more, -, rest⟩
      · rcases List.append_eq_append_iff.mp joined with ⟨part, inside, marker⟩ | ⟨marked, -, rest'⟩
        · by_cases empty : part = []
          · subst empty
            refine ⟨head ++ redacted, tail, ?_, ending⟩
            rw [rest, marker, List.nil_append]
            simp only [List.append_assoc]
          · -- the word would end inside the marker
            have ends : part <:+ before ++ word := ⟨front, inside.symm⟩
            have begins : part <+: redacted := ⟨more, marker.symm⟩
            rcases List.suffix_or_suffix_of_suffix ends (List.suffix_append before word) with later | earlier
            · exact absurd later (whole.stops filled matched part empty begins)
            · exact absurd (earlier.isInfix.trans begins.isInfix) (whole.outside filled matched)
        · refine ⟨head ++ redacted ++ marked, tail, ?_, ending⟩
          rw [rest, rest']
          simp only [List.append_assoc]
      · exact ⟨head, after, rfl, List.IsSuffix.trans ⟨more, rest.symm⟩ ending⟩

theorem Continues.maskAll {matchers : List (Option Char → List Char → Nat)}
    (whole : ∀ matchAt ∈ matchers, Whole matchAt) {text middle : List Char} (continues : Continues text middle) :
    Continues text (maskAll matchers middle) := by
  induction matchers generalizing middle with
  | nil => exact continues
  | cons matchAt matchers ih =>
    exact ih (fun other member => whole other (List.mem_cons_of_mem _ member))
      (continues.mask (whole matchAt List.mem_cons_self))

/-- Secrets that are distinct from the marker, and the common token forms, are masked whole. -/
theorem whole_matchers [WordChars] [LawfulWordChars] {secretValues : List String} (distinct : Distinct secretValues) :
    ∀ matchAt ∈ (orderedSecrets secretValues).map Masking.literal ++ valuePatterns, Whole matchAt := by
  intro matchAt member
  rcases List.mem_append.mp member with literal | pattern
  · obtain ⟨word, ordered, rfl⟩ := List.mem_map.mp literal
    obtain ⟨filled, known⟩ := mem_orderedSecrets ordered
    rcases distinct _ known with empty | apart
    · exact absurd (String.ofList_eq_empty_iff.mp empty) filled
    · rw [String.toList_ofList] at apart
      exact whole_literal apart
  · obtain ⟨_, laws⟩ := valuePatterns_laws matchAt pattern
    exact laws.whole

theorem continues_redactSecrets [WordChars] [LawfulWordChars] {secretValues : List String}
    (distinct : Distinct secretValues) (value : String) :
    Continues value.toList (redactSecrets secretValues value).toList := by
  rw [redactSecrets, String.toList_ofList]
  exact Continues.maskAll (whole_matchers distinct) (.inl rfl)

theorem Whole.clean {matchAt : Option Char → List Char → Nat} (whole : Whole matchAt) : Clean matchAt redacted := by
  intro before rest split _
  by_contra found
  have size := List.length_take_of_le (whole.short (Masking.lastOr none before) rest)
  have filled : rest.take (matchAt (Masking.lastOr none before) rest) ≠ [] := by
    intro empty
    rw [empty] at size
    exact found size.symm
  refine @whole.outside (Masking.lastOr none before) _ (rest.drop (matchAt (Masking.lastOr none before) rest)) filled ?_ ?_
  · rw [List.take_append_drop, size]
  · rw [split]
    exact (List.take_prefix _ rest).isInfix.trans (List.suffix_append before rest).isInfix

/-- The marker is left as it is. -/
theorem redactSecrets_redacted [WordChars] [LawfulWordChars] {secretValues : List String}
    (distinct : Distinct secretValues) : redactSecrets secretValues (String.ofList redacted) = String.ofList redacted := by
  rw [redactSecrets, String.toList_ofList, maskAll_self]
  exact fun matchAt member => (whole_matchers distinct matchAt member).clean

end Onmc.ToolBroker.Redaction
