import Onmc.JsonText

/-! What is read off the front of a text does not depend on what follows it: a value that ends
before the text does is read alike from every longer text. -/
namespace Onmc.Json

theorem skipBlank_append {cs : List Char} (h : skipBlank cs ≠ []) (more : List Char) :
    skipBlank (cs ++ more) = skipBlank cs ++ more := by
  unfold skipBlank at *
  rw [List.dropWhile_append]
  simp [h]

theorem digitsOf_append_rest {cs : List Char} (h : (digitsOf cs).2 ≠ []) (more : List Char) :
    digitsOf (cs ++ more) = ((digitsOf cs).1, (digitsOf cs).2 ++ more) := by
  induction cs with
  | nil => simp [digitsOf] at h
  | cons c cs ih =>
    by_cases digit : c.isDigit = true
    · have tail : (digitsOf cs).2 ≠ [] := by simpa [digitsOf, digit] using h
      have rest := ih tail
      simp only [digitsOf, Prod.mk.injEq] at rest ⊢
      simp [digit, rest.1, rest.2]
    · simp [digitsOf, digit]

theorem map_consChar {c : Char} {p : Option (List Char × List Char)} {s r : List Char}
    (h : p.map (consChar c) = some (s, r)) : ∃ tail, p = some (tail, r) ∧ s = c :: tail := by
  obtain ⟨⟨tail, rest⟩, hp, he⟩ := Option.map_eq_some_iff.mp h
  cases he
  exact ⟨tail, hp, rfl⟩

theorem parseChars_append {cs : List Char} : ∀ {s r : List Char}, parseChars cs = some (s, r) →
    ∀ more, parseChars (cs ++ more) = some (s, r ++ more) := by
  fun_induction parseChars cs with
  | case1 => simp
  | case2 cs =>
    intro s r h more
    cases h
    rw [List.cons_append, parseChars.eq_def]
    simp
  | case3 => simp
  | case4 => simp
  | case5 x y z w n hn high x' y' z' w' rest m hm low _ ih =>
    intro s r h more
    obtain ⟨tail, ht, rfl⟩ := map_consChar h
    have rest := ih ht more
    simp only [List.cons_append]
    rw [parseChars.eq_def]
    simp [hn, hm, high, low, rest, consChar]
  | case6 => simp
  | case7 => simp
  | case8 => simp
  | case9 x y z w rest n hn high low _ ih =>
    intro s r h more
    obtain ⟨tail, ht, rfl⟩ := map_consChar h
    have rest := ih ht more
    simp only [List.cons_append]
    rw [parseChars.eq_def]
    simp [hn, high, low, rest, consChar]
  | case10 => simp
  | case11 e rest other e' he _ ih =>
    intro s r h more
    obtain ⟨tail, ht, rfl⟩ := map_consChar h
    have rest := ih ht more
    have notU : e ≠ 'u' := by
      rintro rfl
      simp [unescape] at he
    simp only [List.cons_append]
    rw [parseChars.eq_def]
    simp only [show ('\\' : Char) ≠ '"' from by decide, if_false, if_true]
    split
    · rename_i same
      exact absurd (List.cons.inj same).1 notU
    · rename_i same
      obtain ⟨rfl, rfl⟩ := List.cons.inj same
      simp [he, rest, consChar]
    · rename_i same
      cases same
  | case12 => simp
  | case13 => simp
  | case14 c cs quote escape control ih =>
    intro s r h more
    obtain ⟨tail, ht, rfl⟩ := map_consChar h
    have rest := ih ht more
    simp only [List.cons_append]
    rw [parseChars.eq_def]
    simp [quote, escape, control, rest, consChar]

theorem digitsOf_later {cs ds rest : List Char} (h : digitsOf cs = (ds, rest)) (open' : rest ≠ [])
    (more : List Char) : digitsOf (cs ++ more) = (ds, rest ++ more) := by
  have left : (digitsOf cs).2 ≠ [] := by
    rw [h]
    exact open'
  have later := digitsOf_append_rest left more
  rw [h] at later
  exact later

theorem exponentDigits_append {coef : Int} {scale : Nat} {x : Num} {r : List Char} (open' : r ≠ [])
    (more : List Char) (negative : Bool) (cs : List Char)
    (h : (match digitsOf cs with
      | ([], _) => none
      | (ds, rest) => some (Num.float (if negative then .normalize coef (scale + Nat.ofDigitChars 10 ds 0)
          else .normalize (coef * 10 ^ Nat.ofDigitChars 10 ds 0) scale), rest)) = some (x, r)) :
    (match digitsOf (cs ++ more) with
      | ([], _) => none
      | (ds, rest) => some (Num.float (if negative then .normalize coef (scale + Nat.ofDigitChars 10 ds 0)
          else .normalize (coef * 10 ^ Nat.ofDigitChars 10 ds 0) scale), rest)) = some (x, r ++ more) := by
  cases hd : digitsOf cs with
  | mk ds rest =>
    rw [hd] at h
    cases ds with
    | nil => cases h
    | cons d ds =>
      cases h
      rw [digitsOf_later hd open' more]

theorem parseExponent_append {coef : Int} {scale : Nat} {cs : List Char} {x : Num} {r : List Char}
    (h : parseExponent coef scale cs = some (x, r)) (open' : r ≠ []) (more : List Char) :
    parseExponent coef scale (cs ++ more) = some (x, r ++ more) := by
  cases cs with
  | nil =>
    cases h
    exact absurd rfl open'
  | cons c cs =>
    simp only [parseExponent, List.cons_append] at h ⊢
    split at h
    · rename_i exponent
      rw [if_pos exponent]
      cases cs with
      | nil => simp [digitsOf] at h
      | cons d ds =>
        by_cases minus : d = '-'
        · subst minus
          exact exponentDigits_append open' more true ds h
        · by_cases plus : d = '+'
          · subst plus
            exact exponentDigits_append open' more false ds h
          · simp only [List.cons_append, List.cons.injEq, minus, plus, false_and, imp_false,
              not_false_eq_true, implies_true] at h ⊢
            exact exponentDigits_append open' more false (d :: ds) h
    · rename_i plain
      cases h
      rw [if_neg plain]
      rfl

theorem parseUnsigned_append {sign : Int} {cs : List Char} {x : Num} {r : List Char}
    (h : parseUnsigned sign cs = some (x, r)) (open' : r ≠ []) (more : List Char) :
    parseUnsigned sign (cs ++ more) = some (x, r ++ more) := by
  unfold parseUnsigned at h ⊢
  cases hd : digitsOf cs with
  | mk ds rest =>
    rw [hd] at h
    cases ds with
    | nil => cases h
    | cons d ds =>
      have further : rest ≠ [] := by
        rintro rfl
        simp only at h
        split at h
        · cases h
        · cases h
          exact open' rfl
      rw [digitsOf_later hd further more]
      simp only at h ⊢
      split at h
      · cases h
      · rename_i whole
        rw [if_neg whole]
        cases rest with
        | nil => exact absurd rfl further
        | cons c tail =>
          by_cases point : c = '.'
          · subst point
            simp only [List.cons_append] at h ⊢
            cases hf : digitsOf tail with
            | mk fs rest =>
              rw [hf] at h
              cases fs with
              | nil => cases h
              | cons f fs =>
                simp only at h
                have further : rest ≠ [] := by
                  rintro rfl
                  simp only [parseExponent] at h
                  cases h
                  exact open' rfl
                rw [digitsOf_later hf further more]
                exact parseExponent_append h open' more
          · simp only [List.cons_append] at h ⊢
            split at h
            · rename_i exponent
              rw [if_pos exponent]
              exact parseExponent_append h open' more
            · rename_i plain
              rw [if_neg plain]
              cases h
              rfl

theorem parseUnsigned_head {sign : Int} {cs : List Char} {p : Num × List Char}
    (h : parseUnsigned sign cs = some p) : ∃ c tail, cs = c :: tail ∧ c.isDigit = true := by
  cases cs with
  | nil => simp [parseUnsigned, digitsOf] at h
  | cons c tail =>
    refine ⟨c, tail, rfl, ?_⟩
    by_contra other
    simp [parseUnsigned, digitsOf, other] at h

theorem parseNum_append {cs : List Char} {x : Num} {r : List Char} (h : parseNum cs = some (x, r))
    (open' : r ≠ []) (more : List Char) : parseNum (cs ++ more) = some (x, r ++ more) := by
  unfold parseNum at h
  split at h
  · cases h
    rfl
  · cases h
    rfl
  · cases h
    rfl
  · obtain ⟨c, tail, rfl, digit⟩ := parseUnsigned_head h
    have later := parseUnsigned_append h open' more
    have signed := parseNum_signed (-1) (tail ++ more) digit
    exact signed.trans later
  · obtain ⟨c, tail, rfl, digit⟩ := parseUnsigned_head h
    have later := parseUnsigned_append h open' more
    have signed := parseNum_signed 1 (tail ++ more) digit
    exact signed.trans later

theorem parseNum_head {cs : List Char} {p : Num × List Char} (h : parseNum cs = some p) :
    ∃ c tail, cs = c :: tail ∧ (c = '-' ∨ c = 'N' ∨ c = 'I' ∨ c.isDigit = true) := by
  unfold parseNum at h
  split at h
  · exact ⟨_, _, rfl, by simp⟩
  · exact ⟨_, _, rfl, by simp⟩
  · exact ⟨_, _, rfl, by simp⟩
  · exact ⟨_, _, rfl, by simp⟩
  · obtain ⟨c, tail, rfl, digit⟩ := parseUnsigned_head h
    exact ⟨c, tail, rfl, by simp [digit]⟩

/-- A blank start is skipped alike in a longer text, as long as something comes after it. -/
theorem skipBlank_later {cs tail : List Char} {c : Char} (h : skipBlank cs = c :: tail)
    (more : List Char) : skipBlank (cs ++ more) = c :: (tail ++ more) := by
  rw [skipBlank_append (by simp [h]), h, List.cons_append]

theorem parseValue_num {n : Nat} {cs : List Char} {c : Char} {tail : List Char}
    (h : skipBlank cs = c :: tail) (number : c = '-' ∨ c = 'N' ∨ c = 'I' ∨ c.isDigit = true) :
    parseValue (n + 1) cs = (parseNum (c :: tail)).map (fun p => (.num p.1, p.2)) := by
  rw [parseValue, h]
  rcases number with rfl | rfl | rfl | digit
  · simp
  · simp
  · simp
  · have f := digit_facts digit
    split
    all_goals first
      | (rename_i heq; cases heq; simp at f)
      | rfl

theorem parseValue_nil (n : Nat) : parseValue n [] = none := by
  cases n with
  | zero => simp only [parseValue]
  | succ n => simp [parseValue, skipBlank, parseNum, parseUnsigned, digitsOf]

theorem parseItems_nil (n : Nat) : parseItems n [] = none := by
  cases n with
  | zero => simp only [parseItems]
  | succ n => simp only [parseItems, parseValue_nil]

theorem parseFields_nil (n : Nat) : parseFields n [] = none := by
  cases n with
  | zero => simp only [parseFields]
  | succ n => simp [parseFields, skipBlank]

/-- A value whose end shows in the text itself: everything but a number. -/
def Delimited : Json → Prop
  | .num _ => False
  | _ => True

mutual
theorem parseValue_append : ∀ {n m : Nat} {cs : List Char} {v : Json} {r : List Char}, n ≤ m →
    parseValue n cs = some (v, r) → (r ≠ [] ∨ Delimited v) →
    ∀ more, parseValue m (cs ++ more) = some (v, r ++ more)
  | 0, m, cs, v, r, _, h, _, more => by simp [parseValue] at h
  | n + 1, 0, cs, v, r, le, _, _, more => by omega
  | n + 1, m + 1, cs, v, r, le, h, ends, more => by
    rw [parseValue] at h
    split at h
    · rename_i start
      obtain ⟨⟨s, rest⟩, hp, he⟩ := Option.map_eq_some_iff.mp h
      cases he
      rw [parseValue, skipBlank_later start more]
      simp only [parseChars_append hp more, Option.map_some]
    · rename_i inner start
      split at h
      · rename_i closed
        cases h
        rw [parseValue, skipBlank_later start more]
        simp only [skipBlank_later closed more]
      · rename_i items
        obtain ⟨⟨vs, rest⟩, hp, he⟩ := Option.map_eq_some_iff.mp h
        cases he
        have later := parseItems_append (Nat.le_of_succ_le_succ le) hp more
        cases first : skipBlank inner with
        | nil => simp [first, parseItems_nil] at hp
        | cons c tail =>
          rw [first, List.cons_append] at later
          rw [parseValue, skipBlank_later start more]
          simp only [skipBlank_later first more]
          split
          · rename_i closed
            cases closed
            exact absurd first (items _)
          · simp only [later, Option.map_some]
    · rename_i inner start
      split at h
      · rename_i closed
        cases h
        rw [parseValue, skipBlank_later start more]
        simp only [skipBlank_later closed more]
      · rename_i fields
        obtain ⟨⟨fs, rest⟩, hp, he⟩ := Option.map_eq_some_iff.mp h
        cases he
        have later := parseFields_append (Nat.le_of_succ_le_succ le) hp more
        cases first : skipBlank inner with
        | nil => simp [first, parseFields_nil] at hp
        | cons c tail =>
          rw [first, List.cons_append] at later
          rw [parseValue, skipBlank_later start more]
          simp only [skipBlank_later first more]
          split
          · rename_i closed
            cases closed
            exact absurd first (fields _)
          · simp only [later, Option.map_some]
    · rename_i start
      cases h
      rw [parseValue, skipBlank_later start more]
      simp
    · rename_i start
      cases h
      rw [parseValue, skipBlank_later start more]
      simp
    · rename_i start
      cases h
      rw [parseValue, skipBlank_later start more]
      simp
    · obtain ⟨⟨x, rest⟩, hp, he⟩ := Option.map_eq_some_iff.mp h
      cases he
      obtain ⟨c, tail, start, number⟩ := parseNum_head hp
      have open' : rest ≠ [] := ends.resolve_right id
      rw [start] at hp
      rw [parseValue_num (skipBlank_later start more) number]
      have later := parseNum_append hp open' more
      rw [List.cons_append] at later
      simp only [later, Option.map_some]
theorem parseItems_append : ∀ {n m : Nat} {cs : List Char} {vs : List Json} {r : List Char}, n ≤ m →
    parseItems n cs = some (vs, r) → ∀ more, parseItems m (cs ++ more) = some (vs, r ++ more)
  | 0, m, cs, vs, r, _, h, more => by simp [parseItems] at h
  | n + 1, 0, cs, vs, r, le, _, more => by omega
  | n + 1, m + 1, cs, vs, r, le, h, more => by
    have le := Nat.le_of_succ_le_succ le
    rw [parseItems] at h
    split at h
    · cases h
    · rename_i v rest hv
      have further : rest ≠ [] := by
        rintro rfl
        simp [skipBlank] at h
      have value := parseValue_append le hv (.inl further) more
      rw [parseItems]
      simp only [value]
      split at h
      · rename_i closed
        cases h
        simp only [skipBlank_later closed more]
      · rename_i comma
        obtain ⟨⟨vs, rest⟩, hp, he⟩ := Option.map_eq_some_iff.mp h
        cases he
        simp only [skipBlank_later comma more, parseItems_append le hp more, Option.map_some]
      · cases h
theorem parseFields_append : ∀ {n m : Nat} {cs : List Char} {fs : List (String × Json)} {r : List Char},
    n ≤ m → parseFields n cs = some (fs, r) →
    ∀ more, parseFields m (cs ++ more) = some (fs, r ++ more)
  | 0, m, cs, fs, r, _, h, more => by simp [parseFields] at h
  | n + 1, 0, cs, fs, r, le, _, more => by omega
  | n + 1, m + 1, cs, fs, r, le, h, more => by
    have le := Nat.le_of_succ_le_succ le
    rw [parseFields] at h
    split at h
    · rename_i start
      split at h
      · cases h
      · rename_i k rest hk
        rw [parseFields, skipBlank_later start more]
        simp only [parseChars_append hk more]
        split at h
        · rename_i colon
          split at h
          · cases h
          · rename_i v rest hv
            have further : rest ≠ [] := by
              rintro rfl
              simp [skipBlank] at h
            have value := parseValue_append le hv (.inl further) more
            simp only [skipBlank_later colon more, value]
            split at h
            · rename_i closed
              cases h
              simp only [skipBlank_later closed more]
            · rename_i comma
              obtain ⟨⟨fs, rest⟩, hp, he⟩ := Option.map_eq_some_iff.mp h
              cases he
              simp only [skipBlank_later comma more, parseFields_append le hp more, Option.map_some]
            · cases h
        · cases h
    · cases h
end

theorem parseValue_brace {n : Nat} {cs : List Char} {v : Json} {r : List Char}
    (h : parseValue n ('{' :: cs) = some (v, r)) : Delimited v := by
  cases n with
  | zero => simp [parseValue] at h
  | succ n =>
    rw [parseValue, skipBlank_cons (show isBlank '{' = false from by decide)] at h
    simp only at h
    split at h
    · cases h
      trivial
    · obtain ⟨p, _, he⟩ := Option.map_eq_some_iff.mp h
      cases he
      trivial

/-- Nothing but blanks may follow a value. -/
theorem loads_followed {part rest : String} {v : Json} (read : loads part = some v) (delimited : Delimited v)
    {c : Char} {cs : List Char} (next : rest.toList = c :: cs) (solid : isBlank c = false) :
    loads (part ++ rest) = none := by
  unfold loads at read
  split at read
  · cases read
  · rename_i w r parsed
    split at read
    · rename_i blank
      cases read
      have longer : part.toList.length + 1 ≤ (part ++ rest).toList.length + 1 := by
        simp only [String.toList_append, List.length_append]
        omega
      have whole := parseValue_append longer parsed (.inr delimited) rest.toList
      have after : skipBlank (r ++ rest.toList) = c :: cs := by
        rw [next, skipBlank, List.dropWhile_append, if_pos (by simpa [skipBlank] using blank)]
        simp [solid]
      rw [← String.toList_append] at whole
      simp only [loads, whole, after, List.isEmpty_cons, Bool.false_eq_true, if_false]
    · cases read

theorem render_brace (fields : List (String × Json)) : ∃ cs, render (.obj fields) = '{' :: cs := by
  cases fields with
  | nil => exact ⟨_, rfl⟩
  | cons f fs => exact ⟨_, rfl⟩

/-- Nothing shorter than the text of an object can be read. -/
theorem loads_prefix {fields : List (String × Json)} {part rest : String}
    (h : part ++ rest = dumps (.obj fields)) (proper : rest ≠ "") : loads part = none := by
  have text : part.toList ++ rest.toList = render (canonical (.obj fields)) := by
    rw [← String.toList_append, h, dumps, String.toList_ofList]
  rw [canonical_obj] at text
  obtain ⟨tail, brace⟩ := render_brace (canonicalFields fields)
  cases hp : parseValue (part.toList.length + 1) part.toList with
  | none => simp only [loads, hp]
  | some p =>
    obtain ⟨v, r⟩ := p
    have delimited : Delimited v := by
      cases first : part.toList with
      | nil => simp [first, parseValue_nil] at hp
      | cons c cs =>
        rw [first, brace] at text
        rw [first, (List.cons.inj text).1] at hp
        exact parseValue_brace hp
    have sorted : Sorted (.obj (canonicalFields fields)) := by
      rw [← canonical_obj]
      exact canonical_canonical _
    have longer : part.toList.length + 1 ≤ (part.toList ++ rest.toList).length + 1 := by
      simp only [List.length_append]
      omega
    have whole := parseValue_append longer hp (.inr delimited) rest.toList
    have parsed := parseValue_render parseChars_escapeChar (.obj (canonicalFields fields))
      ((part.toList ++ rest.toList).length + 1) [] sorted (by simp [EndsNumber])
      (by rw [renderWith_escapeChar, text]; omega)
    rw [renderWith_escapeChar, ← text, List.append_nil, whole] at parsed
    have nothing := (Prod.mk.inj (Option.some.inj parsed)).2
    have empty : rest.toList = [] := (List.append_eq_nil_iff.mp nothing).2
    exact absurd (String.toList_inj.mp empty) proper

end Onmc.Json
