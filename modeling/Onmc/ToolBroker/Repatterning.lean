import Onmc.Remasking
import Onmc.ToolBroker.Redaction

/-! What is left of a text once its tokens are redacted holds no token, so that redacting it again
changes nothing. -/
namespace Onmc.ToolBroker

/-- `\w` as far as ASCII text goes. -/
class LawfulWordChars [WordChars] : Prop where
  ascii : ∀ c : Char, c.toNat < 128 → WordChars.isWord c = (c.isAlphanum || c = '_')

theorem lawfulWordChars_ascii : @LawfulWordChars WordChars.ascii := by
  let _ := WordChars.ascii
  exact ⟨fun _ _ => rfl⟩

namespace Redaction

theorem isAlphanum_iff {c : Char} : c.isAlphanum = true ↔
    (65 ≤ c.toNat ∧ c.toNat ≤ 90) ∨ (97 ≤ c.toNat ∧ c.toNat ≤ 122) ∨ (48 ≤ c.toNat ∧ c.toNat ≤ 57) := by
  unfold Char.isAlphanum Char.isAlpha Char.isUpper Char.isLower Char.isDigit
  simp only [Bool.or_eq_true, Bool.and_eq_true, decide_eq_true_eq, ge_iff_le, UInt32.le_iff_toNat_le]
  exact or_assoc

theorem runLength_split (accepts : Char → Bool) (text : List Char) : ∃ run rest, text = run ++ rest ∧
    runLength accepts text = run.length ∧ (∀ c ∈ run, accepts c = true) ∧ rest.head?.any accepts = false := by
  refine ⟨text.takeWhile accepts, text.dropWhile accepts, List.takeWhile_append_dropWhile.symm, rfl,
    fun _ member => List.all_eq_true.mp List.all_takeWhile _ member, ?_⟩
  have stopped := List.head?_dropWhile_not accepts text
  cases first : (text.dropWhile accepts).head? with
  | none => rfl
  | some c =>
    rw [first] at stopped
    simpa using stopped

theorem runLength_append {accepts : Char → Bool} {run rest : List Char} (all : ∀ c ∈ run, accepts c = true)
    (stops : rest.head?.any accepts = false) : runLength accepts (run ++ rest) = run.length := by
  rw [runLength, List.takeWhile_append_of_pos all, List.length_append]
  cases rest with
  | nil => rfl
  | cons c rest =>
    have stopped : accepts c = false := stops
    rw [List.takeWhile_cons_of_neg (by simp [stopped]), List.length_nil, Nat.add_zero]

theorem le_runLength {accepts : Char → Bool} {run : List Char} (rest : List Char) (all : ∀ c ∈ run, accepts c = true) :
    run.length ≤ runLength accepts (run ++ rest) := by
  rw [runLength, List.takeWhile_append_of_pos all, List.length_append]
  exact Nat.le_add_right _ _

theorem isSpace_bearerChar {c : Char} (accepted : bearerChar c = true) : PyText.isSpace c = false := by
  rw [Bool.eq_false_iff]
  intro blank
  simp only [PyText.isSpace, Bool.or_eq_true, Bool.and_eq_true, decide_eq_true_eq, beq_iff_eq] at blank
  simp only [bearerChar, Bool.or_eq_true, List.contains_iff_mem] at accepted
  rcases accepted with (alphanum | mark) | letter
  · have bound := isAlphanum_iff.mp alphanum
    omega
  · have marks : "._~+/=-".toList.all (fun d => decide (33 ≤ d.toNat) && decide (d.toNat < 127)) = true := by decide
    have bound := List.all_eq_true.mp marks c mark
    rw [Bool.and_eq_true, decide_eq_true_eq, decide_eq_true_eq] at bound
    omega
  · simp only [List.mem_cons, List.not_mem_nil, or_false] at letter
    omega

theorem toLower_b {c : Char} (lower : c.toLower = 'b') : c = 'B' ∨ c = 'b' := by
  unfold Char.toLower at lower
  split at lower
  · refine .inl (Char.ext ?_)
    have sum : c.val + 32 = 98 := congrArg Char.val lower
    have value : c.val = 98 - 32 := by rw [← sum, UInt32.add_sub_cancel]
    exact value
  · exact .inr lower

theorem bearer_name {name : List Char} (letters : name.map Char.toLower = "bearer".toList) :
    ∃ c more, name = c :: more ∧ c.isAlpha = true ∧ c ∉ redacted := by
  cases name with
  | nil => cases letters
  | cons c name =>
    refine ⟨c, name, rfl, ?_⟩
    rcases toLower_b (List.cons_eq_cons.mp letters).1 with rfl | rfl
    · decide
    · decide

theorem not_mem_of_all {accepts : Char → Bool} {c : Char} {start run : List Char} (other : c ∉ start)
    (all : run.all accepts = true) (foreign : accepts c = false) : c ∉ start ++ run := by
  intro member
  rcases List.mem_append.mp member with member | member
  · exact other member
  · exact Bool.false_ne_true (foreign.symm.trans (List.all_eq_true.mp all c member))

theorem githubToken_last {a b c d : Char} {token rest : List Char} (filled : token ≠ []) :
    (a :: b :: c :: d :: (token ++ rest))[3 + token.length]? = token.getLast? := by
  have size := List.length_pos_iff.mpr filled
  rw [List.getLast?_eq_getElem?, show 3 + token.length = token.length - 1 + 1 + 1 + 1 + 1 by omega]
  simp only [List.getElem?_cons_succ]
  exact List.getElem?_append_left (by omega)

theorem drop_four {a b c d : Char} (token rest : List Char) :
    (a :: b :: c :: d :: (token ++ rest)).drop (4 + token.length) = rest := by
  rw [show 4 + token.length = token.length + 1 + 1 + 1 + 1 by omega]
  simp only [List.drop_succ_cons, List.drop_left]

/-- A secret that the marker neither holds nor is held in, nor shares an end with. -/
def Distinct (secretValues : List String) : Prop :=
  ∀ secret ∈ secretValues, secret = "" ∨ Masking.Apart secret.toList redacted

theorem mem_orderedSecrets {secretValues : List String} {word : List Char} (member : word ∈ orderedSecrets secretValues) :
    word ≠ [] ∧ String.ofList word ∈ secretValues := by
  rw [orderedSecrets, List.mem_insertionSort, List.mem_filter, List.mem_map] at member
  obtain ⟨⟨secret, known, rfl⟩, filled⟩ := member
  exact ⟨of_decide_eq_true filled, by rwa [String.ofList_toList]⟩

/-- Nowhere in the text does the match find anything. -/
def Clean (matchAt : Option Char → List Char → Nat) (text : List Char) : Prop :=
  ∀ before rest, text = before ++ rest → rest ≠ [] → matchAt (Masking.lastOr none before) rest = 0

theorem maskAll_self {matchers : List (Option Char → List Char → Nat)} {text : List Char}
    (clean : ∀ matchAt ∈ matchers, Clean matchAt text) : maskAll matchers text = text := by
  induction matchers with
  | nil => rfl
  | cons matchAt matchers ih =>
    rw [maskAll, List.foldl_cons, Masking.mask_self (clean matchAt List.mem_cons_self)]
    exact ih fun matchAt member => clean matchAt (List.mem_cons_of_mem _ member)

theorem clean_literal {word text : List Char} (gone : ¬word <:+: text) : Clean (Masking.literal word) text := by
  rintro before rest rfl -
  rw [Masking.literal, if_neg]
  exact fun here => gone ((List.isPrefixOf_iff_prefix.mp here).isInfix.trans (List.suffix_append before rest).isInfix)

variable [WordChars]

/-- Is the character before or after a place a word character? -/
def inWord (c : Option Char) : Bool := c.any WordChars.isWord

theorem boundary_eq (prev : Option Char) (text : List Char) : boundary prev text = (inWord prev != inWord text.head?) := rfl

/-- A run of word characters ends a word where the text goes on with none. -/
theorem boundary_run {accepts : Char → Bool} {run : List Char} (filled : run ≠ []) (all : run.all accepts = true)
    (words : ∀ c, accepts c = true → WordChars.isWord c = true) (rest : List Char) :
    inWord run.getLast? = true ∧ boundary run.getLast? rest = !inWord rest.head? := by
  have within : inWord run.getLast? = true := by
    rw [List.getLast?_eq_some_getLast filled]
    exact words _ (List.all_eq_true.mp all _ (List.getLast_mem filled))
  refine ⟨within, ?_⟩
  rw [boundary_eq, within]
  cases inWord rest.head? <;> rfl

/-- What the redaction of a kind of token relies on: it begins with a letter at the beginning of a word, it
is not made of the marker's characters, no letter continues the word that it ends, and it is found again
where the text around it has word characters in the same places. -/
structure TokenLaws (matchAt : Option Char → List Char → Nat)
    (Token : Option Char → List Char → List Char → Prop) : Prop where
  finds : ∀ {prev text}, matchAt prev text ≠ 0 → ∃ word rest,
    text = word ++ rest ∧ matchAt prev text = word.length ∧ Token prev word rest
  begins : ∀ {prev word rest}, Token prev word rest → inWord prev = false ∧
    ∃ c more, word = c :: more ∧ c.isAlpha = true
  plain : ∀ {prev word rest}, Token prev word rest → '[' ∉ word ∧ ']' ∉ word ∧ ∃ c ∈ word, c ∉ redacted
  ends : ∀ {prev word c rest}, Token prev word (c :: rest) → c.isAlpha = true → inWord word.getLast? = false
  again : ∀ {prev prev' word rest rest'}, Token prev word rest → inWord prev' = false →
    (inWord rest'.head? = inWord rest.head? ∨ inWord rest.head? = false ∧ inWord word.getLast? = false) →
    matchAt prev' (word ++ rest') ≠ 0

section Laws

variable {matchAt other : Option Char → List Char → Nat} {Token Other : Option Char → List Char → List Char → Prop}

theorem TokenLaws.short (laws : TokenLaws matchAt Token) (prev : Option Char) (text : List Char) :
    matchAt prev text ≤ text.length := by
  by_cases none : matchAt prev text = 0
  · rw [none]
    exact Nat.zero_le _
  · obtain ⟨word, rest, rfl, size, -⟩ := laws.finds none
    rw [size, List.length_append]
    exact Nat.le_add_right _ _

/-- A match of this length is the token itself. -/
theorem TokenLaws.token (laws : TokenLaws matchAt Token) {prev : Option Char} {word rest : List Char}
    (filled : word ≠ []) (matched : matchAt prev (word ++ rest) = word.length) : Token prev word rest := by
  have found : matchAt prev (word ++ rest) ≠ 0 := by
    rw [matched]
    exact fun none => filled (List.length_eq_zero_iff.mp none)
  obtain ⟨word', rest', same, size, token⟩ := laws.finds found
  obtain ⟨rfl, rfl⟩ := List.append_inj same (matched.symm.trans size)
  exact token

variable [LawfulWordChars]

theorem isWord_alphanum {c : Char} (alphanum : c.isAlphanum = true) : WordChars.isWord c = true := by
  have bound := isAlphanum_iff.mp alphanum
  rw [LawfulWordChars.ascii c (by omega), alphanum, Bool.true_or]

theorem isWord_alpha {c : Char} (alpha : c.isAlpha = true) : WordChars.isWord c = true :=
  isWord_alphanum (by rw [Char.isAlphanum, alpha, Bool.true_or])

theorem inWord_bracket : inWord (some '[') = false ∧ inWord (some ']') = false := by
  refine ⟨?_, ?_⟩
  · exact LawfulWordChars.ascii '[' (by decide)
  · exact LawfulWordChars.ascii ']' (by decide)

/-- Redacting one kind of token leaves none of it, and brings in none of another. -/
theorem Clean.mask (laws : TokenLaws matchAt Token) (laws' : TokenLaws other Other) {text : List Char}
    (clean : matchAt = other ∨ Clean matchAt text) : Clean matchAt (Masking.mask other redacted none 0 text) := by
  intro before rest split filled
  by_contra found
  obtain ⟨word, after, rfl, -, token⟩ := laws.finds found
  obtain ⟨outside, c, more, spelled, alpha⟩ := laws.begins token
  obtain ⟨opened, closed, foreign, member, unmarked⟩ := laws.plain token
  have marker : redacted ≠ [] := by decide
  have masks := @Masking.masks_mask _ other redacted laws'.short none text
  rcases masks.place marker (.inl rfl) split filled with ⟨part, more', nonempty, ending, inside⟩ |
    ⟨earlier, later, stood, kept, unmatched, joins⟩
  · -- the word would begin inside a marker
    have bracket : ']' ∈ part := by
      obtain ⟨front, whole⟩ := ending
      have last : (front ++ part).getLast? = some ']' := by rw [whole]; rfl
      rw [List.getLast?_append_of_ne_nil _ nonempty] at last
      exact List.mem_of_getLast? last
    rcases List.append_eq_append_iff.mp inside with ⟨between, longer, -⟩ | ⟨between, longer, -⟩
    · exact unmarked (ending.subset (longer ▸ List.mem_append_left _ member))
    · exact closed (longer ▸ List.mem_append_left _ bracket)
  · -- the word stood in the text, at a place where nothing was found
    obtain ⟨after', stood', masks'⟩ := Masking.Masks.prefix_of_plain (m := '[') rfl kept opened rfl
    have preceded : inWord (Masking.lastOr none earlier) = false := by
      rcases joins with same | ⟨q, hidden, some, matched, same, -⟩
      · exact same ▸ outside
      · rw [same]
        have token' := laws'.token some matched
        rw [stood', spelled, List.cons_append] at token'
        exact laws'.ends token' alpha
    have followed : inWord after'.head? = inWord after.head? ∨
        inWord after.head? = false ∧ inWord word.getLast? = false := by
      rcases masks'.head marker with same | ⟨found', same⟩
      · exact .inl (same ▸ rfl)
      · obtain ⟨_, _, rfl, -, token'⟩ := laws'.finds found'
        have apart := (laws'.begins token').1
        rw [Masking.lastOr_of_ne_nil (spelled ▸ List.cons_ne_nil c more)] at apart
        exact .inr ⟨same ▸ inWord_bracket.1, apart⟩
    have still := laws.again token preceded followed
    rw [← stood'] at still
    rcases clean with rfl | clean
    · exact still unmatched
    · exact still (clean earlier later stood (by rw [stood', spelled]; exact List.cons_ne_nil _ _))

end Laws

variable [LawfulWordChars]

/-! The laws of each kind of token. -/

/-- `Bearer`, blanks and a run of token characters. -/
def BearerToken (prev : Option Char) (word rest : List Char) : Prop :=
  ∃ name spaces token, word = name ++ (spaces ++ token) ∧ name.map Char.toLower = "bearer".toList ∧
    (spaces ≠ [] ∧ ∀ c ∈ spaces, PyText.isSpace c = true) ∧ (token ≠ [] ∧ ∀ c ∈ token, bearerChar c = true) ∧
    rest.head?.any bearerChar = false ∧ inWord prev = false

/-- A word begins at a boundary before a letter. -/
theorem outside_of_boundary {prev : Option Char} {c : Char} {rest : List Char}
    (edge : boundary prev (c :: rest) = true) (letter : c.isAlpha = true) : inWord prev = false := by
  have within : inWord (c :: rest).head? = true := isWord_alpha letter
  rw [boundary_eq, within] at edge
  simpa using edge

theorem boundary_letter {prev : Option Char} {c : Char} (rest : List Char) (outside : inWord prev = false)
    (letter : c.isAlpha = true) : boundary prev (c :: rest) = true := by
  have within : inWord (c :: rest).head? = true := isWord_alpha letter
  rw [boundary_eq, within, outside]
  rfl

theorem bearer_finds {prev : Option Char} {text : List Char} (found : bearer prev text ≠ 0) : ∃ word rest,
    text = word ++ rest ∧ bearer prev text = word.length ∧ BearerToken prev word rest := by
  rw [bearer] at found ⊢
  split at found
  · rename_i here
    rw [if_pos here]
    rw [Bool.and_eq_true, decide_eq_true_eq] at here
    obtain ⟨spaces, rest, blanks, size, all, -⟩ := runLength_split PyText.isSpace (text.drop 6)
    obtain ⟨token, rest', run, size', all', stops⟩ := runLength_split bearerChar rest
    rw [blanks] at size
    simp only [blanks, size, List.drop_left, size'] at found ⊢
    split at found
    · exact absurd rfl found
    · rename_i both
      rw [if_neg both]
      rw [not_or] at both
      have name : (text.take 6).length = 6 := by
        rw [← List.length_map (f := Char.toLower), here.2]
        rfl
      obtain ⟨c, more, begins, letter, -⟩ := bearer_name here.2
      have edge := here.1
      rw [← List.take_append_drop 6 text, begins, List.cons_append] at edge
      refine ⟨text.take 6 ++ (spaces ++ token), rest', ?_, ?_, text.take 6, spaces, token, rfl, here.2, ⟨?_, all⟩,
        ⟨?_, all'⟩, stops, outside_of_boundary edge letter⟩
      · rw [List.append_assoc, List.append_assoc, ← run, ← blanks, List.take_append_drop]
      · rw [List.length_append, List.length_append, name, Nat.add_assoc]
      · exact fun empty => both.1 (List.length_eq_zero_iff.mpr empty)
      · exact fun empty => both.2 (List.length_eq_zero_iff.mpr empty)
  · exact absurd rfl found

theorem bearer_laws : TokenLaws bearer BearerToken where
  finds := bearer_finds
  begins := by
    rintro prev word rest ⟨name, spaces, token, rfl, letters, -, -, -, outside⟩
    obtain ⟨c, more, rfl, first⟩ := bearer_name letters
    exact ⟨outside, c, more ++ (spaces ++ token), rfl, first.1⟩
  plain := by
    rintro prev word rest ⟨name, spaces, token, rfl, letters, ⟨-, blanks⟩, ⟨-, run⟩, -⟩
    have without : ∀ c, c.toLower ∉ "bearer".toList → PyText.isSpace c = false → bearerChar c = false →
        c ∉ name ++ (spaces ++ token) := by
      intro c other solid foreign member
      rcases List.mem_append.mp member with member | member
      · exact other (letters ▸ List.mem_map_of_mem member)
      · rcases List.mem_append.mp member with member | member
        · exact Bool.false_ne_true (solid.symm.trans (blanks c member))
        · exact Bool.false_ne_true (foreign.symm.trans (run c member))
    obtain ⟨c, more, rfl, -, unmarked⟩ := bearer_name letters
    exact ⟨without '[' (by decide) (by decide) (by decide), without ']' (by decide) (by decide) (by decide),
      c, List.mem_append_left _ List.mem_cons_self, unmarked⟩
  ends := by
    rintro prev word c rest ⟨name, spaces, token, -, -, -, -, stops, -⟩ letter
    have goes : bearerChar c = true := by simp [bearerChar, Char.isAlphanum, letter]
    exact absurd goes (by simpa using stops)
  again := by
    rintro prev prev' word rest rest' ⟨name, spaces, token, rfl, letters, ⟨some, blanks⟩, ⟨some', run⟩, -⟩ outside -
    obtain ⟨c, more, begins, letter, -⟩ := bearer_name letters
    have six : name.length = 6 := by
      rw [← List.length_map (f := Char.toLower), letters]
      rfl
    have name6 : (name ++ (spaces ++ token) ++ rest').take 6 = name := by
      rw [List.append_assoc, ← six, List.take_left]
    have rest6 : (name ++ (spaces ++ token) ++ rest').drop 6 = spaces ++ (token ++ rest') := by
      rw [List.append_assoc, ← six, List.drop_left, List.append_assoc]
    have edge : boundary prev' (name ++ (spaces ++ token) ++ rest') = true := by
      rw [begins]
      exact boundary_letter _ outside letter
    have gap : runLength PyText.isSpace (spaces ++ (token ++ rest')) = spaces.length := by
      refine runLength_append blanks ?_
      rw [List.head?_append_of_ne_nil _ some', List.head?_eq_some_head some']
      exact isSpace_bearerChar (run _ (List.head_mem some'))
    have long := le_runLength rest' run
    have gap' : spaces.length ≠ 0 := fun empty => some (List.length_eq_zero_iff.mp empty)
    have long' : token.length ≠ 0 := fun empty => some' (List.length_eq_zero_iff.mp empty)
    rw [bearer, if_pos (by rw [edge, name6, letters]; rfl), rest6]
    simp only [gap, List.drop_left]
    rw [if_neg (by omega)]
    omega

/-- `AKIA` and sixteen characters, a word of their own. -/
def AccessKey (prev : Option Char) (word rest : List Char) : Prop :=
  ∃ key, word = "AKIA".toList ++ key ∧ key.length = 16 ∧ key.all (fun c => c.isDigit || c.isUpper) = true ∧
    inWord prev = false ∧ inWord rest.head? = false

theorem isWord_keyChar {c : Char} (accepted : (c.isDigit || c.isUpper) = true) : WordChars.isWord c = true := by
  apply isWord_alphanum
  unfold Char.isAlphanum Char.isAlpha
  rcases Bool.or_eq_true _ _ |>.mp accepted with digit | upper
  · simp [digit]
  · simp [upper]

theorem accessKey_finds {prev : Option Char} {text : List Char} (found : accessKey prev text ≠ 0) : ∃ word rest,
    text = word ++ rest ∧ accessKey prev text = word.length ∧ AccessKey prev word rest := by
  rw [accessKey] at found ⊢
  split at found
  · rename_i here
    rw [if_pos here]
    simp only [Bool.and_eq_true, decide_eq_true_eq, List.isPrefixOf_iff_prefix] at here
    obtain ⟨⟨⟨⟨edge, after, rfl⟩, size⟩, chars⟩, stops⟩ := here
    have filled := List.ne_nil_of_length_eq_add_one size
    rw [(boundary_run filled chars (fun _ => isWord_keyChar) _).2, Bool.not_eq_true'] at stops
    refine ⟨"AKIA".toList ++ after.take 16, after.drop 16, ?_, ?_, after.take 16, rfl, size, chars, ?_, stops⟩
    · rw [List.append_assoc, List.take_append_drop]
    · rw [List.length_append, show (after.take 16).length = 16 from size]
      rfl
    · exact outside_of_boundary edge (by decide)
  · exact absurd rfl found

theorem accessKey_laws : TokenLaws accessKey AccessKey where
  finds := accessKey_finds
  begins := by
    rintro prev word rest ⟨key, rfl, -, -, outside, -⟩
    exact ⟨outside, 'A', "KIA".toList ++ key, rfl, by decide⟩
  plain := by
    rintro prev word rest ⟨key, rfl, -, chars, -⟩
    refine ⟨not_mem_of_all (by decide) chars (by decide), not_mem_of_all (by decide) chars (by decide), 'K', ?_, by decide⟩
    exact List.mem_append_left _ (by decide)
  ends := by
    rintro prev word c rest ⟨key, -, -, -, -, stops⟩ letter
    exact absurd (isWord_alpha letter) (by simpa [inWord] using stops)
  again := by
    rintro prev prev' word rest rest' ⟨key, rfl, size, chars, -, stops⟩ outside around
    have filled := List.ne_nil_of_length_eq_add_one size
    have edge := boundary_run filled chars (fun _ => isWord_keyChar) rest'
    rw [List.getLast?_append_of_ne_nil _ filled, edge.1] at around
    have stops' : inWord rest'.head? = false := by
      rcases around with same | ⟨-, none⟩
      · exact same.trans stops
      · cases none
    have key16 : (("AKIA".toList ++ key ++ rest').drop 4).take 16 = key := by
      rw [List.append_assoc, ← size]
      exact List.take_left
    have rest20 : ("AKIA".toList ++ key ++ rest').drop 20 = rest' := by
      have whole : ("AKIA".toList ++ key).length = 20 := by rw [List.length_append, size]; rfl
      rw [← whole, List.drop_left]
    have start : "AKIA".toList.isPrefixOf ("AKIA".toList ++ key ++ rest') = true := by
      rw [List.isPrefixOf_iff_prefix, List.append_assoc]
      exact List.prefix_append _ _
    have begins : boundary prev' ("AKIA".toList ++ key ++ rest') = true := boundary_letter _ outside (by decide)
    simp only [accessKey, key16, rest20, start, begins, size, chars, edge.2, stops']
    decide

/-- `gh`, the letter of its kind and twenty characters or more, a word of their own. -/
def GithubToken (prev : Option Char) (word rest : List Char) : Prop :=
  ∃ kind token, word = 'g' :: 'h' :: kind :: '_' :: token ∧ kind ∈ "oprsu".toList ∧ 20 ≤ token.length ∧
    token.all Char.isAlphanum = true ∧ inWord prev = false ∧ inWord rest.head? = false

theorem githubToken_finds {prev : Option Char} {text : List Char} (found : githubToken prev text ≠ 0) : ∃ word rest,
    text = word ++ rest ∧ githubToken prev text = word.length ∧ GithubToken prev word rest := by
  rw [githubToken] at found ⊢
  split at found
  · rename_i here
    rw [if_pos here]
    simp only [Bool.and_eq_true, decide_eq_true_eq, List.isPrefixOf_iff_prefix] at here
    obtain ⟨⟨⟨⟨⟨edge, after, rfl⟩, letter⟩, mark⟩, long⟩, stops⟩ := here
    obtain ⟨kind, more, rfl⟩ : ∃ kind more, after = kind :: more := by
      cases after with
      | nil => cases mark
      | cons kind more => exact ⟨kind, more, rfl⟩
    obtain ⟨more, rfl⟩ : ∃ more', more = '_' :: more' := by
      cases more with
      | nil => cases mark
      | cons c more =>
        cases Option.some.inj mark
        exact ⟨more, rfl⟩
    have inside : "gh".toList ++ kind :: '_' :: more = 'g' :: 'h' :: kind :: '_' :: more := rfl
    rw [inside] at edge letter long stops ⊢
    simp only [List.drop_succ_cons, List.drop_zero] at long stops ⊢
    obtain ⟨token, rest, rfl, size, all, -⟩ := runLength_split Char.isAlphanum more
    rw [size] at long stops ⊢
    have filled : token ≠ [] := by
      rintro rfl
      cases long
    have chars : token.all Char.isAlphanum = true := List.all_eq_true.mpr all
    rw [githubToken_last filled, drop_four, (boundary_run filled chars (fun _ => isWord_alphanum) _).2, Bool.not_eq_true'] at stops
    refine ⟨'g' :: 'h' :: kind :: '_' :: token, rest, rfl, ?_, kind, token, rfl, ?_, long, chars, ?_, stops⟩
    · simp only [List.length_cons]
      omega
    · simpa using letter
    · exact outside_of_boundary edge (by decide)
  · exact absurd rfl found

theorem githubToken_laws : TokenLaws githubToken GithubToken where
  finds := githubToken_finds
  begins := by
    rintro prev word rest ⟨kind, token, rfl, -, -, -, outside, -⟩
    exact ⟨outside, 'g', 'h' :: kind :: '_' :: token, rfl, by decide⟩
  plain := by
    rintro prev word rest ⟨kind, token, rfl, member, -, chars, -⟩
    have start : "oprsu".toList.all (fun kind => decide ('[' ∉ ['g', 'h', kind, '_'] ∧ ']' ∉ ['g', 'h', kind, '_'])) = true := by
      decide
    obtain ⟨opened, closed⟩ := of_decide_eq_true (List.all_eq_true.mp start kind member)
    refine ⟨?_, ?_, 'g', List.mem_cons_self, by decide⟩
    · exact not_mem_of_all opened chars (by decide)
    · exact not_mem_of_all closed chars (by decide)
  ends := by
    rintro prev word c rest ⟨kind, token, -, -, -, -, -, stops⟩ letter
    exact absurd (isWord_alpha letter) (by simpa [inWord] using stops)
  again := by
    rintro prev prev' word rest rest' ⟨kind, token, rfl, member, long, chars, -, stops⟩ outside around
    have filled : token ≠ [] := by
      rintro rfl
      cases long
    have edge := boundary_run filled chars (fun _ => isWord_alphanum) rest'
    have last : ('g' :: 'h' :: kind :: '_' :: token).getLast? = token.getLast? :=
      List.getLast?_append_of_ne_nil ['g', 'h', kind, '_'] filled
    rw [last, edge.1] at around
    have stops' : inWord rest'.head? = false := by
      rcases around with same | ⟨-, none⟩
      · exact same.trans stops
      · cases none
    have size : runLength Char.isAlphanum (token ++ rest') = token.length := by
      refine runLength_append (List.all_eq_true.mp chars) ?_
      cases rest' with
      | nil => rfl
      | cons c rest' =>
        rw [Bool.eq_false_iff]
        exact fun alphanum => Bool.false_ne_true (stops'.symm.trans (isWord_alphanum alphanum))
    have begins : boundary prev' ('g' :: 'h' :: kind :: '_' :: (token ++ rest')) = true :=
      boundary_letter _ outside (by decide)
    have letter : "oprsu".toList.contains kind = true := by simpa using member
    have start : "gh".toList.isPrefixOf ('g' :: 'h' :: kind :: '_' :: (token ++ rest')) = true := rfl
    simp only [List.cons_append, githubToken, List.drop_succ_cons, List.drop_zero, size, githubToken_last filled,
      drop_four, edge.2, stops', begins, start, List.getElem?_cons_succ, List.getElem?_cons_zero, Option.any_some,
      letter, long]
    exact Nat.ne_of_gt (Nat.lt_of_lt_of_le (by decide) (Nat.le_add_right 4 token.length))

/-- `sk-` and sixteen characters or more, up to a boundary. -/
def SecretKey (prev : Option Char) (word rest : List Char) : Prop :=
  ∃ run, word = "sk-".toList ++ run ∧ 16 ≤ run.length ∧ run.all (fun c => c.isAlphanum || c = '_' || c = '-') = true ∧
    inWord prev = false ∧ boundary run.getLast? rest = true

theorem secretKey_finds {prev : Option Char} {text : List Char} (found : secretKey prev text ≠ 0) : ∃ word rest,
    text = word ++ rest ∧ secretKey prev text = word.length ∧ SecretKey prev word rest := by
  rw [secretKey] at found ⊢
  split at found
  · rename_i here
    rw [if_pos here]
    rw [Bool.and_eq_true, List.isPrefixOf_iff_prefix] at here
    obtain ⟨edge, after, rfl⟩ := here
    have rest3 : ("sk-".toList ++ after).drop 3 = after := rfl
    rw [rest3] at found ⊢
    split at found
    · rename_i n chosen
      have satisfied := List.find?_some chosen
      rw [Bool.and_eq_true, decide_eq_true_eq] at satisfied
      obtain ⟨long, stops⟩ := satisfied
      have member := List.mem_of_find?_eq_some chosen
      rw [List.mem_reverse, List.mem_range] at member
      obtain ⟨run, rest, split, size, all, -⟩ := runLength_split (fun c => c.isAlphanum || c = '_' || c = '-') after
      have within : n ≤ run.length := size ▸ Nat.lt_succ_iff.mp member
      have taken : (after.take n).length = n := by
        rw [split, List.length_take, List.length_append]
        omega
      have part : after.take n <+: run := by
        rw [split, List.take_append_of_le_length within]
        exact List.take_prefix n run
      have last : (after.take n).getLast? = after[n - 1]? := by
        rw [List.getLast?_eq_getElem?, taken, List.getElem?_take_of_lt (by omega)]
      refine ⟨"sk-".toList ++ after.take n, after.drop n, ?_, ?_, after.take n, rfl, ?_, ?_, ?_, ?_⟩
      · rw [List.append_assoc, List.take_append_drop]
      · rw [List.length_append, taken]
        rfl
      · rwa [taken]
      · exact List.all_eq_true.mpr fun c member => all c (part.subset member)
      · exact outside_of_boundary edge (by decide)
      · rwa [last]
    · exact absurd rfl found
  · exact absurd rfl found

theorem secretKey_laws : TokenLaws secretKey SecretKey where
  finds := secretKey_finds
  begins := by
    rintro prev word rest ⟨run, rfl, -, -, outside, -⟩
    exact ⟨outside, 's', "k-".toList ++ run, rfl, by decide⟩
  plain := by
    rintro prev word rest ⟨run, rfl, -, chars, -⟩
    refine ⟨not_mem_of_all (by decide) chars (by decide), not_mem_of_all (by decide) chars (by decide), 's', ?_, by decide⟩
    exact List.mem_append_left _ (by decide)
  ends := by
    rintro prev word c rest ⟨run, rfl, long, -, -, stops⟩ letter
    have filled : run ≠ [] := by
      rintro rfl
      cases long
    have within : inWord (c :: rest).head? = true := isWord_alpha letter
    rw [boundary_eq, within] at stops
    rw [List.getLast?_append_of_ne_nil _ filled]
    simpa using stops
  again := by
    rintro prev prev' word rest rest' ⟨run, rfl, long, chars, -, stops⟩ outside around
    have filled : run ≠ [] := by
      rintro rfl
      cases long
    rw [List.getLast?_append_of_ne_nil _ filled] at around
    have stops' : boundary run.getLast? rest' = true := by
      rw [boundary_eq] at stops ⊢
      rcases around with same | ⟨none, none'⟩
      · rwa [same]
      · rw [none, none'] at stops
        cases stops
    have begins : boundary prev' ("sk-".toList ++ run ++ rest') = true := boundary_letter _ outside (by decide)
    have start : "sk-".toList.isPrefixOf ("sk-".toList ++ run ++ rest') = true := by
      rw [List.isPrefixOf_iff_prefix, List.append_assoc]
      exact List.prefix_append _ _
    have rest3 : ("sk-".toList ++ run ++ rest').drop 3 = run ++ rest' := rfl
    have enough := le_runLength rest' (List.all_eq_true.mp chars)
    have last : (run ++ rest')[run.length - 1]? = run.getLast? := by
      have size := List.length_pos_iff.mpr filled
      rw [List.getLast?_eq_getElem?, List.getElem?_append_left (by omega)]
    intro missed
    rw [secretKey, if_pos (by rw [begins, start]; rfl), rest3] at missed
    split at missed
    · omega
    · rename_i none
      rw [List.find?_eq_none] at none
      refine none run.length ?_ ?_
      · rw [List.mem_reverse, List.mem_range]
        exact Nat.lt_succ_of_le enough
      · rw [last, List.drop_left, stops', decide_eq_true long]
        rfl

theorem valuePatterns_laws : ∀ matchAt ∈ valuePatterns, ∃ Token, TokenLaws matchAt Token := by
  intro matchAt member
  simp only [valuePatterns, List.mem_cons, List.not_mem_nil, or_false] at member
  rcases member with rfl | rfl | rfl | rfl
  · exact ⟨_, bearer_laws⟩
  · exact ⟨_, accessKey_laws⟩
  · exact ⟨_, githubToken_laws⟩
  · exact ⟨_, secretKey_laws⟩

theorem Clean.maskAll {matchAt : Option Char → List Char → Nat} {Token : Option Char → List Char → List Char → Prop}
    (laws : TokenLaws matchAt Token) {matchers : List (Option Char → List Char → Nat)}
    (others : ∀ other ∈ matchers, ∃ Token, TokenLaws other Token) {text : List Char} (clean : Clean matchAt text) :
    Clean matchAt (maskAll matchers text) := by
  induction matchers generalizing text with
  | nil => exact clean
  | cons other matchers ih =>
    obtain ⟨_, laws'⟩ := others other List.mem_cons_self
    exact ih (fun other member => others other (List.mem_cons_of_mem _ member)) (Clean.mask laws laws' (.inr clean))

/-- Redacting several kinds of tokens, one after the other, leaves none of any. -/
theorem clean_maskAll {matchers : List (Option Char → List Char → Nat)}
    (laws : ∀ matchAt ∈ matchers, ∃ Token, TokenLaws matchAt Token) (text : List Char) :
    ∀ matchAt ∈ matchers, Clean matchAt (maskAll matchers text) := by
  induction matchers generalizing text with
  | nil => exact fun _ none => absurd none List.not_mem_nil
  | cons other matchers ih =>
    have later : ∀ matchAt ∈ matchers, ∃ Token, TokenLaws matchAt Token :=
      fun matchAt member => laws matchAt (List.mem_cons_of_mem _ member)
    obtain ⟨_, laws'⟩ := laws other List.mem_cons_self
    intro matchAt member
    rcases List.mem_cons.mp member with rfl | member
    · exact Clean.maskAll laws' later (Clean.mask laws' laws' (.inl rfl))
    · exact ih later _ matchAt member

/-- Redacting a string again changes nothing. -/
theorem redactSecrets_redactSecrets {secretValues : List String} (distinct : Distinct secretValues) (value : String) :
    redactSecrets secretValues (redactSecrets secretValues value) = redactSecrets secretValues value := by
  rw [redactSecrets, maskAll_self, String.ofList_toList]
  intro matchAt member
  rcases List.mem_append.mp member with literal | pattern
  · obtain ⟨word, ordered, rfl⟩ := List.mem_map.mp literal
    obtain ⟨filled, known⟩ := mem_orderedSecrets ordered
    refine clean_literal ?_
    rcases distinct _ known with empty | apart
    · exact absurd (String.ofList_eq_empty_iff.mp empty) filled
    · have gone := not_infix_redactSecrets known apart value
      rwa [String.toList_ofList] at gone
  · rw [redactSecrets, String.toList_ofList, maskAll, List.foldl_append]
    exact clean_maskAll valuePatterns_laws _ matchAt pattern

end Redaction

end Onmc.ToolBroker
