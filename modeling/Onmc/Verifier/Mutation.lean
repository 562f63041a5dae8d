import Mathlib.Data.List.Perm.Subperm
import Mathlib.Data.List.Sort
import Onmc.ProofGraph
import Onmc.Separated
import Onmc.ToolBroker.Redaction

/-! The mutants of a function's source, one for each fault at each place, and the grading of a test suite by the
mutants it fails on. -/
namespace Onmc.Verifier.Mutation

inductive MutationOperator where
  | flipComparison | offByOne | negateBoolean | dropStatement
deriving DecidableEq

def MutationOperator.value : MutationOperator → List Char
  | flipComparison => "flip-comparison".toList
  | offByOne => "off-by-one".toList
  | negateBoolean => "negate-boolean".toList
  | dropStatement => "drop-statement".toList

structure FunctionUnderTest where
  qualname : String
  source : String
  named : PyText.strip qualname ≠ ""

structure Mutant where
  mutantId : String
  operator : MutationOperator
  qualname : String
  lineno : Nat
  original : String
  mutated : String
deriving DecidableEq

/-- The decimal digits past ASCII, which `\d` matches and `int` reads. Their table is not reproduced: it is a
parameter. -/
class Decimals where
  past : Char → Option Nat

@[reducible] def Decimals.ascii : Decimals := ⟨fun _ => none⟩

/-- `_COMPARISON_FLIP` -/
def comparisonFlip : List (List Char × List Char) :=
  [("==".toList, "!=".toList), ("!=".toList, "==".toList), ("<=".toList, ">".toList), (">=".toList, "<".toList),
    ("<".toList, ">=".toList), (">".toList, "<=".toList)]

/-- `_BOOLEAN_FLIP` -/
def booleanFlip : List (List Char × List Char) :=
  [("True".toList, "False".toList), ("False".toList, "True".toList), ("and".toList, "or".toList),
    ("or".toList, "and".toList)]

/-- The places of a line where something is matched, from left to right without overlap: what stands before each, what is
matched there and what comes after. A match is told the character before it; `skip` counts the characters of the last
match that are still to come. -/
def places (matchAt : Option Char → List Char → Nat) :
    List Char → Nat → List Char → List (List Char × List Char × List Char)
  | _, _, [] => []
  | passed, skip + 1, c :: rest => places matchAt (passed ++ [c]) skip rest
  | passed, 0, c :: rest =>
    match matchAt passed.getLast? (c :: rest) with
    | 0 => places matchAt (passed ++ [c]) 0 rest
    | n + 1 => (passed, (c :: rest).take (n + 1), (c :: rest).drop (n + 1)) :: places matchAt (passed ++ [c]) n rest

/-- Is this `<` or `>` part of a longer operator? -/
def partOfLonger (src before after : List Char) : Bool :=
  (src = ['<'] || src = ['>']) &&
    (after.head? = some '=' || before.getLast? = some '<' || before.getLast? = some '>')

/-- `_iter_comparison_lines` -/
def iterComparisonLines (line : List Char) : List (Nat × List Char) :=
  comparisonFlip.flatMap fun (src, dst) =>
    ((places (Masking.literal src) [] 0 line).filter (fun (before, _, after) => !partOfLonger src before after)).map
      fun (before, _, after) => (before.length, before ++ dst ++ after)

/-- `_WORD_TOKEN_RE` -/
def wordToken (_prev : Option Char) (text : List Char) : Nat := (text.takeWhile Char.isAlpha).length

/-- `_iter_boolean_lines` -/
def iterBooleanLines (line : List Char) : List (Nat × List Char) :=
  (places wordToken [] 0 line).flatMap fun (before, token, after) =>
    (booleanFlip.filter (fun flip => token = flip.1)).map (fun flip => (before.length, before ++ flip.2 ++ after))

theorem places_split {matchAt : Option Char → List Char → Nat} {passed rest : List Char} {skip : Nat} :
    ∀ place ∈ places matchAt passed skip rest, passed ++ rest = place.1 ++ place.2.1 ++ place.2.2 := by
  induction rest generalizing passed skip with
  | nil =>
    intro place member
    cases skip <;> cases member
  | cons c rest ih =>
    have further : ∀ skip, ∀ place ∈ places matchAt (passed ++ [c]) skip rest,
        passed ++ c :: rest = place.1 ++ place.2.1 ++ place.2.2 := by
      intro skip place member
      have split := ih place member
      rwa [List.append_assoc, List.singleton_append] at split
    cases skip with
    | succ skip => exact further skip
    | zero =>
      intro place member
      simp only [places] at member
      split at member
      · exact further 0 place member
      · rcases List.mem_cons.mp member with rfl | later
        · rw [List.append_assoc, List.take_append_drop]
        · exact further _ place later

theorem places_literal {src : List Char} {passed rest : List Char} {skip : Nat} :
    ∀ place ∈ places (Masking.literal src) passed skip rest, place.2.1 = src := by
  induction rest generalizing passed skip with
  | nil =>
    intro place member
    cases skip <;> cases member
  | cons c rest ih =>
    cases skip with
    | succ skip => exact ih
    | zero =>
      intro place member
      simp only [places] at member
      split at member
      · exact ih place member
      · rename_i n found
        rcases List.mem_cons.mp member with rfl | later
        · rw [Masking.literal] at found
          split at found
          · rename_i here
            have taken := List.prefix_iff_eq_take.mp (List.isPrefixOf_iff_prefix.mp here)
            rw [found] at taken
            exact taken.symm
          · cases found
        · exact ih place later

/-- A line with something in it put in another's place, and no new line. -/
def Edits (line edited : List Char) : Prop :=
  ∃ before old new after, line = before ++ old ++ after ∧ edited = before ++ new ++ after ∧ old ≠ new ∧ '\n' ∉ new

theorem Edits.ne {line edited : List Char} (edits : Edits line edited) : edited ≠ line := by
  obtain ⟨before, old, new, after, rfl, rfl, other, -⟩ := edits
  intro same
  exact other (List.append_cancel_left (List.append_cancel_right same)).symm

theorem Edits.single {line edited : List Char} (edits : Edits line edited) (single : '\n' ∉ line) : '\n' ∉ edited := by
  obtain ⟨before, old, new, after, rfl, rfl, -, plain⟩ := edits
  simp only [List.mem_append, not_or] at single ⊢
  exact ⟨⟨single.1.1, plain⟩, single.2⟩

theorem iterComparisonLines_edits (line : List Char) : ∀ flip ∈ iterComparisonLines line, Edits line flip.2 := by
  intro flip member
  obtain ⟨⟨src, dst⟩, known, made⟩ := List.mem_flatMap.mp member
  obtain ⟨⟨before, token, after⟩, place, rfl⟩ := List.mem_map.mp made
  have among := (List.mem_filter.mp place).1
  have apart : comparisonFlip.all (fun flip => flip.1 ≠ flip.2 ∧ '\n' ∉ flip.2) = true := by decide
  obtain ⟨other, plain⟩ := of_decide_eq_true (List.all_eq_true.mp apart _ known)
  have found : token = src := places_literal _ among
  exact ⟨before, token, dst, after, places_split _ among, rfl, found ▸ other, plain⟩

theorem iterBooleanLines_edits (line : List Char) : ∀ flip ∈ iterBooleanLines line, Edits line flip.2 := by
  intro flip member
  obtain ⟨⟨before, token, after⟩, place, made⟩ := List.mem_flatMap.mp member
  obtain ⟨⟨src, dst⟩, known, rfl⟩ := List.mem_map.mp made
  obtain ⟨known, same⟩ := List.mem_filter.mp known
  have apart : booleanFlip.all (fun flip => flip.1 ≠ flip.2 ∧ '\n' ∉ flip.2) = true := by decide
  obtain ⟨other, plain⟩ := of_decide_eq_true (List.all_eq_true.mp apart _ known)
  exact ⟨before, token, dst, after, places_split _ place, rfl, of_decide_eq_true same ▸ other, plain⟩

theorem toDigits_single (n : Nat) : '\n' ∉ Nat.toDigits 10 n :=
  fun member => absurd (Nat.isDigit_of_mem_toDigits (by decide) (by decide) member) (by decide)

section Literals

variable [Decimals]

def digitValue (c : Char) : Option Nat := if c.isDigit then some (c.toNat - '0'.toNat) else Decimals.past c

/-- `int(token)` -/
def int (token : List Char) : Nat := token.foldl (fun n c => 10 * n + (digitValue c).getD 0) 0

variable [ToolBroker.WordChars]

/-- `[\w.]` -/
def joined (c : Char) : Bool := ToolBroker.WordChars.isWord c || c = '.'

/-- How many characters `_INT_LITERAL_RE` matches: the longest run of digits that nothing joins on. -/
def intLiteral (prev : Option Char) (text : List Char) : Nat :=
  if prev.any joined then 0
  else
    let digits := (text.takeWhile (fun c => (digitValue c).isSome)).length
    (((List.range (digits + 1)).reverse.find?
      (fun n => decide (0 < n) && !(text.drop n).head?.any joined))).getD 0

/-- `_iter_off_by_one_lines` -/
def iterOffByOneLines (line : List Char) : List (Nat × List Char) :=
  (places intLiteral [] 0 line).map fun (before, token, after) =>
    (before.length, before ++ Nat.toDigits 10 (int token + 1) ++ after)

/-- An assignment, as `_DROPPABLE_RE` knows it. -/
def assigns : List Char → Bool
  | [] => false
  | c :: rest =>
    let target := rest.dropWhile (fun d => joined d || d = '[' || d = ']')
    let sign := target.dropWhile PyText.isSpace
    let equals := if sign.head?.any "-+*/".toList.contains then sign.tail else sign
    (c.isAlpha || c = '_') && equals.head? = some '=' && equals.tail.head?.any (fun d => d ≠ '=')

/-- `_drop_statement_line` -/
def dropStatementLine (line : List Char) : Option (List Char) :=
  let indent := line.takeWhile PyText.isSpace
  let statement := line.drop indent.length
  if ("return".toList.isPrefixOf statement && ToolBroker.Redaction.boundary (some 'n') (statement.drop 6)) ||
      assigns statement then some (indent ++ "pass".toList)
  else none

omit [ToolBroker.WordChars] in
/-- `int(str(n)) == n` -/
theorem int_toDigits (n : Nat) : int (Nat.toDigits 10 n) = n := by
  have ascii : ∀ (digits : List Char) (start : Nat), (∀ c ∈ digits, c.isDigit = true) →
      digits.foldl (fun n c => 10 * n + (digitValue c).getD 0) start = Nat.ofDigitChars 10 digits start := by
    intro digits
    induction digits with
    | nil => exact fun start _ => (Nat.ofDigitChars_nil).symm
    | cons c digits ih =>
      intro start all
      have value : (digitValue c).getD 0 = c.toNat - '0'.toNat := by
        rw [digitValue, if_pos (all c List.mem_cons_self)]
        rfl
      rw [List.foldl_cons, value, Nat.ofDigitChars_cons]
      exact ih _ fun d member => all d (List.mem_cons_of_mem _ member)
  rw [int, ascii _ 0 (fun c member => Nat.isDigit_of_mem_toDigits (by decide) (by decide) member),
    Nat.ofDigitChars_ten_toDigits]

theorem iterOffByOneLines_edits (line : List Char) : ∀ flip ∈ iterOffByOneLines line, Edits line flip.2 := by
  intro flip member
  obtain ⟨⟨before, token, after⟩, place, rfl⟩ := List.mem_map.mp member
  refine ⟨before, token, Nat.toDigits 10 (int token + 1), after, places_split _ place, rfl, ?_, toDigits_single _⟩
  intro same
  have value := congrArg int same
  rw [int_toDigits] at value
  exact Nat.succ_ne_self _ value.symm

omit [Decimals] in
theorem dropStatementLine_single {line dropped : List Char} (drop : dropStatementLine line = some dropped)
    (single : '\n' ∉ line) : '\n' ∉ dropped := by
  simp only [dropStatementLine] at drop
  split at drop
  · rw [← Option.some.inj drop, List.mem_append, not_or]
    exact ⟨fun member => single ((List.takeWhile_prefix _).subset member), by decide⟩
  · cases drop

end Literals

/-- `_replace_line` -/
def replaceLine (lines : List (List Char)) (index : Nat) (newLine : List Char) : String :=
  String.ofList (['\n'].intercalate (lines.set index newLine))

/-- `f"{operator.value}-{lineno}-{count}"` -/
def ident (operator : MutationOperator) (lineno count : Nat) : String :=
  String.ofList (operator.value ++ '-' :: Nat.toDigits 10 lineno ++ '-' :: Nat.toDigits 10 count)

/-- What `generate_mutants` has so far. -/
structure Battery where
  counters : MutationOperator → Nat
  mutants : List Mutant

/-- `_emit` -/
def emit (fn : FunctionUnderTest) (lines : List (List Char)) (operator : MutationOperator) (index : Nat)
    (battery : Battery) (mutatedLine : List Char) : Battery :=
  let count := battery.counters operator + 1
  ⟨Function.update battery.counters operator count,
    battery.mutants ++ [⟨ident operator (index + 1) count, operator, fn.qualname, index + 1,
      String.ofList (lines[index]?.getD []), replaceLine lines index mutatedLine⟩]⟩

section Generate

variable [Decimals] [ToolBroker.WordChars]

/-- The mutants of one line. -/
def emitLine (fn : FunctionUnderTest) (lines : List (List Char)) (battery : Battery) (place : List Char × Nat) :
    Battery :=
  let (line, index) := place
  let battery := ((iterComparisonLines line).map Prod.snd).foldl (emit fn lines .flipComparison index) battery
  let battery := ((iterOffByOneLines line).map Prod.snd).foldl (emit fn lines .offByOne index) battery
  let battery := ((iterBooleanLines line).map Prod.snd).foldl (emit fn lines .negateBoolean index) battery
  ((dropStatementLine line).toList.filter (fun dropped => dropped ≠ line)).foldl
    (emit fn lines .dropStatement index) battery

def generateMutants (fn : FunctionUnderTest) : List Mutant :=
  let lines := fn.source.toList.splitOn '\n'
  (lines.zipIdx.foldl (emitLine fn lines) ⟨fun _ => 0, []⟩).mutants

end Generate

/-! The mutants so far. -/

theorem value_dashed (operator other : MutationOperator) (same : operator.value = other.value) : operator = other := by
  cases operator <;> cases other <;> first | rfl | exact absurd same (by decide)

/-- An id tells its operator and count. -/
theorem ident_injective {operator other : MutationOperator} {lineno lineno' count count' : Nat}
    (same : ident operator lineno count = ident other lineno' count') : operator = other ∧ count = count' := by
  have dashless : ∀ n, '-' ∉ Nat.toDigits 10 n :=
    fun n member => absurd (Nat.isDigit_of_mem_toDigits (by decide) (by decide) member) (by decide)
  obtain ⟨front, last⟩ := Separated.last_determined (dashless count) (dashless count') (String.ofList_inj.mp same)
  obtain ⟨first, -⟩ := Separated.last_determined (dashless lineno) (dashless lineno') front
  refine ⟨value_dashed operator other first, ?_⟩
  rw [← @Nat.ofDigitChars_ten_toDigits count, last, Nat.ofDigitChars_ten_toDigits]

/-- A mutant of one line: that line is edited, and all others are as they were. -/
def OfLine (lines : List (List Char)) (m : Mutant) : Prop :=
  ∃ index line edited, lines[index]? = some line ∧ m.lineno = index + 1 ∧ m.original = String.ofList line ∧
    edited ≠ line ∧ '\n' ∉ edited ∧ m.mutated = replaceLine lines index edited

/-- What holds of the mutants of the lines up to one. -/
structure Sound (lines : List (List Char)) (bound : Nat) (battery : Battery) : Prop where
  placed : ∀ m ∈ battery.mutants, OfLine lines m
  counted : ∀ m ∈ battery.mutants, ∃ count, count ≤ battery.counters m.operator ∧
    m.mutantId = ident m.operator m.lineno count
  distinct : (battery.mutants.map Mutant.mutantId).Nodup
  ordered : battery.mutants.Pairwise (fun a b => a.lineno ≤ b.lineno)
  upTo : ∀ m ∈ battery.mutants, m.lineno ≤ bound

section Battery

variable {fn : FunctionUnderTest} {lines : List (List Char)} {line : List Char} {index : Nat} {battery : Battery}

theorem Sound.emit (sound : Sound lines (index + 1) battery) (here : lines[index]? = some line)
    (operator : MutationOperator) {edited : List Char} (other : edited ≠ line) (single : '\n' ∉ edited) :
    Sound lines (index + 1) (emit fn lines operator index battery edited) := by
  have old : ∀ m ∈ battery.mutants, m.mutantId ≠ ident operator (index + 1) (battery.counters operator + 1) := by
    intro m member same
    obtain ⟨count, bound, known⟩ := sound.counted m member
    obtain ⟨rfl, rfl⟩ := ident_injective (known.symm.trans same)
    exact Nat.not_succ_le_self _ bound
  refine ⟨?_, ?_, ?_, ?_, ?_⟩
  · refine List.forall_mem_append.mpr ⟨sound.placed, List.forall_mem_singleton.mpr ?_⟩
    exact ⟨index, line, edited, here, rfl, by rw [here, Option.getD_some], other, single, rfl⟩
  · refine List.forall_mem_append.mpr ⟨?_, List.forall_mem_singleton.mpr ?_⟩
    · intro m member
      obtain ⟨count, bound, known⟩ := sound.counted m member
      refine ⟨count, ?_, known⟩
      by_cases same : m.operator = operator
      · rw [same] at bound ⊢
        exact Nat.le_of_lt (by simpa [Mutation.emit] using Nat.lt_succ_of_le bound)
      · simpa [Mutation.emit, same] using bound
    · exact ⟨battery.counters operator + 1, by simp [Mutation.emit], rfl⟩
  · rw [Mutation.emit, List.map_append, List.map_singleton, List.nodup_append]
    refine ⟨sound.distinct, List.nodup_singleton _, ?_⟩
    intro a held b new same
    obtain ⟨m, member, rfl⟩ := List.mem_map.mp held
    exact old m member (same.trans (List.mem_singleton.mp new))
  · rw [Mutation.emit, List.pairwise_append]
    refine ⟨sound.ordered, List.pairwise_singleton _ _, ?_⟩
    intro m member m' new
    rw [List.mem_singleton.mp new]
    exact sound.upTo m member
  · exact List.forall_mem_append.mpr ⟨sound.upTo, List.forall_mem_singleton.mpr (Nat.le_refl _)⟩

theorem Sound.emits (sound : Sound lines (index + 1) battery) (here : lines[index]? = some line)
    (operator : MutationOperator) {edits : List (List Char)} (edited : ∀ edit ∈ edits, edit ≠ line ∧ '\n' ∉ edit) :
    Sound lines (index + 1) (edits.foldl (Mutation.emit fn lines operator index) battery) := by
  induction edits generalizing battery with
  | nil => exact sound
  | cons edit edits ih =>
    obtain ⟨⟨other, single⟩, rest⟩ := List.forall_mem_cons.mp edited
    exact ih (sound.emit here operator other single) rest

variable [Decimals] [ToolBroker.WordChars]

theorem Sound.emitLine (sound : Sound lines index battery) (here : lines[index]? = some line) (single : '\n' ∉ line) :
    Sound lines (index + 1) (Mutation.emitLine fn lines battery (line, index)) := by
  have wider : Sound lines (index + 1) battery :=
    { sound with upTo := fun m member => Nat.le_succ_of_le (sound.upTo m member) }
  have edits : ∀ flips : List (Nat × List Char), (∀ flip ∈ flips, Edits line flip.2) →
      ∀ edit ∈ flips.map Prod.snd, edit ≠ line ∧ '\n' ∉ edit := by
    intro flips each edit member
    obtain ⟨flip, made, rfl⟩ := List.mem_map.mp member
    exact ⟨(each flip made).ne, (each flip made).single single⟩
  refine ((wider.emits here _ (edits _ (iterComparisonLines_edits line))).emits here _
    (edits _ (iterOffByOneLines_edits line))).emits here _ (edits _ (iterBooleanLines_edits line)) |>.emits here _ ?_
  intro dropped member
  obtain ⟨drop, other⟩ := List.mem_filter.mp member
  exact ⟨of_decide_eq_true other, dropStatementLine_single (Option.mem_toList.mp drop) single⟩

theorem sound_lines (fn : FunctionUnderTest) (lines : List (List Char)) (single : ∀ line ∈ lines, '\n' ∉ line) :
    Sound lines lines.length (lines.zipIdx.foldl (Mutation.emitLine fn lines) ⟨fun _ => 0, []⟩) := by
  have onward : ∀ (rest : List (List Char)) (index : Nat) (battery : Battery), lines.drop index = rest →
      Sound lines index battery →
      Sound lines (index + rest.length) ((rest.zipIdx index).foldl (Mutation.emitLine fn lines) battery) := by
    intro rest
    induction rest with
    | nil => exact fun index battery _ sound => sound
    | cons line rest ih =>
      intro index battery left sound
      have here : lines[index]? = some line := by
        rw [← List.head?_drop, left, List.head?_cons]
      have next : lines.drop (index + 1) = rest := by
        rw [← List.drop_drop, left, List.drop_one, List.tail_cons]
      have later := ih (index + 1) _ next (@Sound.emitLine fn _ _ _ _ _ _ sound here (single line (List.mem_of_getElem? here)))
      rw [List.length_cons, List.zipIdx_cons, List.foldl_cons, Nat.add_comm rest.length 1, ← Nat.add_assoc]
      exact later
  have start : Sound lines 0 ⟨fun _ => 0, []⟩ :=
    ⟨nofun, nofun, List.nodup_nil, List.Pairwise.nil, nofun⟩
  have whole := onward lines 0 _ rfl start
  rwa [Nat.zero_add] at whole

end Battery

end Onmc.Verifier.Mutation
