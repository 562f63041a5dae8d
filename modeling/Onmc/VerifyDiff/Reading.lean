import Onmc.VerifyDiff.Checker

/-! What the verification reads of a diff that git writes, and when that is what the diff adds. -/
namespace Onmc.VerifyDiff

open UnifiedDiff Lines

/-! One line. -/

section

variable {c : Cursor}

theorem readRaw_context (inside : 0 < c.lineno) (text : String) :
    readRaw c (" " ++ text) = ({ c with lineno := c.lineno + 1 }, []) := by
  have some : c.lineno ≠ 0 := by omega
  simp [readRaw, PyText.startsWith, hunkStart, some]

theorem readRaw_removed (text : String) : readRaw c ("-" ++ text) = (c, []) := by
  simp [readRaw, PyText.startsWith, hunkStart]

theorem readRaw_added {text : String} (plain : PyText.startsWith text "++" = false) :
    readRaw c ("+" ++ text) = ({ c with lineno := c.lineno + 1 }, [⟨c.file, c.lineno, text⟩]) := by
  have other : ("++".toList.isPrefixOf text.toList) = false := plain
  simp only [readRaw, PyText.startsWith, hunkStart, String.toList_append]
  simp_all [List.isPrefixOf]

theorem readRaw_noNewline (inside : 0 < c.lineno) :
    readRaw c noNewline = ({ c with lineno := c.lineno + 1 }, []) := by
  have some : c.lineno ≠ 0 := by omega
  have other : PyText.startsWith noNewline "+++" = false ∧ PyText.startsWith noNewline "---" = false ∧
      hunkStart noNewline = none ∧ PyText.startsWith noNewline "+" = false ∧ PyText.startsWith noNewline "-" = false := by
    decide
  simp [readRaw, other, some]

theorem readRaw_oldName (name : String) : readRaw c ("--- " ++ name) = (c, []) := by
  simp [readRaw, PyText.startsWith]

theorem readRaw_newName (name : String) :
    readRaw c ("+++ " ++ name) = ({ c with file := plusFile ("+++ " ++ name) }, []) := by
  simp [readRaw, PyText.startsWith]

/-- A line that begins neither like an added line nor like a hunk leaves the file as it is. -/
theorem readRaw_plain {raw : String} (first : raw.toList.head? ≠ some '+') (second : raw.toList.head? ≠ some '@') :
    ∃ n, readRaw c raw = (⟨c.file, n⟩, []) := by
  have unhunked : hunkStart raw = none := by
    unfold hunkStart
    split
    · rename_i rest chars
      rw [chars] at second
      exact absurd rfl second
    · rfl
  have unadded (start : String) (opening : start.toList.head? = some '+') : PyText.startsWith raw start = false := by
    unfold PyText.startsWith
    cases text : raw.toList with
    | nil =>
      cases open' : start.toList with
      | nil => simp [open'] at opening
      | cons d ds => rfl
    | cons d ds =>
      cases open' : start.toList with
      | nil => simp [open'] at opening
      | cons e es =>
        rw [text] at first
        rw [open'] at opening
        have differs : (e == d) = false := by
          obtain rfl := Option.some.inj opening
          apply beq_eq_false_iff_ne.mpr
          rintro rfl
          exact first rfl
        simp [List.isPrefixOf, differs]
  simp only [readRaw, unadded "+++" rfl, unadded "+" rfl, unhunked, Bool.false_eq_true, if_false]
  split
  · exact ⟨c.lineno, rfl⟩
  · split
    · exact ⟨c.lineno, rfl⟩
    · split
      · exact ⟨c.lineno, rfl⟩
      · exact ⟨c.lineno + 1, rfl⟩

end

theorem digitsOf_toString (n : Nat) {rest : List Char} (next : ∀ c ∈ rest.head?, c.isDigit = false) :
    Json.digitsOf ((toString n).toList ++ rest) = (Nat.toDigits 10 n, rest) := by
  have digits : (toString n).toList = Nat.toDigits 10 n := Nat.toList_repr
  rw [digits]
  exact Json.digitsOf_append (Json.toDigits_isDigit n) next

theorem toDigits_cons (n : Nat) : ∃ d ds, Nat.toDigits 10 n = d :: ds := List.exists_cons_of_ne_nil Nat.toDigits_ne_nil

/-- The numbers of a range, read up to the space after it. -/
theorem range_read (start count : Nat) (rest : List Char) :
    Json.digitsOf ((UnifiedDiff.range start count).toList ++ ' ' :: rest) =
        (Nat.toDigits 10 start, if count = 1 then ' ' :: rest else ',' :: ((toString count).toList ++ ' ' :: rest)) ∧
      skipCount (if count = 1 then ' ' :: rest else ',' :: ((toString count).toList ++ ' ' :: rest)) = ' ' :: rest := by
  by_cases one : count = 1
  · simp only [UnifiedDiff.range, one, if_true]
    exact ⟨digitsOf_toString start (by simp [Char.isDigit]), rfl⟩
  · simp only [UnifiedDiff.range, one, if_false]
    constructor
    · have comma : ",".toList = [','] := rfl
      rw [String.toList_append, String.toList_append, comma, List.append_assoc, List.append_assoc]
      exact digitsOf_toString start (by simp [Char.isDigit])
    · obtain ⟨d, ds, digits⟩ := toDigits_cons count
      simp only [skipCount, @digitsOf_toString count (' ' :: rest) (by simp [Char.isDigit]), digits]

theorem hunkStart_header (h : Hunk) : hunkStart h.header = some h.newStart := by
  obtain ⟨first, second⟩ := range_read h.oldStart (count h.body .added)
    ('+' :: ((UnifiedDiff.range h.newStart (count h.body .removed)).toList ++ ' ' :: '@' :: '@' :: h.heading.toList))
  obtain ⟨third, fourth⟩ := range_read h.newStart (count h.body .removed) ('@' :: '@' :: h.heading.toList)
  obtain ⟨d, ds, digits⟩ := toDigits_cons h.oldStart
  obtain ⟨e, es, digits'⟩ := toDigits_cons h.newStart
  have text : h.header.toList = '@' :: '@' :: ' ' :: '-' :: ((UnifiedDiff.range h.oldStart (count h.body .added)).toList ++
      ' ' :: '+' :: ((UnifiedDiff.range h.newStart (count h.body .removed)).toList ++
        ' ' :: '@' :: '@' :: h.heading.toList)) := by
    simp [Hunk.header]
  unfold hunkStart
  rw [text]
  simp only [first, second, digits, third, fourth, digits']
  rw [← digits', Nat.ofDigitChars_ten_toDigits]

theorem readRaw_header (c : Cursor) (h : Hunk) : readRaw c h.header = ({ c with lineno := h.newStart }, []) := by
  have plain : PyText.startsWith h.header "+++" = false ∧ PyText.startsWith h.header "---" = false := by
    simp only [PyText.startsWith, Hunk.header, String.toList_append]
    exact ⟨rfl, rfl⟩
  simp only [readRaw, plain, Bool.false_eq_true, if_false, hunkStart_header]

/-! The lines of a body. -/

theorem readRaws_append (c : Cursor) (first second : List String) :
    readRaws c (first ++ second) = ((readRaws (readRaws c first).1 second).1,
      (readRaws c first).2 ++ (readRaws (readRaws c first).1 second).2) := by
  induction first generalizing c with
  | nil => rfl
  | cons raw first ih => simp only [List.cons_append, readRaws, ih, List.append_assoc]

/-- How far the cursor goes past a line: the remark about a missing newline counts as a line. -/
def remark (l : BodyLine) : Nat := if l.ended then 0 else 1

/-- The added lines of a body as they are read from a cursor. -/
def shifted (file : String) : Nat → List BodyLine → List AddedLine
  | _, [] => []
  | n, l :: body =>
    match l.kind with
    | .context => shifted file (n + 1 + remark l) body
    | .removed => shifted file (n + remark l) body
    | .added => ⟨file, n, l.text⟩ :: shifted file (n + 1 + remark l) body

/-- No added line begins like the name of a new file. -/
def Unheaded (body : List BodyLine) : Prop :=
  ∀ l ∈ body, l.kind = .added → PyText.startsWith l.text "++" = false

theorem readRaws_remark {c : Cursor} (inside : 0 < c.lineno) (l : BodyLine) :
    readRaws c (if l.ended then [] else [noNewline]) = ({ c with lineno := c.lineno + remark l }, []) := by
  unfold remark
  cases l.ended with
  | true => rfl
  | false => simp [readRaws, readRaw_noNewline inside]

theorem readRaws_line {c : Cursor} (inside : 0 < c.lineno) (l : BodyLine)
    (unheaded : l.kind = .added → PyText.startsWith l.text "++" = false) :
    readRaws c l.lines = match l.kind with
      | .context => ({ c with lineno := c.lineno + 1 + remark l }, [])
      | .removed => ({ c with lineno := c.lineno + remark l }, [])
      | .added => ({ c with lineno := c.lineno + 1 + remark l }, [⟨c.file, c.lineno, l.text⟩]) := by
  have next (c' : Cursor) (inside' : 0 < c'.lineno) := readRaws_remark inside' l
  simp only [BodyLine.lines, readRaws]
  cases kind : l.kind with
  | context =>
    simp only [Kind.sign, readRaw_context inside]
    rw [next ⟨c.file, c.lineno + 1⟩ (Nat.succ_pos _)]
    rfl
  | removed =>
    simp only [Kind.sign, readRaw_removed]
    rw [next c inside]
    rfl
  | added =>
    simp only [Kind.sign, readRaw_added (unheaded kind)]
    rw [next ⟨c.file, c.lineno + 1⟩ (Nat.succ_pos _)]
    rfl

theorem readRaws_body {c : Cursor} (inside : 0 < c.lineno) {body : List BodyLine} (unheaded : Unheaded body) :
    ∃ n, readRaws c (body.flatMap BodyLine.lines) = (⟨c.file, n⟩, shifted c.file c.lineno body) := by
  induction body generalizing c with
  | nil => exact ⟨c.lineno, rfl⟩
  | cons l body ih =>
    have here := readRaws_line inside l (unheaded l List.mem_cons_self)
    have later : Unheaded body := fun l member => unheaded l (List.mem_cons_of_mem _ member)
    rw [List.flatMap_cons, readRaws_append, here]
    cases kind : l.kind with
    | context =>
      obtain ⟨n, rest⟩ := ih (c := ⟨c.file, c.lineno + 1 + remark l⟩) (Nat.add_pos_left (Nat.succ_pos _) _) later
      exact ⟨n, by simp [rest, shifted, kind]⟩
    | removed =>
      obtain ⟨n, rest⟩ := ih (c := ⟨c.file, c.lineno + remark l⟩) (Nat.add_pos_left inside _) later
      exact ⟨n, by simp [rest, shifted, kind]⟩
    | added =>
      obtain ⟨n, rest⟩ := ih (c := ⟨c.file, c.lineno + 1 + remark l⟩) (Nat.add_pos_left (Nat.succ_pos _) _) later
      exact ⟨n, by simp [rest, shifted, kind]⟩

/-- A body that only removes is read as adding nothing, wherever the cursor is. -/
theorem readRaws_removals {c : Cursor} {body : List BodyLine} (removals : ∀ l ∈ body, l.kind = .removed) :
    (∃ n, readRaws c (body.flatMap BodyLine.lines) = (⟨c.file, n⟩, [])) ∧ ∀ m, shifted c.file m body = [] := by
  induction body generalizing c with
  | nil => exact ⟨⟨c.lineno, rfl⟩, fun _ => rfl⟩
  | cons l body ih =>
    have kind := removals l List.mem_cons_self
    have plain : ∃ n, readRaws c l.lines = (⟨c.file, n⟩, []) := by
      by_cases inside : 0 < c.lineno
      · refine ⟨c.lineno + remark l, ?_⟩
        rw [readRaws_line inside l (by simp [kind]), kind]
      · have start : c.lineno = 0 := by omega
        refine ⟨c.lineno, ?_⟩
        have mark : readRaw c noNewline = (c, []) := by
          have other : PyText.startsWith noNewline "+++" = false ∧ PyText.startsWith noNewline "---" = false ∧
              hunkStart noNewline = none ∧ PyText.startsWith noNewline "+" = false ∧
              PyText.startsWith noNewline "-" = false := by decide
          simp [readRaw, other, start]
        simp only [BodyLine.lines, kind, Kind.sign, readRaws, readRaw_removed]
        split
        · rfl
        · simp [readRaws, mark]
    obtain ⟨m, first⟩ := plain
    obtain ⟨⟨n, rest⟩, nothing⟩ := ih (c := ⟨c.file, m⟩) (fun l member => removals l (List.mem_cons_of_mem _ member))
    refine ⟨⟨n, ?_⟩, ?_⟩
    · rw [List.flatMap_cons, readRaws_append, first, rest]
      rfl
    · intro k
      simp only [shifted, kind]
      exact nothing _

theorem readRaws_hunk (c : Cursor) {h : Hunk} (unheaded : Unheaded h.body) :
    ∃ n, readRaws c h.lines = (⟨c.file, n⟩, shifted c.file h.newStart h.body) := by
  rw [Hunk.lines]
  simp only [readRaws, readRaw_header, List.nil_append]
  by_cases some : 0 < h.newStart
  · exact readRaws_body (c := ⟨c.file, h.newStart⟩) some unheaded
  · have removals : ∀ l ∈ h.body, l.kind = .removed := by
      intro l member
      by_contra kind
      have counted : 0 < count h.body .removed :=
        List.length_pos_of_mem (List.mem_filter.mpr ⟨member, by simpa using kind⟩)
      exact some (h.started counted)
    obtain ⟨⟨n, read⟩, nothing⟩ := readRaws_removals (c := ⟨c.file, h.newStart⟩) removals
    exact ⟨n, by rw [read, nothing h.newStart]⟩

theorem readRaws_hunks (c : Cursor) {hunks : List Hunk} (unheaded : ∀ h ∈ hunks, Unheaded h.body) :
    ∃ n, readRaws c (hunks.flatMap Hunk.lines) =
      (⟨c.file, n⟩, hunks.flatMap (fun h => shifted c.file h.newStart h.body)) := by
  induction hunks generalizing c with
  | nil => exact ⟨c.lineno, rfl⟩
  | cons h hunks ih =>
    obtain ⟨m, first⟩ := readRaws_hunk c (unheaded h List.mem_cons_self)
    obtain ⟨n, rest⟩ := ih ⟨c.file, m⟩ (fun h member => unheaded h (List.mem_cons_of_mem _ member))
    refine ⟨n, ?_⟩
    rw [List.flatMap_cons, readRaws_append, first, rest]
    rfl

theorem readRaws_preamble (c : Cursor) {preamble : List String}
    (plain : ∀ l ∈ preamble, l.toList.head? ≠ some '+' ∧ l.toList.head? ≠ some '@') :
    ∃ n, readRaws c preamble = (⟨c.file, n⟩, []) := by
  induction preamble generalizing c with
  | nil => exact ⟨c.lineno, rfl⟩
  | cons raw preamble ih =>
    obtain ⟨first, second⟩ := plain raw List.mem_cons_self
    obtain ⟨m, here⟩ := readRaw_plain (c := c) first second
    obtain ⟨n, rest⟩ := ih ⟨c.file, m⟩ (fun l member => plain l (List.mem_cons_of_mem _ member))
    exact ⟨n, by simp [readRaws, here, rest]⟩

/-- The added lines of a section as they are read. -/
def sectionRead (s : Section) : List AddedLine :=
  s.hunks.flatMap (fun h => shifted (plusFile ("+++ " ++ s.newName)) h.newStart h.body)

theorem readRaws_section (c : Cursor) {s : Section} (unheaded : ∀ h ∈ s.hunks, Unheaded h.body) :
    ∃ c', readRaws c s.lines = (c', sectionRead s) := by
  obtain ⟨m, preamble⟩ := readRaws_preamble c s.plain
  rw [Section.lines, readRaws_append, preamble]
  by_cases none : s.hunks = []
  · exact ⟨⟨c.file, m⟩, by simp [none, readRaws, sectionRead]⟩
  · obtain ⟨n, hunks⟩ := readRaws_hunks ⟨plusFile ("+++ " ++ s.newName), m⟩ unheaded
    refine ⟨⟨plusFile ("+++ " ++ s.newName), n⟩, ?_⟩
    simp only [none, if_false, List.cons_append, List.nil_append, readRaws, readRaw_oldName, readRaw_newName, hunks]
    rfl

theorem readRaws_diff (c : Cursor) {d : Diff} (unheaded : ∀ s ∈ d, ∀ h ∈ s.hunks, Unheaded h.body) :
    (readRaws c (lines d)).2 = d.flatMap sectionRead := by
  induction d generalizing c with
  | nil => rfl
  | cons s d ih =>
    obtain ⟨c', first⟩ := readRaws_section c (unheaded s List.mem_cons_self)
    have rest := ih c' (fun s member => unheaded s (List.mem_cons_of_mem _ member))
    have split : lines (s :: d) = s.lines ++ lines d := rfl
    rw [split, readRaws_append, first, rest]
    rfl

/-! When that is what the diff adds. -/

def Adds (body : List BodyLine) : Prop := ∃ l ∈ body, l.kind = .added

/-- No line without an end before an added line. -/
def Unmarked (body : List BodyLine) : Prop := body.Pairwise (fun a b => a.ended = false → b.kind ≠ .added)

theorem adds_cons (l : BodyLine) (body : List BodyLine) : Adds (l :: body) ↔ l.kind = .added ∨ Adds body := by
  simp [Adds]

theorem unmarked_cons (l : BodyLine) (body : List BodyLine) :
    Unmarked (l :: body) ↔ (remark l = 0 ∨ ¬ Adds body) ∧ Unmarked body := by
  unfold Unmarked Adds remark
  rw [List.pairwise_cons]
  apply and_congr_left
  intro _
  cases l.ended with
  | true => simp
  | false => simp

/-- The cursor has to be where the body starts, in its file, unless nothing is added. -/
theorem shifted_iff (file path : String) (n drift : Nat) (body : List BodyLine) :
    shifted file (n + drift) body = addedFrom path n body ↔
      (Adds body → file = path ∧ drift = 0 ∧ Unmarked body) := by
  induction body generalizing n drift with
  | nil => simp [shifted, addedFrom, Adds]
  | cons l body ih =>
    rw [adds_cons, unmarked_cons]
    cases kind : l.kind with
    | context =>
      have next : n + drift + 1 + remark l = n + 1 + (drift + remark l) := by omega
      simp only [shifted, addedFrom, kind, next, ih, reduceCtorEq, false_or]
      constructor
      · intro rest adds
        obtain ⟨same, still, unmarked⟩ := rest adds
        exact ⟨same, by omega, .inl (by omega), unmarked⟩
      · intro rest adds
        obtain ⟨same, still, clear, unmarked⟩ := rest adds
        have here := clear.resolve_right (not_not_intro adds)
        exact ⟨same, by omega, unmarked⟩
    | removed =>
      have next : n + drift + remark l = n + (drift + remark l) := by omega
      simp only [shifted, addedFrom, kind, next, ih, reduceCtorEq, false_or]
      constructor
      · intro rest adds
        obtain ⟨same, still, unmarked⟩ := rest adds
        exact ⟨same, by omega, .inl (by omega), unmarked⟩
      · intro rest adds
        obtain ⟨same, still, clear, unmarked⟩ := rest adds
        have here := clear.resolve_right (not_not_intro adds)
        exact ⟨same, by omega, unmarked⟩
    | added =>
      have next : n + drift + 1 + remark l = n + 1 + (drift + remark l) := by omega
      simp only [shifted, addedFrom, kind, next, List.cons.injEq, AddedLine.mk.injEq, ih, true_or, forall_const, and_true]
      constructor
      · rintro ⟨⟨same, here⟩, rest⟩
        refine ⟨same, by omega, ?_, ?_⟩
        · by_cases adds : Adds body
          · obtain ⟨-, still, -⟩ := rest adds
            exact .inl (by omega)
          · exact .inr adds
        · by_cases adds : Adds body
          · exact (rest adds).2.2
          · apply List.pairwise_of_forall_mem_list
            intro a _ b member _ kind'
            exact adds ⟨b, member, kind'⟩
      · rintro ⟨same, still, clear, unmarked⟩
        refine ⟨⟨same, by omega⟩, fun adds => ?_⟩
        have here := clear.resolve_right (not_not_intro adds)
        exact ⟨same, by omega, unmarked⟩

theorem shifted_length (file path : String) (n m : Nat) (body : List BodyLine) :
    (shifted file n body).length = (addedFrom path m body).length := by
  induction body generalizing n m with
  | nil => rfl
  | cons l body ih =>
    simp only [shifted, addedFrom]
    cases l.kind with
    | context => exact ih _ _
    | removed => exact ih _ _
    | added => simp only [List.length_cons, ih _ (m + 1)]

/-- Parts of equal lengths are equal together exactly if they are one by one. -/
theorem flatMap_eq_iff {α β : Type} {f g : α → List β} {items : List α}
    (lengths : ∀ a ∈ items, (f a).length = (g a).length) :
    items.flatMap f = items.flatMap g ↔ ∀ a ∈ items, f a = g a := by
  induction items with
  | nil => simp
  | cons a items ih =>
    have rest := ih (fun b member => lengths b (List.mem_cons_of_mem _ member))
    rw [List.flatMap_cons, List.flatMap_cons, List.append_eq_append_iff_of_size_eq_left (lengths a List.mem_cons_self),
      rest, List.forall_mem_cons]

/-- What a section needs for its added lines to be read as they are. -/
structure SectionClear (s : Section) : Prop where
  unmarked : ∀ h ∈ s.hunks, Unmarked h.body
  named : ∀ h ∈ s.hunks, Adds h.body → plusFile ("+++ " ++ s.newName) = s.path

theorem sectionRead_iff (s : Section) : sectionRead s = s.added ↔ SectionClear s := by
  rw [sectionRead, Section.added, flatMap_eq_iff (fun h _ => shifted_length _ _ _ _ _)]
  have each (h : Hunk) := shifted_iff (plusFile ("+++ " ++ s.newName)) s.path h.newStart 0 h.body
  simp only [Nat.add_zero, true_and] at each
  constructor
  · intro read
    refine ⟨fun h member => ?_, fun h member adds => ((each h).mp (read h member) adds).1⟩
    by_cases adds : Adds h.body
    · exact ((each h).mp (read h member) adds).2
    · apply List.pairwise_of_forall_mem_list
      intro a _ b inside _ kind
      exact adds ⟨b, inside, kind⟩
  · intro clear h member
    exact (each h).mpr (fun adds => ⟨clear.named h member adds, clear.unmarked h member⟩)

theorem sectionRead_length (s : Section) : (sectionRead s).length = s.added.length := by
  simp only [sectionRead, Section.added, List.length_flatMap]
  congr 1
  apply List.map_congr_left
  intro h _
  exact shifted_length _ _ _ _ _

/-- No line of the diff has a line boundary in it but its end. -/
def LinesUnbroken (d : Diff) : Prop := ∀ l ∈ lines d, Unbroken l

instance (d : Diff) : Decidable (LinesUnbroken d) := inferInstanceAs (Decidable (∀ l ∈ lines d, Unbroken l))

def UnheadedDiff (d : Diff) : Prop := ∀ s ∈ d, ∀ h ∈ s.hunks, Unheaded h.body

theorem parse_unbroken {d : Diff} (unbroken : LinesUnbroken d) (unheaded : UnheadedDiff d) :
    parseAddedLines (text d) = d.flatMap sectionRead := by
  rw [parseAddedLines, text, splitlines_feeds unbroken]
  exact readRaws_diff ⟨"", 0⟩ unheaded

/-! What is never read. -/

theorem readRaw_text {c : Cursor} {raw : String} (unbroken : Unbroken raw) :
    ∀ a ∈ (readRaw c raw).2, Unbroken a.text ∧ PyText.startsWith a.text "++" = false := by
  intro a member
  simp only [readRaw] at member
  split at member
  · cases member
  split at member
  · cases member
  split at member
  · cases member
  split at member
  · rename_i unheaded _ _ _ added
    obtain rfl := List.mem_singleton.mp member
    obtain ⟨rest, chars⟩ := List.isPrefixOf_iff_prefix.mp added
    have text : raw.toList = '+' :: rest := chars.symm
    constructor
    · intro d inside
      rw [String.toList_ofList] at inside
      exact unbroken d (List.mem_of_mem_drop inside)
    · rw [Bool.eq_false_iff]
      intro headed
      apply unheaded
      have start : "++".toList <+: rest := by
        simpa [PyText.startsWith, text, List.isPrefixOf_iff_prefix] using headed
      have plus : "+++".toList = '+' :: "++".toList := rfl
      rw [PyText.startsWith, text, List.isPrefixOf_iff_prefix, plus]
      exact List.cons_prefix_cons.mpr ⟨rfl, start⟩
  split at member
  · cases member
  split at member
  · cases member
  · cases member

theorem readRaws_text {c : Cursor} {raws : List String} (unbroken : ∀ raw ∈ raws, Unbroken raw) :
    ∀ a ∈ (readRaws c raws).2, Unbroken a.text ∧ PyText.startsWith a.text "++" = false := by
  induction raws generalizing c with
  | nil => exact nofun
  | cons raw raws ih =>
    intro a member
    rcases List.mem_append.mp member with here | later
    · exact readRaw_text (unbroken raw List.mem_cons_self) a here
    · exact ih (fun other inside => unbroken other (List.mem_cons_of_mem _ inside)) a later

theorem parse_text (diffText : String) :
    ∀ a ∈ parseAddedLines diffText, Unbroken a.text ∧ PyText.startsWith a.text "++" = false :=
  readRaws_text (fun _ member => splitlines_unbroken member)

theorem mem_addedFrom {path : String} {n : Nat} {body : List BodyLine} {l : BodyLine} (member : l ∈ body)
    (kind : l.kind = .added) : ∃ m, ⟨path, m, l.text⟩ ∈ addedFrom path n body := by
  induction body generalizing n with
  | nil => cases member
  | cons first body ih =>
    rcases List.mem_cons.mp member with rfl | later
    · exact ⟨n, by simp [addedFrom, kind]⟩
    · cases kind' : first.kind with
      | context =>
        obtain ⟨m, inside⟩ := ih (n := n + 1) later
        exact ⟨m, by simpa [addedFrom, kind'] using inside⟩
      | removed =>
        obtain ⟨m, inside⟩ := ih (n := n) later
        exact ⟨m, by simpa [addedFrom, kind'] using inside⟩
      | added =>
        obtain ⟨m, inside⟩ := ih (n := n + 1) later
        exact ⟨m, by simp [addedFrom, kind', inside]⟩

theorem mem_added {d : Diff} {s : Section} {h : Hunk} {l : BodyLine} (first : s ∈ d) (second : h ∈ s.hunks)
    (third : l ∈ h.body) (kind : l.kind = .added) : ∃ m, ⟨s.path, m, l.text⟩ ∈ added d := by
  obtain ⟨m, inside⟩ := @mem_addedFrom s.path h.newStart h.body l third kind
  exact ⟨m, List.mem_flatMap.mpr ⟨s, first, List.mem_flatMap.mpr ⟨h, second, inside⟩⟩⟩

/-- The texts of the added lines can be read: none has a line boundary in it, and none begins with `++`. -/
def AddedPlain (d : Diff) : Prop := ∀ s ∈ d, ∀ h ∈ s.hunks, ∀ l ∈ h.body, l.kind = .added →
  Unbroken l.text ∧ PyText.startsWith l.text "++" = false

theorem addedPlain_of_exact {d : Diff} (exact : parseAddedLines (text d) = added d) : AddedPlain d := by
  intro s first h second l third kind
  obtain ⟨m, inside⟩ := mem_added first second third kind
  exact parse_text (text d) _ (exact ▸ inside)

theorem parses_exactly_iff {d : Diff} (unbroken : LinesUnbroken d) :
    parseAddedLines (text d) = added d ↔ UnheadedDiff d ∧ ∀ s ∈ d, SectionClear s := by
  constructor
  · intro exact
    have unheaded : UnheadedDiff d :=
      fun s first h second l third kind => (addedPlain_of_exact exact s first h second l third kind).2
    rw [parse_unbroken unbroken unheaded, added, flatMap_eq_iff (fun s _ => sectionRead_length s)] at exact
    exact ⟨unheaded, fun s member => (sectionRead_iff s).mp (exact s member)⟩
  · rintro ⟨unheaded, clear⟩
    rw [parse_unbroken unbroken unheaded, added, flatMap_eq_iff (fun s _ => sectionRead_length s)]
    exact fun s member => (sectionRead_iff s).mpr (clear s member)

/-! The verdict. -/

theorem mem_added_file {d : Diff} {a : AddedLine} (member : a ∈ added d) : a.file ≠ "" := by
  obtain ⟨s, -, inside⟩ := List.mem_flatMap.mp member
  obtain ⟨h, -, here⟩ := List.mem_flatMap.mp inside
  have file : ∀ (n : Nat) (body : List BodyLine), a ∈ addedFrom s.path n body → a.file = s.path := by
    intro n body
    induction body generalizing n with
    | nil => exact nofun
    | cons l body ih =>
      intro found
      simp only [addedFrom] at found
      split at found
      · exact ih _ found
      · exact ih _ found
      · rcases List.mem_cons.mp found with rfl | later
        · rfl
        · exact ih _ later
  rw [file _ _ here]
  exact s.named

section

variable [ToolBroker.WordChars] [Lowercase] [Regex.Engine]

/-- What a verdict says of a line. -/
structure Lawful (o : Options) (a : AddedLine) : Prop where
  banned : ∀ pattern ∈ defaultBanned ++ o.bannedPatterns, holdsBanned pattern a = false
  secret : ∀ entry ∈ secretPatterns, holdsSecret entry.2.2 a = false
  covered : ∀ coverage, o.coverage = some coverage → isCoverable a.text = true → isCovered coverage a = true

theorem lawful_of_ok {diffText : String} {o : Options} (ok : (verifyDiff diffText o).ok = true) :
    ∀ a ∈ parseAddedLines diffText, a.file ≠ "" → Lawful o a := by
  intro a member inFile
  simp only [verifyDiff, List.all_append, Bool.and_eq_true, checkLawful, List.all_cons, List.all_nil, Bool.and_true,
    hitsFinding, List.isEmpty_iff] at ok
  obtain ⟨⟨-, coverage⟩, banned, secret⟩ := ok
  refine ⟨fun pattern listed => ?_, fun entry listed => ?_, fun table enforced coverable => ?_⟩
  · rw [Bool.eq_false_iff]
    intro held
    have none := List.flatMap_eq_nil_iff.mp banned a member
    rw [List.map_eq_nil_iff, List.filter_eq_nil_iff] at none
    exact none pattern listed held
  · rw [Bool.eq_false_iff]
    intro held
    have none := List.flatMap_eq_nil_iff.mp secret a member
    rw [List.map_eq_nil_iff, List.filter_eq_nil_iff] at none
    exact none entry listed held
  · simp only [checkCoverage, enforced] at coverage
    split at coverage
    · rename_i nothing
      have none := List.filter_eq_nil_iff.mp nothing a member
      simpa [inFile, coverable] using none
    · cases coverage

/-- The verification reads every added line, and what it says of the lines that it reads it says of all. -/
structure Reads (d : Diff) : Prop where
  parsed : parseAddedLines (text d) = added d
  verdict : ∀ o, (verifyDiff (text d) o).ok = true → ∀ a ∈ added d, Lawful o a

theorem reads_of_exact {d : Diff} (parsed : parseAddedLines (text d) = added d) : Reads d := by
  refine ⟨parsed, fun o ok a member => ?_⟩
  exact lawful_of_ok ok a (parsed ▸ member) (mem_added_file member)

/-- Diffs that are read as git writes them. -/
structure Clear (d : Diff) : Prop where
  unbroken : LinesUnbroken d
  unheaded : UnheadedDiff d
  sections : ∀ s ∈ d, SectionClear s

theorem reads_clear (d : Diff) :
    (Clear d → Reads d) ∧ (Reads d → AddedPlain d) ∧ (LinesUnbroken d → (Reads d ↔ Clear d)) := by
  refine ⟨fun clear => ?_, fun reads => addedPlain_of_exact reads.parsed, fun unbroken => ⟨fun reads => ?_, fun clear => ?_⟩⟩
  · exact reads_of_exact ((parses_exactly_iff clear.unbroken).mpr ⟨clear.unheaded, clear.sections⟩)
  · obtain ⟨unheaded, sections⟩ := (parses_exactly_iff unbroken).mp reads.parsed
    exact ⟨unbroken, unheaded, sections⟩
  · exact reads_of_exact ((parses_exactly_iff unbroken).mpr ⟨clear.unheaded, clear.sections⟩)

end

section

attribute [local instance] ToolBroker.WordChars.ascii Lowercase.ascii

/-- No text holds a match. -/
@[reducible] def matchless : Regex.Engine := ⟨fun _ => true, fun _ _ _ => false⟩

attribute [local instance] matchless

def line (kind : Kind) (text : String) (single : '\n' ∉ text.toList) : BodyLine := ⟨kind, text, true, single⟩

/-- A diff of one file with one hunk at its first line. -/
def oneHunk (body : List BodyLine) : Diff := [{
  preamble := ["diff --git a/a.py b/a.py"]
  plain := by decide
  oldName := "a/a.py"
  newName := "b/a.py"
  path := "a.py"
  named := by decide
  hunks := [⟨1, 1, "", body, fun _ => Nat.one_pos⟩] }]

def assignment : Diff := oneHunk [line .context "y = 0" (by decide), line .removed "x = 1" (by decide),
  line .added "x = 2" (by decide)]

theorem reads_clear_assignment : Clear assignment ∧ Reads assignment := by
  have clear : Clear assignment := by
    refine ⟨by decide, ?_, ?_⟩
    · rintro s first h second l third -
      obtain rfl := List.mem_singleton.mp first
      obtain rfl := List.mem_singleton.mp second
      revert l
      decide
    · intro s first
      obtain rfl := List.mem_singleton.mp first
      refine ⟨fun h second => ?_, fun h second _ => by decide⟩
      obtain rfl := List.mem_singleton.mp second
      unfold Unmarked
      decide
  exact ⟨clear, (reads_clear assignment).1 clear⟩

/-- A line that begins with `++` behind another one. -/
def headed : Diff := oneHunk [line .added "x = 1" (by decide), line .added "++ DO NOT COMMIT" (by decide)]

def noOptions : Options := ⟨none, [], [], [], none⟩

/-- It is taken for the name of a file, and the diff passes. -/
theorem headed_missed :
    added headed = [⟨"a.py", 1, "x = 1"⟩, ⟨"a.py", 2, "++ DO NOT COMMIT"⟩] ∧
      parseAddedLines (text headed) = [⟨"a.py", 1, "x = 1"⟩] ∧ (verifyDiff (text headed) noOptions).ok = true ∧
      holdsBanned "DO NOT COMMIT" ⟨"a.py", 2, "++ DO NOT COMMIT"⟩ = true ∧ ¬ Reads headed := by
  refine ⟨by decide, by decide, by decide, by decide, fun reads => ?_⟩
  exact absurd reads.parsed (by decide)

end

end Onmc.VerifyDiff
