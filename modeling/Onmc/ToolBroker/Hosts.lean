import Onmc.ToolBroker.Models

/-! Hosts in canonical form: a canonical host, and the host of a network rule, are kept by their own
normalization. -/
namespace Onmc.ToolBroker

open Onmc.Runtime (Checked check check_ok)

/-- A host text that `canonical_host` passes on to the libraries as it is. -/
structure Plain (text : String) : Prop where
  clean : clean text = true
  dots : rstripDots text = text
  bare : ["://", "@", "/", "\\", "*"].all (fun part => !PyText.contains text part) = true

/-- What the documentation of the libraries promises about the texts they write. -/
class LawfulPlatform [Platform] : Prop where
  resolve_resolve : ∀ path, Platform.resolve (Platform.resolve path) = Platform.resolve path
  resolve_nul : ∀ path, hasNul path = false → hasNul (Platform.resolve path) = false
  /-- The compressed form of an address is the text of an address, compressed already. -/
  compressed : ∀ text address, Plain text → Platform.ipAddress text = some address →
    Plain (Platform.compressed address) ∧ ∃ again,
      Platform.ipAddress (Platform.compressed address) = some again ∧
        Platform.compressed again = Platform.compressed address
  /-- An encoded name is encoded already. -/
  idna : ∀ text name, Platform.idna text = some name → Platform.idna name = some name
  /-- An address written with letters, digits and hyphens between dots is compressed already. -/
  dotted : ∀ name address, (name.toList.splitOn '.').all labelOk = true →
    Platform.ipAddress name = some address → Platform.compressed address = name
  /-- The text of a network is the text of the same network. -/
  withPrefixlen : ∀ text network, Platform.ipNetwork text = some network →
    (clean (Platform.withPrefixlen network) = true ∧
      rstripDots (Platform.withPrefixlen network) = Platform.withPrefixlen network ∧
      isPattern (Platform.withPrefixlen network) = false) ∧
    ∃ again, Platform.ipNetwork (Platform.withPrefixlen network) = some again ∧
      Platform.withPrefixlen again = Platform.withPrefixlen network ∧
      ∀ address, Platform.isIn address again = Platform.isIn address network

theorem rstripDots_self {text : String} (h : text.toList.getLast? ≠ some '.') : rstripDots text = text := by
  unfold rstripDots
  cases hr : text.toList.reverse with
  | nil =>
    have empty : text.toList = [] := List.reverse_eq_nil_iff.mp hr
    rw [List.dropWhile_nil, List.reverse_nil, ← empty, String.ofList_toList]
  | cons c cs =>
    have last : text.toList.getLast? = some c := by
      rw [← List.head?_reverse, hr, List.head?_cons]
    have other : ¬ c = '.' := by
      rintro rfl
      exact h last
    rw [List.dropWhile_cons_of_neg (by simpa using other), ← hr, List.reverse_reverse, String.ofList_toList]

/-- The characters of a name whose labels are well formed. -/
theorem mem_of_labelOk {name : String} (labels : (name.toList.splitOn '.').all labelOk = true) :
    ∀ c ∈ name.toList, c.isAlphanum = true ∨ c = '-' ∨ c = '.' := by
  intro c hc
  have whole : ['.'].intercalate (name.toList.splitOn '.') = name.toList := List.intercalate_splitOn '.'
  rw [← whole] at hc
  simp only [List.all_eq_true] at labels
  generalize name.toList.splitOn '.' = pieces at hc labels
  induction pieces with
  | nil => simp at hc
  | cons piece pieces ih =>
    have first : ∀ c ∈ piece, c.isAlphanum = true ∨ c = '-' := by
      have ok := labels piece List.mem_cons_self
      simp only [labelOk, Bool.and_eq_true, List.all_eq_true, Bool.or_eq_true, decide_eq_true_eq] at ok
      exact ok.2
    cases pieces with
    | nil =>
      rw [List.intercalate_singleton] at hc
      rcases first c hc with h | h
      · exact .inl h
      · exact .inr (.inl h)
    | cons other pieces =>
      rw [List.intercalate_cons_cons] at hc
      simp only [List.mem_append, List.mem_singleton] at hc
      rcases hc with (hc | hc) | hc
      · rcases first c hc with h | h
        · exact .inl h
        · exact .inr (.inl h)
      · exact .inr (.inr hc)
      · exact ih hc fun label hl => labels label (List.mem_cons_of_mem _ hl)

theorem contains_mem {text needle : String} (h : PyText.contains text needle = true) :
    ∀ c ∈ needle.toList, c ∈ text.toList := by
  simp only [PyText.contains, List.any_eq_true, List.mem_tails, List.isPrefixOf_iff_prefix] at h
  obtain ⟨rest, suffix, start⟩ := h
  exact fun c hc => suffix.subset (start.subset hc)

theorem getLast_of_labelOk {name : String} (labels : (name.toList.splitOn '.').all labelOk = true) :
    name.toList.getLast? ≠ some '.' := by
  intro last
  obtain ⟨front, split⟩ := List.getLast?_eq_some_iff.mp last
  rw [split, List.splitOn_append_cons_self, List.splitOn_nil] at labels
  simp [labelOk] at labels

theorem plain_of_labelOk {name : String} (labels : (name.toList.splitOn '.').all labelOk = true) :
    Plain name := by
  have chars := mem_of_labelOk labels
  have absent {c : Char} (word : c.isAlphanum = false) (hyphen : c ≠ '-') (dot : c ≠ '.') : c ∉ name.toList := by
    intro hc
    rcases chars c hc with h | h | h
    · rw [word] at h
      cases h
    · exact hyphen h
    · exact dot h
  constructor
  · have present : name ≠ "" := by
      rintro rfl
      revert labels
      decide
    have nul : hasNul name = false := by
      simpa [hasNul] using @absent '\x00' (by decide) (by decide) (by decide)
    simp [clean, present, nul]
  · exact rstripDots_self (getLast_of_labelOk labels)
  · have free {part : String} (c : Char) (inside : c ∈ part.toList) (word : c.isAlphanum = false)
        (hyphen : c ≠ '-') (dot : c ≠ '.') : PyText.contains name part = false := by
      cases found : PyText.contains name part with
      | false => rfl
      | true => exact absurd (contains_mem found c inside) (absent word hyphen dot)
    simp only [List.all_cons, List.all_nil,
      @free "://" '/' (by decide) (by decide) (by decide) (by decide),
      @free "@" '@' (by decide) (by decide) (by decide) (by decide),
      @free "/" '/' (by decide) (by decide) (by decide) (by decide),
      @free "\\" '\\' (by decide) (by decide) (by decide) (by decide),
      @free "*" '*' (by decide) (by decide) (by decide) (by decide)]
    rfl

theorem rstripDots_subset {text : String} {c : Char} (h : c ∈ (rstripDots text).toList) : c ∈ text.toList := by
  simp only [rstripDots, String.toList_ofList, List.mem_reverse] at h
  exact List.mem_reverse.mp ((List.dropWhile_suffix _).subset h)

theorem getLast_rstripDots (text : String) : (rstripDots text).toList.getLast? ≠ some '.' := by
  intro last
  simp only [rstripDots, String.toList_ofList, List.getLast?_reverse] at last
  have head := List.head?_dropWhile_not (· = '.') text.toList.reverse
  rw [last] at head
  simp at head

theorem rstripDots_idem (text : String) : rstripDots (rstripDots text) = rstripDots text :=
  rstripDots_self (getLast_rstripDots text)

theorem isPattern_star (suffix : String) : isPattern ("*." ++ suffix) = true ∧ afterStar ("*." ++ suffix) = suffix := by
  constructor
  · simp [isPattern, PyText.startsWith]
  · simp [afterStar]

theorem isPattern_plain {text : String} (plain : Plain text) : isPattern text = false := by
  cases found : isPattern text with
  | false => rfl
  | true =>
    have star : PyText.contains text "*" = true := by
      simp only [PyText.contains, List.any_eq_true, List.mem_tails, List.isPrefixOf_iff_prefix]
      refine ⟨text.toList, List.suffix_refl _, ?_⟩
      have start : "*.".toList <+: text.toList := List.isPrefixOf_iff_prefix.mp found
      exact List.IsPrefix.trans ⟨['.'], rfl⟩ start
    have bare := plain.bare
    simp [star] at bare

section Canonical

variable [Platform]

/-- What `canonical_host` computes for a text the checks leave as it is. -/
theorem canonicalHost_plain {text : String} (plain : Plain text) :
    canonicalHost text = match Platform.ipAddress text with
      | some address => .ok (Platform.compressed address)
      | none => canonicalName text := by
  have solid : text ≠ "" := by
    rintro rfl
    exact absurd plain.clean (by decide)
  have first : nonempty text "host" = .ok () := check_ok.mpr plain.clean
  simp only [canonicalHost, first, Except.ok_bind, plain.dots,
    check_ok.mpr (show text ≠ "" ∧ _ from ⟨solid, plain.bare⟩)]
  rfl

/-- A canonical host comes from a text the checks leave as it is. -/
theorem canonicalHost_ok {host canonical : String} (h : canonicalHost host = .ok canonical) :
    Plain (rstripDots host) ∧ canonicalHost (rstripDots host) = .ok canonical := by
  have given := h
  obtain ⟨_, first, h⟩ := Except.bind_ok.mp h
  obtain ⟨_, bare, h⟩ := Except.bind_ok.mp h
  have solid := check_ok.mp bare
  have plain : Plain (rstripDots host) := by
    constructor
    · have given := check_ok.mp first
      simp only [clean, hasNul, Bool.and_eq_true, decide_eq_true_eq, Bool.not_eq_true',
        List.contains_eq_mem, decide_eq_false_iff_not] at given ⊢
      exact ⟨solid.1, fun nul => given.2 (rstripDots_subset nul)⟩
    · exact rstripDots_idem host
    · exact solid.2
  refine ⟨plain, ?_⟩
  rw [canonicalHost_plain plain]
  exact h

theorem canonicalRuleHost_eq (given : String) : NetworkRule.canonicalRuleHost given = (do
    nonempty given "host rule"
    if isPattern (rstripDots given) then do
      let suffix ← canonicalHost (afterStar (rstripDots given))
      return "*." ++ suffix
    else
      match Platform.ipNetwork (rstripDots given) with
      | none => canonicalHost (rstripDots given)
      | some network => return Platform.withPrefixlen network) := by
  unfold NetworkRule.canonicalRuleHost
  rfl

variable [LawfulPlatform]

/-- A canonical host is its own canonical form. -/
theorem canonicalHost_canonical {host canonical : String} (h : canonicalHost host = .ok canonical) :
    Plain canonical ∧ canonicalHost canonical = .ok canonical := by
  obtain ⟨plain, h⟩ := canonicalHost_ok h
  rw [canonicalHost_plain plain] at h
  cases found : Platform.ipAddress (rstripDots host) with
  | some address =>
    rw [found] at h
    cases h
    obtain ⟨plainAgain, again, read, same⟩ := LawfulPlatform.compressed _ address plain found
    refine ⟨plainAgain, ?_⟩
    rw [canonicalHost_plain plainAgain, read]
    exact congrArg Except.ok same
  | none =>
    rw [found] at h
    unfold canonicalName at h
    cases encoded : Platform.idna (rstripDots host) with
    | none =>
      rw [encoded] at h
      cases h
    | some name =>
      rw [encoded] at h
      obtain ⟨_, labels, h⟩ := Except.bind_ok.mp h
      cases h
      have labels := check_ok.mp labels
      have plainName := plain_of_labelOk labels
      refine ⟨plainName, ?_⟩
      rw [canonicalHost_plain plainName]
      cases again : Platform.ipAddress canonical with
      | some address => exact congrArg Except.ok (LawfulPlatform.dotted canonical address labels again)
      | none =>
        simp only [canonicalName, LawfulPlatform.idna _ _ encoded, check_ok.mpr labels, Except.ok_bind]
        rfl

/-- A rule with this host matches what a rule with the other matches. -/
def SameHost (host other : String) : Prop :=
  ∀ ports candidate, NetworkRule.hostMatches ⟨host, ports⟩ candidate = NetworkRule.hostMatches ⟨other, ports⟩ candidate

/-- The host of a constructed rule can be constructed again, and matches the same hosts. -/
theorem canonicalRuleHost_again {given host : String} (h : NetworkRule.canonicalRuleHost given = .ok host) :
    ∃ again, NetworkRule.canonicalRuleHost host = .ok again ∧ SameHost again host := by
  rw [canonicalRuleHost_eq] at h
  obtain ⟨_, _, h⟩ := Except.bind_ok.mp h
  split at h
  · obtain ⟨suffix, canonical, h⟩ := Except.bind_ok.mp h
    cases h
    obtain ⟨plain, again⟩ := canonicalHost_canonical canonical
    obtain ⟨pattern, after⟩ := isPattern_star suffix
    have clean : nonempty ("*." ++ suffix) "host rule" = .ok () := by
      have solid := plain.clean
      apply check_ok.mpr
      simp [ToolBroker.clean, hasNul] at solid ⊢
      exact solid.2
    have dots : rstripDots ("*." ++ suffix) = "*." ++ suffix := by
      have last := getLast_rstripDots suffix
      rw [plain.dots] at last
      have solid : suffix.toList ≠ [] := by
        intro empty
        have blank : suffix = "" := String.toList_eq_nil_iff.mp empty
        exact absurd (blank ▸ plain.clean) (by decide)
      apply rstripDots_self
      rw [String.toList_append, List.getLast?_append_of_ne_nil _ solid]
      exact last
    refine ⟨"*." ++ suffix, ?_, fun _ _ => rfl⟩
    rw [canonicalRuleHost_eq, clean, Except.ok_bind, dots, if_pos pattern, after, again]
    rfl
  · rename_i single
    split at h
    · obtain ⟨plain, again⟩ := canonicalHost_canonical h
      have clean : nonempty host "host rule" = .ok () := check_ok.mpr plain.clean
      have single : ¬ isPattern host = true := by simp [isPattern_plain plain]
      cases found : Platform.ipNetwork host with
      | none =>
        refine ⟨host, ?_, fun _ _ => rfl⟩
        rw [canonicalRuleHost_eq, clean, Except.ok_bind, plain.dots, if_neg single, found]
        exact again
      | some network =>
        obtain ⟨⟨_, _, plainNetwork⟩, again, read, same, isIn⟩ := LawfulPlatform.withPrefixlen host network found
        refine ⟨Platform.withPrefixlen network, ?_, ?_⟩
        · rw [canonicalRuleHost_eq, clean, Except.ok_bind, plain.dots, if_neg single, found]
          rfl
        · intro ports candidate
          simp only [NetworkRule.hostMatches, plainNetwork, isPattern_plain plain, read, found, isIn,
            Bool.false_eq_true, if_false]
    · rename_i network found
      cases h
      obtain ⟨⟨clean, dots, plain⟩, again, read, same, _⟩ :=
        LawfulPlatform.withPrefixlen (rstripDots given) network found
      refine ⟨Platform.withPrefixlen network, ?_, fun _ _ => rfl⟩
      rw [canonicalRuleHost_eq, show nonempty _ "host rule" = .ok () from check_ok.mpr clean, Except.ok_bind,
        dots, if_neg (by simp [plain]), read]
      exact congrArg Except.ok same

end Canonical

end Onmc.ToolBroker
