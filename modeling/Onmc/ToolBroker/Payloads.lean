import Mathlib.Data.List.Infix
import Onmc.Keyed
import Onmc.ToolBroker.Provenance

/-! Redaction of audit payloads: mappings, lists and tuples of texts and other values. -/
namespace Onmc.ToolBroker.Redaction

/-- A key of a mapping: a text, or another value that can be hashed. -/
inductive Key (σ : Type) where
  | text (name : String)
  | other (value : σ)
deriving DecidableEq

inductive Payload (σ : Type) where
  | text (value : String)
  | other (value : σ)
  | list (items : List (Payload σ))
  | tuple (items : List (Payload σ))
  | mapping (items : List (Key σ × Payload σ))

variable {σ : Type}

@[elab_as_elim] theorem Payload.induct {motive : Payload σ → Prop} (text : ∀ value, motive (.text value))
    (other : ∀ value, motive (.other value)) (list : ∀ items, (∀ item ∈ items, motive item) → motive (.list items))
    (tuple : ∀ items, (∀ item ∈ items, motive item) → motive (.tuple items))
    (mapping : ∀ items, (∀ entry ∈ items, motive entry.2) → motive (.mapping items)) : ∀ payload, motive payload :=
  @Payload.rec σ motive (fun items => ∀ item ∈ items, motive item) (fun items => ∀ entry ∈ items, motive entry.2)
    (fun entry => motive entry.2) text other list tuple mapping (fun _ none => absurd none List.not_mem_nil)
    (fun _ _ first rest => List.forall_mem_cons.mpr ⟨first, rest⟩) (fun _ none => absurd none List.not_mem_nil)
    (fun _ _ first rest => List.forall_mem_cons.mpr ⟨first, rest⟩) (fun _ _ item => item)

/-- Every text in a payload, the keys of its mappings among them. -/
def Key.texts : Key σ → List String
  | .text name => [name]
  | .other _ => []

mutual
def Payload.texts : Payload σ → List String
  | .text value => [value]
  | .other _ => []
  | .list items => textsOfItems items
  | .tuple items => textsOfItems items
  | .mapping items => textsOfEntries items
def textsOfItems : List (Payload σ) → List String
  | [] => []
  | item :: items => item.texts ++ textsOfItems items
def textsOfEntries : List (Key σ × Payload σ) → List String
  | [] => []
  | (key, item) :: items => key.texts ++ item.texts ++ textsOfEntries items
end

theorem mem_textsOfItems {items : List (Payload σ)} {text : String} :
    text ∈ textsOfItems items ↔ ∃ item ∈ items, text ∈ item.texts := by
  induction items with
  | nil => simp [textsOfItems]
  | cons item items ih => simp [textsOfItems, ih]

theorem mem_textsOfEntries {items : List (Key σ × Payload σ)} {text : String} :
    text ∈ textsOfEntries items ↔ ∃ entry ∈ items, text ∈ entry.1.texts ∨ text ∈ entry.2.texts := by
  induction items with
  | nil => simp [textsOfEntries]
  | cons entry items ih => simp [textsOfEntries, ih, or_assoc]

/-- `_SENSITIVE_KEYS` -/
def sensitiveKeys : List String :=
  ["auth", "authorization", "cookie", "cookies", "credential", "credentials", "session", "sessionid"]

/-- `_SENSITIVE_SUFFIXES` -/
def sensitiveSuffixes : List String :=
  ["apikey", "credential", "password", "passwd", "privatekey", "secret", "token"]

/-- `re.sub(r"(?<=[a-z0-9])(?=[A-Z])", "_", key)` -/
def separated : List Char → List Char
  | a :: b :: rest =>
    if (a.isLower || a.isDigit) && b.isUpper then a :: '_' :: separated (b :: rest) else a :: separated (b :: rest)
  | text => text

/-- `re.sub(r"[^a-z0-9]", "", text.lower())` -/
def plain [Lowercase] (text : List Char) : List Char :=
  (Lowercase.lower (String.ofList text)).toList.filter (fun c => c.isLower || c.isDigit)

/-- `_is_secret_key` -/
def isSecretKey [Lowercase] (key : String) : Bool :=
  let normalized := plain (separated key.toList)
  sensitiveKeys.any (fun name => name.toList = normalized) ||
    sensitiveSuffixes.any (fun ending => ending.toList.isSuffixOf normalized)

def Key.isSecret [Lowercase] : Key σ → Bool
  | .text name => isSecretKey name
  | .other _ => false

/-! A key that names no secret does not name one once it is redacted. -/

/-- `str.lower` as far as `_is_secret_key` goes: a letter becomes the same ASCII letters wherever it stands. -/
class LawfulLowercase [Lowercase] : Prop where
  append : ∀ first second, plain (first ++ second) = plain first ++ plain second
  ascii : ∀ text : String, (∀ c ∈ text.toList, c.toNat < 128) →
    Lowercase.lower text = String.ofList (text.toList.map Char.toLower)

theorem lawfulLowercase_ascii : @LawfulLowercase Lowercase.ascii := by
  have lower : ∀ text, @Lowercase.lower Lowercase.ascii text = String.ofList (text.toList.map Char.toLower) :=
    fun _ => rfl
  refine @LawfulLowercase.mk Lowercase.ascii (fun first second => ?_) (fun text _ => lower text)
  simp only [plain, lower, String.toList_ofList, List.map_append, List.filter_append]

/-- The endings of secret names, cut before their end, do not end as the marker does. -/
theorem endings_apart : sensitiveSuffixes.all (fun ending => ending.toList.inits.all (fun part =>
    part = [] || !("redacted".toList.isSuffixOf part || part.isSuffixOf "redacted".toList))) = true := by
  decide +kernel

theorem sensitiveKeys_apart : ∀ name ∈ sensitiveKeys, ¬"redacted".toList <:+: name.toList := by
  decide +kernel

/-- Nothing that ends before the end of the marker completes the name of a secret. -/
theorem suffix_after {ending : String} {before after : List Char} (known : ending ∈ sensitiveSuffixes)
    (found : ending.toList <:+ before ++ "redacted".toList ++ after) : ending.toList <:+ after := by
  rcases List.suffix_or_suffix_of_suffix found (List.suffix_append _ after) with inside | ⟨part, whole⟩
  · exact inside
  · by_cases empty : part = []
    · rw [← whole, empty]
      exact List.suffix_refl after
    · have ends : part <:+ before ++ "redacted".toList := by
        obtain ⟨front, joined⟩ := found
        rw [← whole, ← List.append_assoc] at joined
        exact ⟨front, List.append_cancel_right joined⟩
      have among : part ∈ ending.toList.inits := (List.mem_inits _ _).mpr ⟨after, whole⟩
      have apart := List.all_eq_true.mp (List.all_eq_true.mp endings_apart ending known) part among
      simp only [Bool.or_eq_true, decide_eq_true_eq, empty, false_or, Bool.not_eq_true', Bool.or_eq_false_iff] at apart
      rcases List.suffix_or_suffix_of_suffix ends (List.suffix_append before "redacted".toList) with short | long
      · exact absurd (List.isSuffixOf_iff_suffix.mpr short) (by rw [apart.2]; exact Bool.false_ne_true)
      · exact absurd (List.isSuffixOf_iff_suffix.mpr long) (by rw [apart.1]; exact Bool.false_ne_true)

section Keys

variable [Lowercase] [LawfulLowercase]

theorem plain_ascii {text : List Char} (ascii : text.all (fun c => c.toNat < 128) = true) :
    plain text = (text.map Char.toLower).filter (fun c => c.isLower || c.isDigit) := by
  rw [plain, LawfulLowercase.ascii, String.toList_ofList, String.toList_ofList]
  intro c member
  rw [String.toList_ofList] at member
  exact of_decide_eq_true (List.all_eq_true.mp ascii c member)

theorem plain_cons (c : Char) (rest : List Char) : plain (c :: rest) = plain [c] ++ plain rest := by
  rw [← LawfulLowercase.append, List.singleton_append]

theorem plain_separated (text : List Char) : plain (separated text) = plain text := by
  induction text using separated.induct with
  | case1 a b rest here ih =>
    have mark : plain ['_'] = [] := plain_ascii (by decide)
    rw [separated, if_pos here, plain_cons, plain_cons '_', mark, List.nil_append, ih, ← plain_cons]
  | case2 a b rest here ih =>
    rw [separated, if_neg here, plain_cons, ih, ← plain_cons]
  | case3 text short =>
    rw [separated]
    exact short

theorem isSecretKey_iff (key : String) : isSecretKey key = true ↔ (∃ name ∈ sensitiveKeys, name.toList = plain key.toList) ∨
    ∃ ending ∈ sensitiveSuffixes, ending.toList <:+ plain key.toList := by
  simp only [isSecretKey, plain_separated, Bool.or_eq_true, List.any_eq_true, decide_eq_true_eq,
    List.isSuffixOf_iff_suffix]

/-- A key that goes on after its last marker as a key that names no secret names none. -/
theorem isSecretKey_of_continues {key shown : String} (continues : Continues key.toList shown.toList)
    (secret : isSecretKey shown = true) : isSecretKey key = true := by
  have marker : plain redacted = "redacted".toList := plain_ascii (by decide)
  rcases continues with same | ⟨before, after, joined, front, whole⟩
  · rwa [← String.toList_inj.mp same]
  · have parts : plain shown.toList = plain before ++ "redacted".toList ++ plain after := by
      rw [joined, LawfulLowercase.append, LawfulLowercase.append, marker]
    rw [isSecretKey_iff, parts] at secret
    rcases secret with ⟨name, known, same⟩ | ⟨ending, known, found⟩
    · exact absurd ⟨plain before, plain after, same.symm⟩ (sensitiveKeys_apart name known)
    · refine (isSecretKey_iff key).mpr (.inr ⟨ending, known, ?_⟩)
      rw [← whole, LawfulLowercase.append]
      exact (suffix_after known found).trans (List.suffix_append _ _)

end Keys

section Redact

variable [WordChars]

def Key.clean (secretValues : List String) : Key σ → Key σ
  | .text name => .text (redactSecrets secretValues name)
  | .other value => .other value

variable [Lowercase] [DecidableEq σ]

mutual
/-- `_redact`, but for sets. -/
def redact (secretValues : List String) : Payload σ → Payload σ
  | .mapping items => .mapping (Keyed.build (redactEntries secretValues items))
  | .tuple items => .tuple (redactItems secretValues items)
  | .list items => .list (redactItems secretValues items)
  | .text value => .text (redactSecrets secretValues value)
  | .other value => .other value
def redactItems (secretValues : List String) : List (Payload σ) → List (Payload σ)
  | [] => []
  | item :: items => redact secretValues item :: redactItems secretValues items
def redactEntries (secretValues : List String) : List (Key σ × Payload σ) → List (Key σ × Payload σ)
  | [] => []
  | (key, item) :: items =>
    (key.clean secretValues, if key.isSecret then .text (String.ofList redacted) else redact secretValues item) ::
      redactEntries secretValues items
end

theorem redactItems_eq (secretValues : List String) (items : List (Payload σ)) :
    redactItems secretValues items = items.map (redact secretValues) := by
  induction items with
  | nil => rfl
  | cons item items ih => rw [redactItems, ih, List.map_cons]

/-- What an entry of a mapping becomes. -/
def redactEntry (secretValues : List String) (entry : Key σ × Payload σ) : Key σ × Payload σ :=
  (entry.1.clean secretValues,
    if entry.1.isSecret then .text (String.ofList redacted) else redact secretValues entry.2)

theorem redactEntries_eq (secretValues : List String) (items : List (Key σ × Payload σ)) :
    redactEntries secretValues items = items.map (redactEntry secretValues) := by
  induction items with
  | nil => rfl
  | cons entry items ih => rw [redactEntries, ih, List.map_cons, redactEntry]

/-- A text of the redacted payload is the marker, or what is left of a text of the payload. -/
theorem texts_redact (secretValues : List String) (payload : Payload σ) :
    ∀ shown ∈ (redact secretValues payload).texts, shown = String.ofList redacted ∨
      ∃ value ∈ payload.texts, shown = redactSecrets secretValues value := by
  have items : ∀ items : List (Payload σ), (∀ item ∈ items, ∀ shown ∈ (redact secretValues item).texts,
      shown = String.ofList redacted ∨ ∃ value ∈ item.texts, shown = redactSecrets secretValues value) →
      ∀ shown ∈ textsOfItems (redactItems secretValues items), shown = String.ofList redacted ∨
        ∃ value ∈ textsOfItems items, shown = redactSecrets secretValues value := by
    intro items ih shown member
    rw [redactItems_eq, mem_textsOfItems] at member
    obtain ⟨_, made, among⟩ := member
    obtain ⟨item, held, rfl⟩ := List.mem_map.mp made
    rcases ih item held shown among with marker | ⟨value, own, same⟩
    · exact .inl marker
    · exact .inr ⟨value, mem_textsOfItems.mpr ⟨item, held, own⟩, same⟩
  induction payload using Payload.induct with
  | text value =>
    intro shown member
    exact .inr ⟨value, List.mem_singleton_self value, List.mem_singleton.mp (by simpa [redact, Payload.texts] using member)⟩
  | other value =>
    intro shown member
    simp [redact, Payload.texts] at member
  | list held ih =>
    simp only [redact, Payload.texts]
    exact items held ih
  | tuple held ih =>
    simp only [redact, Payload.texts]
    exact items held ih
  | mapping held ih =>
    intro shown member
    simp only [redact, Payload.texts, mem_textsOfEntries] at member ⊢
    obtain ⟨entry, made, among⟩ := member
    obtain ⟨before, after, whole, -⟩ := Keyed.mem_build made
    have entered : entry ∈ redactEntries secretValues held := whole ▸ List.mem_append_right _ List.mem_cons_self
    rw [redactEntries_eq] at entered
    obtain ⟨⟨key, item⟩, stood, rfl⟩ := List.mem_map.mp entered
    rcases among with keyed | valued
    · cases key with
      | text name =>
        rw [redactEntry, Key.clean, Key.texts, List.mem_singleton] at keyed
        exact .inr ⟨name, ⟨_, stood, .inl (List.mem_singleton_self name)⟩, keyed⟩
      | other value => cases keyed
    · rw [redactEntry] at valued
      split at valued
      · rw [Payload.texts, List.mem_singleton] at valued
        exact .inl valued
      · rcases ih _ stood shown valued with marker | ⟨value, own, same⟩
        · exact .inl marker
        · exact .inr ⟨value, ⟨_, stood, .inr own⟩, same⟩

/-- What redaction makes of a payload: texts are redacted where they stand and other values stay. A mapping has
the redacted keys, in the order of the keys they come from, each with what was under the last of these, and the
marker where that key names a secret. -/
inductive Redacts (secretValues : List String) : Payload σ → Payload σ → Prop where
  | text (value : String) : Redacts secretValues (.text value) (.text (redactSecrets secretValues value))
  | other (value : σ) : Redacts secretValues (.other value) (.other value)
  | list {items outs : List (Payload σ)} : items.length = outs.length →
    (∀ pair ∈ items.zip outs, Redacts secretValues pair.1 pair.2) → Redacts secretValues (.list items) (.list outs)
  | tuple {items outs : List (Payload σ)} : items.length = outs.length →
    (∀ pair ∈ items.zip outs, Redacts secretValues pair.1 pair.2) → Redacts secretValues (.tuple items) (.tuple outs)
  | mapping {items outs : List (Key σ × Payload σ)} :
    outs.map Prod.fst = (items.map (fun entry => entry.1.clean secretValues)).eraseDups →
    (∀ before key item after out, items = before ++ (key, item) :: after →
      key.clean secretValues ∉ after.map (fun entry => entry.1.clean secretValues) →
      (key.clean secretValues, out) ∈ outs → key.isSecret = true → out = .text (String.ofList redacted)) →
    (∀ before key item after out, items = before ++ (key, item) :: after →
      key.clean secretValues ∉ after.map (fun entry => entry.1.clean secretValues) →
      (key.clean secretValues, out) ∈ outs → key.isSecret = false → Redacts secretValues item out) →
    Redacts secretValues (.mapping items) (.mapping outs)

theorem redacts_redact (secretValues : List String) (payload : Payload σ) :
    Redacts secretValues payload (redact secretValues payload) := by
  have items : ∀ items : List (Payload σ), (∀ item ∈ items, Redacts secretValues item (redact secretValues item)) →
      ∀ pair ∈ items.zip (items.map (redact secretValues)), Redacts secretValues pair.1 pair.2 := by
    intro items ih
    induction items with
    | nil => exact fun _ none => absurd none List.not_mem_nil
    | cons item items further =>
      rw [List.map_cons, List.zip_cons_cons, List.forall_mem_cons]
      exact ⟨ih item List.mem_cons_self, further fun item member => ih item (List.mem_cons_of_mem _ member)⟩
  induction payload using Payload.induct with
  | text value =>
    rw [redact]
    exact .text value
  | other value =>
    rw [redact]
    exact .other value
  | list held ih =>
    rw [redact, redactItems_eq]
    exact .list (List.length_map _).symm (items held ih)
  | tuple held ih =>
    rw [redact, redactItems_eq]
    exact .tuple (List.length_map _).symm (items held ih)
  | mapping held ih =>
    rw [redact, redactEntries_eq]
    have last : ∀ before key item after out, held = before ++ (key, item) :: after →
        key.clean secretValues ∉ after.map (fun entry => entry.1.clean secretValues) →
        (key.clean secretValues, out) ∈ Keyed.build (held.map (redactEntry secretValues)) →
        out = (redactEntry secretValues (key, item)).2 := by
      intro before key item after out whole gone member
      have made : held.map (redactEntry secretValues) = before.map (redactEntry secretValues) ++
          (key.clean secretValues, (redactEntry secretValues (key, item)).2) :: after.map (redactEntry secretValues) := by
        rw [whole, List.map_append, List.map_cons]
        rfl
      refine Keyed.value_build member made ?_
      rw [List.map_map]
      exact gone
    refine .mapping ?_ ?_ ?_
    · rw [Keyed.keys_build, List.map_map]
      rfl
    · intro before key item after out whole gone member secret
      exact (last before key item after out whole gone member).trans (if_pos secret)
    · intro before key item after out whole gone member named
      have value : (redactEntry secretValues (key, item)).2 = redact secretValues item :=
        if_neg (by rw [named]; exact Bool.false_ne_true)
      rw [last before key item after out whole gone member, value]
      exact ih _ (whole ▸ List.mem_append_right _ List.mem_cons_self)

section Again

variable [LawfulWordChars] [LawfulLowercase] {secretValues : List String}

omit [Lowercase] [DecidableEq σ] [LawfulLowercase] in
theorem Key.clean_clean (distinct : Distinct secretValues) (key : Key σ) :
    (key.clean secretValues).clean secretValues = key.clean secretValues := by
  cases key with
  | text name => exact congrArg Key.text (redactSecrets_redactSecrets distinct name)
  | other value => rfl

omit [DecidableEq σ] in
theorem Key.isSecret_clean (distinct : Distinct secretValues) {key : Key σ}
    (secret : (key.clean secretValues).isSecret = true) : key.isSecret = true := by
  cases key with
  | text name => exact isSecretKey_of_continues (continues_redactSecrets distinct name) secret
  | other value => cases secret

/-- Redacting a payload again changes nothing. -/
theorem redact_redact (distinct : Distinct secretValues) (payload : Payload σ) :
    redact secretValues (redact secretValues payload) = redact secretValues payload := by
  have items : ∀ items : List (Payload σ),
      (∀ item ∈ items, redact secretValues (redact secretValues item) = redact secretValues item) →
      redactItems secretValues (redactItems secretValues items) = redactItems secretValues items := by
    intro items ih
    rw [redactItems_eq, redactItems_eq, List.map_map]
    exact List.map_congr_left ih
  induction payload using Payload.induct with
  | text value => rw [redact, redact, redactSecrets_redactSecrets distinct]
  | other value => rw [redact, redact]
  | list held ih => rw [redact, redact, items held ih]
  | tuple held ih => rw [redact, redact, items held ih]
  | mapping held ih =>
    rw [redact, redact, redactEntries_eq, redactEntries_eq]
    have again : ∀ entry ∈ held, redactEntry secretValues (redactEntry secretValues entry) = redactEntry secretValues entry := by
      intro entry member
      have keys : (redactEntry secretValues entry).1.clean secretValues = (redactEntry secretValues entry).1 :=
        Key.clean_clean distinct entry.1
      refine Prod.ext keys ?_
      have marker : redact secretValues (.text (String.ofList redacted)) = (.text (String.ofList redacted) : Payload σ) := by
        rw [redact, redactSecrets_redacted distinct]
      by_cases secret : entry.1.isSecret = true
      · have value : (redactEntry secretValues entry).2 = .text (String.ofList redacted) := if_pos secret
        rw [redactEntry, value]
        split
        · rfl
        · exact marker
      · have value : (redactEntry secretValues entry).2 = redact secretValues entry.2 := if_neg secret
        have named : ¬(redactEntry secretValues entry).1.isSecret = true :=
          fun secret' => secret (Key.isSecret_clean distinct secret')
        rw [redactEntry, if_neg named, value]
        exact ih entry member
    have same : (Keyed.build (held.map (redactEntry secretValues))).map (redactEntry secretValues) =
        Keyed.build (held.map (redactEntry secretValues)) := by
      refine (List.map_congr_left fun entry member => ?_).trans (List.map_id _)
      obtain ⟨before, after, whole, -⟩ := Keyed.mem_build member
      have entered : entry ∈ held.map (redactEntry secretValues) := whole ▸ List.mem_append_right _ List.mem_cons_self
      obtain ⟨origin, stood, rfl⟩ := List.mem_map.mp entered
      exact again origin stood
    rw [same, Keyed.build_self (Keyed.nodup_build _)]

end Again

end Redact

section Runs

attribute [local instance] WordChars.ascii Lowercase.ascii lawfulWordChars_ascii lawfulLowercase_ascii

end Runs

end Onmc.ToolBroker.Redaction
