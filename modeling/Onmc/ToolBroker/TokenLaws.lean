import Onmc.ToolBroker.Amounts
import Onmc.ToolBroker.Hosts
import Onmc.ToolBroker.Tokens

/-! A token through its own text: what `verify` returns for a token of the authority, and that the
token is the only text that carries its signature. -/
namespace Onmc.ToolBroker

open Onmc.Runtime (Checked check check_ok Exact)

/-! The text of a token. -/

theorem fromisoformat_isoformat (t : DateTime) : fromisoformat (isoformat t) = some t := by
  have last : t.isoformat.getLast? = some 'Z' := by
    simp [DateTime.isoformat, List.getLast?_append, List.getLast?_cons]
  obtain ⟨body, written⟩ := List.getLast?_eq_some_iff.mp last
  have text : (isoformat t).toList = body ++ "+00:00".toList := by
    rw [isoformat, written, List.dropLast_concat, String.toList_ofList]
  have suffix : "+00:00".toList.isSuffixOf (body ++ "+00:00".toList) = true :=
    List.isSuffixOf_iff_suffix.mpr (List.suffix_append _ _)
  have front : (body ++ "+00:00".toList).take ((body ++ "+00:00".toList).length - 6) = body := by
    rw [List.length_append]
    exact List.take_left' (by rfl)
  rw [fromisoformat, text, if_pos suffix, front, ← written, DateTime.fromisoformat_isoformat]

theorem decode_encode {bytes : List UInt8} (solid : bytes ≠ []) : decode (Base64.encode bytes) = some bytes := by
  have letters : (Base64.encode bytes).all Base64.alphabet.contains = true := by
    simpa [List.all_eq_true] using Base64.encode_mem bytes
  have accepted : ¬ (Base64.encode bytes = [] ∨ (!(Base64.encode bytes).all Base64.alphabet.contains) = true) := by
    simp [letters, Base64.encode_ne_nil solid]
  rw [decode, if_neg accepted, Base64.decode_encode, Option.filter_some]
  simp

/-- Only the canonical text of some bytes is decoded to them. -/
theorem encode_of_decode {text : List Char} {bytes : List UInt8} (h : decode text = some bytes) :
    Base64.encode bytes = text := by
  unfold decode at h
  split at h
  · cases h
  · simpa using (Option.filter_eq_some_iff.mp h).2

theorem alphabet_ascii : ∀ c ∈ Base64.alphabet, c.toNat < 128 := by
  have all : Base64.alphabet.all (fun c => c.toNat < 128) = true := by decide
  exact fun c member => of_decide_eq_true (List.all_eq_true.mp all c member)

theorem dot_not_mem (bytes : List UInt8) : '.' ∉ Base64.encode bytes := by
  intro h
  exact absurd (Base64.encode_mem bytes '.' h) (by decide)

theorem encodeAscii_encode (bytes : List UInt8) :
    encodeAscii (Base64.encode bytes) = some ((Base64.encode bytes).map fun c => UInt8.ofNat c.toNat) := by
  apply if_pos
  simp only [List.all_eq_true, decide_eq_true_eq]
  exact fun c hc => alphabet_ascii c (Base64.encode_mem bytes c hc)

theorem decodeAscii_canonicalJsonBytes (data : Json) :
    decodeAscii (canonicalJsonBytes data) = some data.dumpsAscii := by
  have ascii : ∀ c ∈ data.dumpsAscii.toList, c.toNat < 128 := Json.dumpsAscii_ascii data
  have back : ∀ c ∈ data.dumpsAscii.toList, (UInt8.ofNat c.toNat).toNat = c.toNat := by
    intro c hc
    have small := ascii c hc
    rw [UInt8.toNat_ofNat']
    omega
  have bytes : (canonicalJsonBytes data).all (fun b => b.toNat < 128) = true := by
    simp only [canonicalJsonBytes, List.all_map, List.all_eq_true, Function.comp, decide_eq_true_eq]
    intro c hc
    rw [back c hc]
    exact ascii c hc
  have chars : (canonicalJsonBytes data).map (fun b => Char.ofNat b.toNat) = data.dumpsAscii.toList := by
    rw [canonicalJsonBytes, List.map_map]
    refine (List.map_congr_left fun c hc => ?_).trans (List.map_id _)
    simp only [Function.comp, back c hc, Char.ofNat_toNat, id]
  rw [decodeAscii, if_pos bytes, chars, String.ofList_toList]

theorem canonicalJsonBytes_length (data : Json) :
    (canonicalJsonBytes data).length = ((Json.render data.canonical).flatMap Json.asciiChar).length := by
  rw [canonicalJsonBytes, List.length_map, Json.dumpsAscii, String.toList_ofList]

theorem canonicalJsonBytes_ne_nil (data : Json) : canonicalJsonBytes data ≠ [] := by
  intro empty
  exact Json.dumpsAscii_ne_nil data (List.map_eq_nil_iff.mp empty)

namespace TokenAuthority

theorem dot_not_mem_sign (authority : TokenAuthority) (message : List UInt8) : '.' ∉ authority.sign message :=
  dot_not_mem _

theorem splitToken_joined {encoded signature : List Char} (he : '.' ∉ encoded) (hs : '.' ∉ signature) :
    splitToken (encoded ++ '.' :: signature) = some (encoded, signature) := by
  have split : (encoded ++ '.' :: signature).splitOn '.' = [encoded, signature] := by
    rw [List.splitOn_append_cons_self, List.splitOn_eq_singleton he, List.splitOn_eq_singleton hs]
    rfl
  simp only [splitToken, split]

theorem splitToken_some {token encoded signature : List Char} (h : splitToken token = some (encoded, signature)) :
    token = encoded ++ '.' :: signature := by
  unfold splitToken at h
  split at h
  · rename_i encoded' signature' split
    cases h
    have whole : ['.'].intercalate (token.splitOn '.') = token := List.intercalate_splitOn '.'
    rw [split, List.intercalate_cons_cons, List.intercalate_singleton] at whole
    rw [← whole]
    simp
  · cases h

/-- A text that carries a valid signature is its encoded part with the signature of the authority. -/
theorem authentic_sign {authority : TokenAuthority} {encoded signature : List Char}
    (h : authority.authentic encoded signature = true) :
    signature = authority.sign (encoded.map fun c => UInt8.ofNat c.toNat) := by
  unfold authentic at h
  split at h
  · rename_i message tag ascii decoded
    simp only [decide_eq_true_eq] at h
    unfold encodeAscii at ascii
    split at ascii
    · cases ascii
      rw [sign, ← h, encode_of_decode decoded]
    · cases ascii
  · cases h

theorem sign_length (authority : TokenAuthority) (message : List UInt8) :
    (authority.sign message).length = signatureLength := by
  rw [sign, Base64.encode_length, Sha256.hmac_length]
  rfl

end TokenAuthority

/-! The payload of a capability, read again. -/

theorem mapM_related {α β : Type} {write : α → Json} {read : Json → Checked β} {related : α → β → Prop}
    {items : List α} (h : ∀ a ∈ items, ∃ b, read (write a) = .ok b ∧ related a b) :
    ∃ others, items.mapM (fun a => read (write a)) = .ok others ∧ List.Forall₂ related items others := by
  induction items with
  | nil => exact ⟨[], rfl, .nil⟩
  | cons a items ih =>
    obtain ⟨b, here, first⟩ := h a List.mem_cons_self
    obtain ⟨others, later, rest⟩ := ih fun c hc => h c (List.mem_cons_of_mem _ hc)
    refine ⟨b :: others, ?_, .cons first rest⟩
    rw [List.mapM_cons, here, later]
    rfl

theorem forall₂_both {α β : Type} {p q : α → β → Prop} {items : List α} {others : List β}
    (hp : List.Forall₂ p items others) (hq : List.Forall₂ q items others) {a : α} (member : a ∈ items) :
    ∃ b, p a b ∧ q a b := by
  induction hp with
  | nil => cases member
  | cons first _ ih =>
    obtain _ | ⟨here, there⟩ := hq
    cases member with
    | head => exact ⟨_, first, here⟩
    | tail _ later => exact ih there later

theorem toOption_some {α : Type} {x : Checked α} {a : α} : x.toOption = some a ↔ x = .ok a := by
  cases x with
  | ok b => simp [Except.toOption]
  | error e => simp [Except.toOption]

@[simp] theorem readString_str (text : String) : readString (.str text) = .ok text := rfl

@[simp] theorem readInt_int (n : Int) : readInt (.num (.int n)) = .ok n := rfl

theorem mapM_pure {α ε : Type} (items : List α) : items.mapM (fun a => (.ok a : Except ε α)) = .ok items := by
  induction items with
  | nil => rfl
  | cons a items ih =>
    rw [List.mapM_cons, ih]
    rfl

theorem ofValue_value (actionType : ActionType) : ActionType.ofValue actionType.value = .ok actionType := by
  cases actionType <;> rfl

theorem mapM_same {α : Type} {write : α → Json} {read : Json → Checked α} (h : ∀ a, read (write a) = .ok a)
    (items : List α) : items.mapM (fun a => read (write a)) = .ok items := by
  induction items with
  | nil => rfl
  | cons a items ih =>
    rw [List.mapM_cons, h a, ih]
    rfl

theorem any_related {α β : Type} {p : α → Bool} {q : β → Bool} {items : List α} {others : List β}
    (h : List.Forall₂ (fun a b => q b = p a) items others) : others.any q = items.any p := by
  induction h with
  | nil => rfl
  | cons first _ ih => simp only [List.any_cons, first, ih]

theorem irrelevant_nil {allowed : List String} {present : List (String × Bool)} (h : irrelevant allowed present = []) :
    ∀ name, (name, true) ∈ present → name ∈ allowed := by
  intro name member
  by_contra foreign
  have listed : name ∈ irrelevant allowed present := by
    refine List.mem_insertionSort _ |>.mpr (List.mem_map.mpr ⟨(name, true), ?_, rfl⟩)
    exact List.mem_filter.mpr ⟨member, by simpa using foreign⟩
  rw [h] at listed
  cases listed

theorem filter_objects {α : Type} (payload : α → Json) (h : ∀ a, isObject (payload a) = true) (items : List α) :
    (items.map payload).filter isObject = items.map payload := by
  simp [List.filter_eq_self, h]

theorem build_ok {α : Type} {postInit : α → Checked α} {given value : α} (h : postInit given = .ok value) :
    build postInit given = .ok ⟨value, given, h⟩ := by
  unfold build
  split
  · rename_i a ha
    cases h.symm.trans ha
    rfl
  · rename_i e he
    cases h.symm.trans he

theorem build_value {α : Type} {postInit : α → Checked α} {given : α} {made : Made postInit}
    (h : build postInit given = .ok made) : postInit given = .ok made.value := by
  unfold build at h
  split at h
  · rename_i a ha
    cases h
    exact ha
  · cases h

theorem commandRule_again (rule : Made CommandRule.postInit) : CommandRule.postInit rule.value = .ok rule.value := by
  obtain ⟨value, given, h⟩ := rule
  obtain ⟨_, fine, same⟩ := Except.bind_ok.mp h
  cases same
  exact h

theorem get?_sorted (fields : List (String × Json)) (key : String) :
    (Json.obj fields).canonical.get? key = (fields.lookup key).map Json.canonical := by
  rw [Json.get?_canonical]
  rfl

theorem mem_sortedSet {items : List String} {text : String} : text ∈ sortedSet items ↔ text ∈ items := by
  simp [sortedSet, List.mem_insertionSort]

theorem mem_sortedPorts {ports : List Int} {port : Int} : port ∈ sortedPorts ports ↔ port ∈ ports := by
  simp [sortedPorts, List.mem_insertionSort]

theorem commandOf_payload (rule : Made CommandRule.postInit) :
    commandOf (commandPayload rule.value).canonical = .ok rule := by
  have built := build_ok (commandRule_again rule)
  simp [-Json.canonical_obj, commandOf, item, get?_sorted, commandPayload, List.lookup_cons, Onmc.Runtime.Json.strs,
    Json.canonicalItems_eq_map, Function.comp_def, mapM_pure, truthy, built]

section Reading

variable [Platform] [LawfulPlatform]

theorem pathRule_again (rule : Made PathRule.postInit) : PathRule.postInit rule.value = .ok rule.value := by
  obtain ⟨value, given, h⟩ := rule
  obtain ⟨_, nul, same⟩ := Except.bind_ok.mp h
  cases same
  have nul := LawfulPlatform.resolve_nul _ (check_ok.mp nul)
  simp only [PathRule.postInit, nul, LawfulPlatform.resolve_resolve]
  rfl

theorem pathOf_payload (rule : Made PathRule.postInit) : pathOf (pathPayload rule.value).canonical = .ok rule := by
  have built := build_ok (pathRule_again rule)
  simp [-Json.canonical_obj, pathOf, item, get?_sorted, pathPayload, List.lookup_cons, truthy, built]

theorem networkOf_payload (rule : Made NetworkRule.postInit) :
    ∃ again, networkOf (networkPayload rule.value).canonical = .ok again ∧
      ∀ host port, again.value.matches host port = rule.value.matches host port := by
  obtain ⟨value, given, h⟩ := rule
  obtain ⟨_, ports, h⟩ := Except.bind_ok.mp h
  obtain ⟨host, canonical, h⟩ := Except.bind_ok.mp h
  cases h
  obtain ⟨hostAgain, read, same⟩ := canonicalRuleHost_again canonical
  have portsAgain : (sortedPorts given.ports).all portOk = true := by
    have fine := check_ok.mp ports
    simp only [List.all_eq_true, mem_sortedPorts] at fine ⊢
    exact fine
  have built : NetworkRule.postInit ⟨host, sortedPorts given.ports⟩ = .ok ⟨hostAgain, sortedPorts given.ports⟩ := by
    simp only [NetworkRule.postInit, check_ok.mpr portsAgain, read, Except.ok_bind]
    rfl
  refine ⟨⟨⟨hostAgain, sortedPorts given.ports⟩, _, built⟩, ?_, ?_⟩
  · simp [-Json.canonical_obj, networkOf, item, get?_sorted, networkPayload, List.lookup_cons, itemsOf,
      Json.ints, Json.canonicalItems_eq_map, Function.comp_def, mapM_pure, build_ok built]
  · intro candidate port
    have refused : NetworkRule.portRefused ⟨hostAgain, sortedPorts given.ports⟩ port =
        NetworkRule.portRefused ⟨host, given.ports⟩ port := by
      have some_port : sortedPorts given.ports = [] ↔ given.ports = [] := by
        simp only [List.eq_nil_iff_forall_not_mem, mem_sortedPorts]
      have inside : port.any (sortedPorts given.ports).contains = port.any given.ports.contains := by
        cases port with
        | none => rfl
        | some port =>
          rw [Bool.eq_iff_iff]
          simp [mem_sortedPorts]
      simp only [NetworkRule.portRefused, inside, decide_eq_decide.mpr (not_congr some_port)]
    simp only [NetworkRule.matches, refused, same _ candidate]
    rfl

/-- The capability read back: its sets in order, its hosts and roots normalized again and its
amount a float. -/
structure Rereads (c given : Capability) : Prop where
  actionType : given.actionType = c.actionType
  operations : ∀ text, text ∈ given.operations ↔ text ∈ c.operations
  resources : ∀ text, text ∈ given.resources ↔ text ∈ c.resources
  commandRules : given.commandRules = c.commandRules
  pathRules : given.pathRules = c.pathRules
  networkRules : List.Forall₂
    (fun rule again => ∀ host port, again.value.matches host port = rule.value.matches host port)
    c.networkRules given.networkRules
  maxAmount : given.maxAmount = c.maxAmount.map Num.toFloat
  verifier : given.verifier = c.verifier

theorem capabilityFromPayload_payload (c : Capability) :
    ∃ given, Rereads c given ∧
      capabilityFromPayload (capabilityPayload c).canonical = build Capability.postInit given := by
  obtain ⟨networkRules, networks, same⟩ := mapM_related fun rule (_ : rule ∈ c.networkRules) =>
    networkOf_payload rule
  have commands := mapM_same commandOf_payload c.commandRules
  have paths := mapM_same pathOf_payload c.pathRules
  refine ⟨{ c with
    operations := sortedSet c.operations
    resources := sortedSet c.resources
    networkRules := networkRules
    maxAmount := c.maxAmount.map Num.toFloat }, ?_, ?_⟩
  · constructor
    · rfl
    · exact fun _ => mem_sortedSet
    · exact fun _ => mem_sortedSet
    · rfl
    · rfl
    · exact same
    · rfl
    · rfl
  · have object : isObject (capabilityPayload c).canonical = true := by simp [capabilityPayload, isObject]
    have amount : maxAmountOf (capabilityPayload c).canonical = .ok (c.maxAmount.map Num.toFloat) := by
      cases hm : c.maxAmount with
      | none => simp [-Json.canonical_obj, maxAmountOf, capabilityPayload, get?_sorted, List.lookup_cons, hm, Json.ofOption]
      | some m => simp [-Json.canonical_obj, maxAmountOf, capabilityPayload, get?_sorted, List.lookup_cons, hm, Json.ofOption]
    simp only [capabilityFromPayload, object, amount]
    have commandObjects := filter_objects (fun rule : Made CommandRule.postInit =>
      (commandPayload rule.value).canonical) (by simp [commandPayload, isObject]) c.commandRules
    have pathObjects := filter_objects (fun rule : Made PathRule.postInit =>
      (pathPayload rule.value).canonical) (by simp [pathPayload, isObject]) c.pathRules
    have networkObjects := filter_objects (fun rule : Made NetworkRule.postInit =>
      (networkPayload rule.value).canonical) (by simp [networkPayload, isObject]) c.networkRules
    simp [-Json.canonical_obj, capabilityPayload, item, itemsOf, get?_sorted, List.lookup_cons,
      ofValue_value, Onmc.Runtime.Json.strs, Json.canonicalItems_eq_map, Function.comp_def, truthy,
      mapM_pure, commandObjects, pathObjects, networkObjects, commands, paths, networks]

/-! The same actions. -/

/-- The two capabilities match the same actions. -/
def Equivalent (c other : Capability) : Prop :=
  ∀ (action : Made Action.postInit) matchVerifier,
    other.matches action.value matchVerifier = c.matches action.value matchVerifier

omit [LawfulPlatform] in
theorem Capability.postInit_iff (c other : Capability) : Capability.postInit c = .ok other ↔ other = c ∧
    (c.operations ≠ [] ∧ c.operations.all clean = true) ∧ c.resources.all clean = true ∧
      c.maxAmount.all amountOk = true ∧ irrelevant (Capability.allowedFields c.actionType) c.presentFields = [] ∧
        (Capability.requiredField c.actionType, true) ∈ c.presentFields := by
  constructor
  · intro h
    obtain ⟨_, operations, h⟩ := Except.bind_ok.mp h
    obtain ⟨_, resources, h⟩ := Except.bind_ok.mp h
    obtain ⟨_, amount, h⟩ := Except.bind_ok.mp h
    obtain ⟨_, relevant, h⟩ := Except.bind_ok.mp h
    obtain ⟨_, required, h⟩ := Except.bind_ok.mp h
    cases h
    exact ⟨rfl, check_ok.mp operations, check_ok.mp resources, check_ok.mp amount, check_ok.mp relevant,
      check_ok.mp required⟩
  · rintro ⟨rfl, operations, resources, amount, relevant, required⟩
    simp only [Capability.postInit, check_ok.mpr operations, check_ok.mpr resources, check_ok.mpr amount,
      check_ok.mpr relevant, check_ok.mpr required, Except.ok_bind]
    rfl

namespace Rereads

variable {c given : Capability}

omit [LawfulPlatform] in
theorem presentFields (h : Rereads c given) : given.presentFields = c.presentFields := by
  have resources : given.resources = [] ↔ c.resources = [] := by
    simp only [List.eq_nil_iff_forall_not_mem, h.resources]
  have networks : given.networkRules = [] ↔ c.networkRules = [] := by
    rw [← List.length_eq_zero_iff, ← List.length_eq_zero_iff, h.networkRules.length_eq]
  simp only [Capability.presentFields, h.commandRules, h.pathRules, h.maxAmount, Option.isSome_map,
    decide_eq_decide.mpr (not_congr resources), decide_eq_decide.mpr (not_congr networks)]

omit [LawfulPlatform] in
/-- The capability read back passes its constructor when its amount does. -/
theorem postInit_iff (h : Rereads c given) (made : Capability.postInit c = .ok c) :
    Capability.postInit given = .ok given ↔ given.maxAmount.all amountOk = true := by
  obtain ⟨_, operations, resources, _, relevant, required⟩ := (Capability.postInit_iff c c).mp made
  rw [Capability.postInit_iff, h.presentFields, h.actionType]
  constructor
  · exact fun checks => checks.2.2.2.1
  · intro amount
    refine ⟨rfl, ⟨?_, ?_⟩, ?_, amount, relevant, required⟩
    · intro empty
      apply operations.1
      simpa only [List.eq_nil_iff_forall_not_mem, h.operations] using empty
    · simpa only [List.all_eq_true, h.operations] using operations.2
    · simpa only [List.all_eq_true, h.resources] using resources

omit [LawfulPlatform] in
theorem equivalent (h : Rereads c given)
    (limit : ∀ amount : Option Num, given.maxAmount.all (fun largest => amount.any (fun a => a.le largest)) =
      c.maxAmount.all (fun largest => amount.any (fun a => a.le largest))) : Equivalent c given := by
  rintro ⟨action, _⟩ matchVerifier
  have operation : given.operationMatches action.operation = c.operationMatches action.operation := by
    rw [Bool.eq_iff_iff]
    simp [Capability.operationMatches, h.operations]
  have resource : given.resourceMatches action.resource = c.resourceMatches action.resource := by
    rw [Bool.eq_iff_iff]
    simp [Capability.resourceMatches, h.resources]
  have network : action.host.any (fun host => given.networkRules.any (fun rule => rule.value.matches host action.port)) =
      action.host.any (fun host => c.networkRules.any (fun rule => rule.value.matches host action.port)) := by
    cases action.host with
    | none => rfl
    | some host => exact any_related (h.networkRules.imp fun _ _ same => same host action.port)
  have scope : given.scopeMatches action = c.scopeMatches action := by
    simp only [Capability.scopeMatches, h.actionType, h.commandRules, h.pathRules, network, resource,
      limit action.amount]
  simp only [Capability.matches, h.actionType, h.verifier, operation, scope]

omit [LawfulPlatform] in
/-- The limit of a budget capability, as the actions within it show it. -/
theorem limit_of_equivalent (h : Rereads c given) (made : Capability.postInit c = .ok c)
    (same : Equivalent c given) {m : Num} (limited : c.maxAmount = some m) :
    ∀ amount, amountOk amount = true → amount.le m.toFloat = amount.le m := by
  obtain ⟨_, operations, resources, _, relevant, required⟩ := (Capability.postInit_iff c c).mp made
  have budget : c.actionType = .budget := by
    have allowed := irrelevant_nil relevant "max_amount" (by simp [Capability.presentFields, limited])
    cases hc : c.actionType with
    | budget => rfl
    | _ =>
      rw [hc] at allowed
      exact absurd allowed (by decide)
  intro amount accepted
  obtain ⟨operation, allowed⟩ := List.exists_mem_of_ne_nil _ operations.1
  have resourced : c.resources ≠ [] := by
    simp only [budget, Capability.requiredField, Capability.presentFields] at required
    intro empty
    simp [empty] at required
  obtain ⟨resource, held⟩ := List.exists_mem_of_ne_nil _ resourced
  let action : Action := ⟨.budget, operation, resource, [], none, none, none, some amount, c.verifier, []⟩
  have built : Action.postInit action = .ok action := by
    have named := List.all_eq_true.mp operations.2 operation allowed
    have owned := List.all_eq_true.mp resources resource held
    have owned' := owned
    simp only [clean, Bool.and_eq_true, decide_eq_true_eq, Bool.not_eq_true'] at owned'
    have frozen : freezeJson 0 0 (.obj []) = .ok 1 := by rfl
    simp [Action.postInit, nonempty, check, action, named, owned', Action.needsResource, accepted, irrelevant,
      Action.presentFields, Action.allowedFields, frozen]
  have one := same ⟨action, _, built⟩ true
  have operates : c.operationMatches operation = true := by simp [Capability.operationMatches, allowed]
  have again : given.operationMatches operation = true := by
    simp [Capability.operationMatches, h.operations, allowed]
  have holds : c.resourceMatches resource = true := by simp [Capability.resourceMatches, held]
  have still : given.resourceMatches resource = true := by simp [Capability.resourceMatches, h.resources, held]
  simpa [Capability.matches, Capability.scopeMatches, action, h.actionType, budget, h.verifier, operates, again,
    holds, still, h.maxAmount, limited] using one

end Rereads

end Reading

namespace TokenAuthority

variable [Platform]

/-- What `verify` makes of the payload of an issued token. -/
theorem readPayload_written (tokenId subject : String) (issuedAt expiresAt : DateTime)
    (scopes : List (Made Capability.postInit)) (asked : Option String) (now : DateTime) :
    readPayload (tokenPayload tokenId subject issuedAt expiresAt scopes).canonical asked now =
      if asked.any (· ≠ subject) then none
      else if now.micros < issuedAt.micros ∨ expiresAt.micros ≤ now.micros then none
      else (scopes.mapM fun scope => capabilityFromPayload (capabilityPayload scope.value).canonical).toOption.bind
        fun capabilities => if capabilities = [] then none
          else some ⟨tokenId, subject, capabilities, issuedAt, expiresAt⟩ := by
  have object : isObject (tokenPayload tokenId subject issuedAt expiresAt scopes).canonical = true := by
    simp [tokenPayload, isObject]
  have version : versionOk (tokenPayload tokenId subject issuedAt expiresAt scopes).canonical = true := by
    simp [-Json.canonical_obj, tokenPayload, versionOk, get?_sorted]
    rfl
  simp only [readPayload, object, version]
  simp [-Json.canonical_obj, tokenPayload, get?_sorted, List.lookup_cons, Except.toOption, fromisoformat_isoformat,
    Json.canonicalItems_eq_map, Function.comp_def]

/-- The parts of an issued token. -/
theorem issue_ok {authority : TokenAuthority} {tokenId subject token : String} {issuedAt : DateTime}
    {scopes : List (Made Capability.postInit)} {ttl : Int}
    (h : authority.issue tokenId issuedAt subject scopes ttl = .ok token) :
    ∃ expiresAt encoded, addTtl issuedAt ttl = .ok expiresAt ∧ scopes ≠ [] ∧
      encoded = Base64.encode (canonicalJsonBytes (tokenPayload tokenId subject issuedAt expiresAt scopes)) ∧
      encoded.length + 1 + signatureLength ≤ maxTokenLength ∧
      token = String.ofList (encoded ++ '.' :: authority.sign (encoded.map fun c => UInt8.ofNat c.toNat)) := by
  obtain ⟨_, _, h⟩ := Except.bind_ok.mp h
  obtain ⟨expiresAt, expires, h⟩ := Except.bind_ok.mp h
  obtain ⟨_, some_scope, h⟩ := Except.bind_ok.mp h
  obtain ⟨_, short, h⟩ := Except.bind_ok.mp h
  exact ⟨expiresAt, _, expires, check_ok.mp some_scope, rfl, check_ok.mp short, (Except.ok.inj h).symm⟩

omit [Platform] in
theorem authentic_issued (authority : TokenAuthority) (bytes : List UInt8) :
    authority.authentic (Base64.encode bytes)
      (authority.sign ((Base64.encode bytes).map fun c => UInt8.ofNat c.toNat)) = true := by
  have tag : Sha256.hmac authority.signingKey ((Base64.encode bytes).map fun c => UInt8.ofNat c.toNat) ≠ [] := by
    intro empty
    have size := Sha256.hmac_length authority.signingKey ((Base64.encode bytes).map fun c => UInt8.ofNat c.toNat)
    rw [empty] at size
    cases size
  simp only [authentic, encodeAscii_encode, sign, decode_encode tag, decide_true]

theorem verify_issued {authority : TokenAuthority} {tokenId subject token : String} {issuedAt expiresAt : DateTime}
    {scopes : List (Made Capability.postInit)} {ttl : Int}
    (h : authority.issue tokenId issuedAt subject scopes ttl = .ok token)
    (expires : addTtl issuedAt ttl = .ok expiresAt) (asked : Option String) (now : DateTime) :
    authority.verify token asked now =
      readPayload (tokenPayload tokenId subject issuedAt expiresAt scopes).canonical asked now := by
  obtain ⟨expiresAt', encoded, expires', _, coded, short, rfl⟩ := issue_ok h
  cases expires.symm.trans expires'
  have dotless : '.' ∉ encoded := coded ▸ dot_not_mem _
  have signed := sign_length authority (encoded.map fun c => UInt8.ofNat c.toNat)
  have valid : authority.authentic encoded (authority.sign (encoded.map fun c => UInt8.ofNat c.toNat)) = true := by
    rw [coded]
    exact authentic_issued authority _
  have decoded : decode encoded =
      some (canonicalJsonBytes (tokenPayload tokenId subject issuedAt expiresAt scopes)) := by
    rw [coded, decode_encode (canonicalJsonBytes_ne_nil _)]
  have split := splitToken_joined dotless (dot_not_mem_sign authority (encoded.map fun c => UInt8.ofNat c.toNat))
  simp [verify, split, signed, valid, decoded, decodeAscii_canonicalJsonBytes, Json.loads_dumpsAscii]
  intro large
  exfalso
  omega

/-! The laws of a token. -/

/-- Inside its lifetime a token is read with capabilities that match the actions of the issued ones. -/
def RoundTrips (authority : TokenAuthority) (token subject : String) (scopes : List (Made Capability.postInit))
    (issuedAt expiresAt : DateTime) : Prop :=
  ∀ now : DateTime, issuedAt.micros ≤ now.micros → now.micros < expiresAt.micros →
    ∃ read, authority.verify token (some subject) now = some read ∧
      List.Forall₂ (fun issued again => Equivalent issued.value again.value) scopes read.capabilities

/-- A token is refused for another subject and outside its lifetime. -/
def Bound (authority : TokenAuthority) (token subject : String) (issuedAt expiresAt : DateTime) : Prop :=
  (∀ other now, other ≠ subject → authority.verify token (some other) now = none) ∧
    ∀ (asked : Option String) (now : DateTime), now.micros < issuedAt.micros ∨ expiresAt.micros ≤ now.micros →
      authority.verify token asked now = none

/-- Whoever presents a valid signature has it from an issued token. -/
def Unforgeable (authority : TokenAuthority) (presented : String → Prop) (tokens : List String) : Prop :=
  ∀ text encoded signature, presented text → splitToken text.toList = some (encoded, signature) →
    authority.authentic encoded signature = true →
      ∃ token ∈ tokens, ∃ other, splitToken token.toList = some (encoded, other)

/-- The authority issued the token. -/
def Issued (authority : TokenAuthority) (token : String) : Prop :=
  ∃ tokenId issuedAt subject scopes ttl, authority.issue tokenId issuedAt subject scopes ttl = .ok token

/-- No other text than the issued tokens is accepted. -/
def Exclusive (authority : TokenAuthority) : Prop :=
  ∀ (presented : String → Prop) (tokens : List String), (∀ token ∈ tokens, authority.Issued token) →
    authority.Unforgeable presented tokens → ∀ text, presented text → text ∉ tokens →
      ∀ asked now, authority.verify text asked now = none

theorem verify_some {authority : TokenAuthority} {text : String} {asked : Option String} {now : DateTime}
    {read : CapabilityToken} (h : authority.verify text asked now = some read) :
    ∃ encoded signature, splitToken text.toList = some (encoded, signature) ∧
      authority.authentic encoded signature = true := by
  unfold verify at h
  split at h
  · cases h
  · simp only [Option.bind_eq_bind, Option.bind_eq_some_iff] at h
    obtain ⟨⟨encoded, signature⟩, split, h⟩ := h
    refine ⟨encoded, signature, split, ?_⟩
    cases valid : authority.authentic encoded signature with
    | true => rfl
    | false => simp [valid] at h

theorem issued_split {authority : TokenAuthority} {token : String} (issued : authority.Issued token) :
    ∃ encoded, '.' ∉ encoded ∧
      token.toList = encoded ++ '.' :: authority.sign (encoded.map fun c => UInt8.ofNat c.toNat) := by
  obtain ⟨tokenId, issuedAt, subject, scopes, ttl, issued⟩ := issued
  obtain ⟨_, encoded, _, _, coded, _, rfl⟩ := issue_ok issued
  exact ⟨encoded, coded ▸ dot_not_mem _, String.toList_ofList⟩

/-- The base64 form is canonical, so a token is the only text with its signature. -/
theorem exclusive (authority : TokenAuthority) : authority.Exclusive := by
  intro presented tokens issued unforgeable text shown fresh asked now
  cases read : authority.verify text asked now with
  | none => rfl
  | some token =>
    obtain ⟨encoded, signature, split, valid⟩ := verify_some read
    obtain ⟨token, member, other, splitIssued⟩ := unforgeable text encoded signature shown split valid
    obtain ⟨message, dotless, written⟩ := issued_split (issued token member)
    rw [written, splitToken_joined dotless (dot_not_mem_sign _ _)] at splitIssued
    cases splitIssued
    have same : text.toList = token.toList := by rw [splitToken_some split, authentic_sign valid, written]
    exact absurd (String.toList_inj.mp same ▸ member) fresh

omit [Platform] in
theorem addTtl_ok {t expiresAt : DateTime} {ttl : Int} (h : addTtl t ttl = .ok expiresAt) :
    (expiresAt.micros : Int) = t.micros + ttl := by
  unfold addTtl at h
  split at h
  · rename_i range
    cases h
    exact Int.toNat_of_nonneg range.1
  · cases h

variable [LawfulPlatform]

/-- No limit of a capability is an integer that a float rounds. -/
def ExactLimits (scopes : List (Made Capability.postInit)) : Prop :=
  ∀ scope ∈ scopes, ∀ m, scope.value.maxAmount = some m → Exact m

omit [LawfulPlatform] in
theorem capability_again (scope : Made Capability.postInit) : Capability.postInit scope.value = .ok scope.value := by
  obtain ⟨value, given, h⟩ := scope
  obtain ⟨rfl, rest⟩ := (Capability.postInit_iff given value).mp h
  exact h

/-- A capability is read back, and matches the same actions, when its limit is exact. -/
theorem capability_read (scope : Made Capability.postInit)
    (exact : ∀ m, scope.value.maxAmount = some m → Exact m) :
    ∃ again, capabilityFromPayload (capabilityPayload scope.value).canonical = .ok again ∧
      Equivalent scope.value again.value := by
  obtain ⟨given, rereads, read⟩ := capabilityFromPayload_payload scope.value
  have made := capability_again scope
  have accepted := ((Capability.postInit_iff _ _).mp made).2.2.2.1
  have amount : given.maxAmount.all amountOk = true := by
    rw [rereads.maxAmount]
    cases hm : scope.value.maxAmount with
    | none => rfl
    | some m =>
      rw [hm] at accepted
      exact amountOk_exact accepted (exact m hm)
  have built := (rereads.postInit_iff made).mpr amount
  refine ⟨_, read.trans (build_ok built), rereads.equivalent ?_⟩
  intro asked
  rw [rereads.maxAmount]
  cases hm : scope.value.maxAmount with
  | none => rfl
  | some m =>
    rw [hm] at accepted
    have float := decimal_toFloat accepted (exact m hm)
    simp only [Option.map_some, Option.all_some]
    exact congrArg (fun test => asked.any test) (funext fun a => le_decimal float.1 float.2)

/-- The limit of a capability that was read back and matches the same actions is exact. -/
theorem exact_of_read {scope again : Made Capability.postInit}
    (read : capabilityFromPayload (capabilityPayload scope.value).canonical = .ok again)
    (same : Equivalent scope.value again.value) : ∀ m, scope.value.maxAmount = some m → Exact m := by
  intro m hm
  obtain ⟨given, rereads, written⟩ := capabilityFromPayload_payload scope.value
  have built := build_value (written.symm.trans read)
  obtain ⟨value, _, _, amount, _⟩ := (Capability.postInit_iff given again.value).mp built
  have made := capability_again scope
  have accepted := ((Capability.postInit_iff _ _).mp made).2.2.2.1
  rw [hm] at accepted
  rw [rereads.maxAmount, hm] at amount
  rw [value] at same
  exact (same_limit_iff accepted amount).mp (rereads.limit_of_equivalent made same hm)

section Issued

variable {authority : TokenAuthority} {tokenId subject token : String} {issuedAt expiresAt : DateTime}
  {scopes : List (Made Capability.postInit)} {ttl : Int}

omit [LawfulPlatform] in
theorem bound (issued : authority.issue tokenId issuedAt subject scopes ttl = .ok token)
    (expires : addTtl issuedAt ttl = .ok expiresAt) : authority.Bound token subject issuedAt expiresAt := by
  have verify := verify_issued issued expires
  constructor
  · intro other now different
    rw [verify, readPayload_written, if_pos (by simpa using different)]
  · intro asked now outside
    rw [verify, readPayload_written]
    split
    · rfl
    · rfl

/-- A token that is valid at some time round trips exactly when the limits of its capabilities are exact. -/
theorem token_roundTrips_iff (issued : authority.issue tokenId issuedAt subject scopes ttl = .ok token)
    (expires : addTtl issuedAt ttl = .ok expiresAt) (valid : 0 < ttl) :
    authority.RoundTrips token subject scopes issuedAt expiresAt ↔ ExactLimits scopes := by
  have verify := verify_issued issued expires
  have window := addTtl_ok expires
  constructor
  · intro trips
    obtain ⟨read, verified, same⟩ := trips issuedAt (Nat.le_refl _) (by omega)
    rw [verify, readPayload_written, if_neg (by simp), if_neg (by omega), Option.bind_eq_some_iff] at verified
    obtain ⟨capabilities, mapped, verified⟩ := verified
    have capabilities_read : read.capabilities = capabilities := by
      split at verified
      · cases verified
      · cases verified
        rfl
    rw [capabilities_read] at same
    have readings := Except.mapM_ok (toOption_some.mp mapped)
    intro scope member
    obtain ⟨again, reading, equivalent⟩ := forall₂_both readings same member
    exact exact_of_read reading equivalent
  · intro exact now from_issue to_expiry
    obtain ⟨_, _, _, some_scope, _⟩ := issue_ok issued
    obtain ⟨capabilities, mapped, same⟩ := mapM_related fun scope member => capability_read scope (exact scope member)
    have some_capability : capabilities ≠ [] := by
      rintro rfl
      exact some_scope (List.forall₂_nil_right_iff.mp same)
    refine ⟨⟨tokenId, subject, capabilities, issuedAt, expiresAt⟩, ?_, same⟩
    rw [verify, readPayload_written, if_neg (by simp), if_neg (by omega)]
    have mapped' : (scopes.mapM fun scope => capabilityFromPayload (capabilityPayload scope.value).canonical) =
        .ok capabilities := mapped
    simp [mapped', Except.toOption, some_capability]

/-- An issued token round trips exactly when it is never valid or its limits are exact. It is bound
to its subject and its lifetime, and no text but an issued token is accepted. -/
theorem token_laws_iff (issued : authority.issue tokenId issuedAt subject scopes ttl = .ok token)
    (expires : addTtl issuedAt ttl = .ok expiresAt) :
    (authority.RoundTrips token subject scopes issuedAt expiresAt ∧
        authority.Bound token subject issuedAt expiresAt ∧ authority.Exclusive) ↔
      (ttl ≤ 0 ∨ ExactLimits scopes) := by
  have window := addTtl_ok expires
  by_cases valid : 0 < ttl
  · rw [token_roundTrips_iff issued expires valid]
    constructor
    · rintro ⟨exact, _⟩
      exact .inr exact
    · intro exact
      exact ⟨exact.resolve_left (by omega), bound issued expires, exclusive authority⟩
  · constructor
    · intro _
      exact .inl (by omega)
    · intro _
      refine ⟨?_, bound issued expires, exclusive authority⟩
      intro now from_issue to_expiry
      omega

end Issued

end TokenAuthority

/-! One token with a limit. -/

/-- A machine that resolves no symlink and knows no address. -/
@[reducible] def bareMachine : Platform where
  resolve := id
  Address := Empty
  Network := Empty
  ipAddress _ := none
  compressed := Empty.elim
  ipNetwork _ := none
  withPrefixlen := Empty.elim
  isIn := Empty.elim
  idna name := some name

attribute [local instance] bareMachine

theorem bareMachine_lawful : LawfulPlatform where
  resolve_resolve _ := rfl
  resolve_nul _ h := h
  compressed _ address := address.elim
  idna _ _ _ := rfl
  dotted _ address := address.elim
  withPrefixlen _ network := network.elim

attribute [local instance] bareMachine_lawful

def limited (maxAmount : Num) : Capability :=
  ⟨.budget, ["spend"], ["openai"], [], [], [], some maxAmount, false⟩

theorem limited_made (n : Nat) (small : n < 2 ^ 64) :
    Capability.postInit (limited (.int n)) = .ok (limited (.int n)) := by
  rw [Capability.postInit_iff]
  have finite : isfinite (.int n) = true := by
    rw [isfinite_int]
    refine Nat.lt_of_lt_of_le small ?_
    decide +kernel
  have positive : (Num.int 0).le (.int n) = true := by
    have order : (Num.int n).lt (.int 0) = false := by
      simp [Num.lt, Num.decimal?, Decimal.ofInt, Decimal.lt]
    simp [Num.le, order]
  have accepted : amountOk (.int n) = true := by
    rw [amountOk, finite, positive]
    rfl
  have operations : ["spend"].all clean = true := by decide
  have resources : ["openai"].all clean = true := by decide
  have limit : (limited (.int n)).maxAmount.all amountOk = true := by
    rw [limited, Option.all_some]
    exact accepted
  exact ⟨rfl, ⟨List.cons_ne_nil _ _, operations⟩, resources, limit, rfl, List.mem_cons_self⟩

theorem issue_made {authority : TokenAuthority} {tokenId subject : String} {issuedAt expiresAt : DateTime}
    {scopes : List (Made Capability.postInit)} {ttl : Int} (named : clean subject = true)
    (expires : addTtl issuedAt ttl = .ok expiresAt) (some_scope : scopes ≠ [])
    (short : (Base64.encode (canonicalJsonBytes
      (TokenAuthority.tokenPayload tokenId subject issuedAt expiresAt scopes))).length + 1 + signatureLength ≤
        maxTokenLength) :
    ∃ token, authority.issue tokenId issuedAt subject scopes ttl = .ok token := by
  let encoded := Base64.encode (canonicalJsonBytes (TokenAuthority.tokenPayload tokenId subject issuedAt expiresAt scopes))
  refine ⟨String.ofList (encoded ++ '.' :: authority.sign (encoded.map fun c => UInt8.ofNat c.toNat)), ?_⟩
  simp only [TokenAuthority.issue, check_ok.mpr named, expires, check_ok.mpr some_scope, check_ok.mpr short,
    Except.ok_bind]
  rfl

def sampleAuthority : TokenAuthority := ⟨List.replicate 32 7, by decide⟩

def sampleScope (n : Nat) (small : n < 2 ^ 64) : Made Capability.postInit :=
  ⟨limited (.int n), _, limited_made n small⟩

def sampleTime : DateTime := ⟨63902476800000000, by decide⟩

def sampleExpiry : DateTime := ⟨63902476860000000, by decide⟩

theorem sample_expires : addTtl sampleTime 60000000 = .ok sampleExpiry := by
  decide

theorem sample_issued (n : Nat) (small : n < 2 ^ 64) (short : (canonicalJsonBytes (TokenAuthority.tokenPayload "00"
    "worker" sampleTime sampleExpiry [sampleScope n small])).length ≤ 4096) :
    ∃ token, sampleAuthority.issue "00" sampleTime "worker" [sampleScope n small] 60000000 = .ok token := by
  apply issue_made (by decide) sample_expires (List.cons_ne_nil _ _)
  rw [Base64.encode_length]
  simp only [signatureLength, maxTokenLength]
  omega

theorem round_limit_short : (canonicalJsonBytes (TokenAuthority.tokenPayload "00"
    "worker" sampleTime sampleExpiry [sampleScope 5 (by decide)])).length ≤ 4096 := by
  rw [canonicalJsonBytes_length]
  decide +kernel

theorem odd_limit_short : (canonicalJsonBytes (TokenAuthority.tokenPayload "00"
    "worker" sampleTime sampleExpiry [sampleScope (2 ^ 53 + 1) (by decide)])).length ≤ 4096 := by
  rw [canonicalJsonBytes_length]
  decide +kernel

theorem token_laws_round_limit :
    ∃ token, sampleAuthority.issue "00" sampleTime "worker" [sampleScope 5 (by decide)] 60000000 = .ok token ∧
      sampleAuthority.RoundTrips token "worker" [sampleScope 5 (by decide)] sampleTime sampleExpiry ∧
        sampleAuthority.Bound token "worker" sampleTime sampleExpiry ∧ sampleAuthority.Exclusive := by
  obtain ⟨token, issued⟩ := sample_issued 5 (by decide) round_limit_short
  refine ⟨token, issued, (TokenAuthority.token_laws_iff issued sample_expires).mpr (.inr ?_)⟩
  intro scope member m hm
  rw [List.mem_singleton.mp member] at hm
  cases hm
  rfl

/-- A limit of `2 ** 53 + 1` is issued, but the token is read with the limit `2.0 ** 53`. -/
theorem odd_limit_narrowed :
    ∃ token, sampleAuthority.issue "00" sampleTime "worker" [sampleScope (2 ^ 53 + 1) (by decide)] 60000000 = .ok token ∧
      ¬ sampleAuthority.RoundTrips token "worker" [sampleScope (2 ^ 53 + 1) (by decide)] sampleTime sampleExpiry := by
  obtain ⟨token, issued⟩ := sample_issued (2 ^ 53 + 1) (by decide) odd_limit_short
  refine ⟨token, issued, ?_⟩
  rw [TokenAuthority.token_roundTrips_iff issued sample_expires (by decide)]
  intro exact
  have kept : Num.roundInt (2 ^ 53 + 1) = 2 ^ 53 + 1 := exact _ List.mem_cons_self _ rfl
  exact absurd kept (by decide)

end Onmc.ToolBroker
