import Onmc.ToolBroker.Amounts
import Onmc.ToolBroker.TokenLaws

/-! The decision of the broker on a declared action. -/
namespace Onmc.ToolBroker

open Onmc.Runtime (check)

def sorted (ids : List String) : List String := ids.insertionSort (· ≤ ·)

theorem sorted_perm {ids others : List String} (h : ids.Perm others) : sorted ids = sorted others := by
  apply List.Perm.eq_of_sortedLE List.sortedLE_insertionSort List.sortedLE_insertionSort
  exact (List.perm_insertionSort _ _).trans (h.trans (List.perm_insertionSort _ _).symm)

@[simp] theorem mem_sorted {ids : List String} {id : String} : id ∈ sorted ids ↔ id ∈ ids := List.mem_insertionSort _

@[simp] theorem sorted_eq_nil {ids : List String} : sorted ids = [] ↔ ids = [] := by
  simp only [List.eq_nil_iff_forall_not_mem, mem_sorted]

theorem ne_nil_iff {α : Type} {items : List α} : items ≠ [] ↔ ∃ a, a ∈ items :=
  ⟨List.exists_mem_of_ne_nil items, fun ⟨_, member⟩ => List.ne_nil_of_mem member⟩

variable [Platform]

/-- The identifiers of the rules of one effect that match. -/
def Policy.matching (policy : Policy) (effect : DecisionEffect) (action : Action) (matchVerifier : Bool) : List String :=
  (policy.rules.filter fun rule =>
    rule.value.effect = effect && rule.value.capability.value.matches action matchVerifier).map fun rule => rule.value.ruleId

def CapabilityToken.covers (token : CapabilityToken) (action : Action) : Bool :=
  token.capabilities.any fun capability => capability.value.matches action true

/-- Evaluates declared actions against a policy and signed capabilities. -/
structure Broker where
  policy : Policy
  tokenAuthority : TokenAuthority

namespace Broker

/-- `_verify_tokens` -/
def verifyTokens (broker : Broker) (tokens : List String) (subject : Option String) (now : DateTime) :
    List CapabilityToken :=
  match subject with
  | none => []
  | some subject => tokens.filterMap fun token => broker.tokenAuthority.verify token (some subject) now

/-- The identifiers of the valid tokens that cover the action. -/
def matchingTokens (broker : Broker) (action : Action) (tokens : List String) (subject : Option String)
    (now : DateTime) : List String :=
  ((broker.verifyTokens tokens subject now).filter fun token => token.covers action).map fun token => token.tokenId

/-- The decision from the identifiers of what matches. -/
def conclude (verifier : Bool) (denied tokens approvals allowed : List String) : Decision :=
  if denied ≠ [] then ⟨.deny, "policy_deny", denied, [], none⟩
  else if tokens ≠ [] then
    ⟨.allow, if verifier then "explicit_verifier_capability" else "capability_token", [], tokens, none⟩
  else if approvals ≠ [] then ⟨.requireApproval, "policy_approval_required", approvals, [], none⟩
  else if allowed ≠ [] then ⟨.allow, "policy_allow", allowed, [], none⟩
  else ⟨.deny, "default_deny", [], [], none⟩

/-- `decide`, at the time `now`. A deny is matched whatever the verifier label says. -/
def decide (broker : Broker) (action : Action) (tokens : List String) (subject : Option String) (now : DateTime) :
    Decision :=
  let decision := conclude action.verifier (sorted (broker.policy.matching .deny action false))
    (sorted (broker.matchingTokens action tokens subject now))
    (sorted (broker.policy.matching .requireApproval action true))
    (sorted (broker.policy.matching .allow action true))
  match action.actionType, action.path with
  | .filesystem, some path => { decision with resolvedPath := some (Platform.resolve path) }
  | _, _ => decision

end Broker

/-! What matches. -/

theorem Policy.mem_matching {policy : Policy} {effect : DecisionEffect} {action : Action} {matchVerifier : Bool}
    {id : String} : id ∈ policy.matching effect action matchVerifier ↔ ∃ rule ∈ policy.rules,
      rule.value.effect = effect ∧ rule.value.capability.value.matches action matchVerifier = true ∧
        rule.value.ruleId = id := by
  simp [Policy.matching, and_assoc]

theorem Policy.matching_ne_nil {policy : Policy} {effect : DecisionEffect} {action : Action} {matchVerifier : Bool} :
    policy.matching effect action matchVerifier ≠ [] ↔ ∃ rule ∈ policy.rules,
      rule.value.effect = effect ∧ rule.value.capability.value.matches action matchVerifier = true := by
  rw [ne_nil_iff]
  constructor
  · rintro ⟨id, member⟩
    obtain ⟨rule, listed, effect, covers, _⟩ := Policy.mem_matching.mp member
    exact ⟨rule, listed, effect, covers⟩
  · rintro ⟨rule, listed, effect, covers⟩
    exact ⟨_, Policy.mem_matching.mpr ⟨rule, listed, effect, covers, rfl⟩⟩

theorem Policy.matching_perm {policy other : Policy} (h : policy.rules.Perm other.rules) (effect : DecisionEffect)
    (action : Action) (matchVerifier : Bool) :
    (policy.matching effect action matchVerifier).Perm (other.matching effect action matchVerifier) :=
  (h.filter _).map _

namespace Broker

/-- A deny rule covers the action, whatever its verifier label says. -/
def Denied (broker : Broker) (action : Action) : Prop :=
  ∃ rule ∈ broker.policy.rules, rule.value.effect = .deny ∧ rule.value.capability.value.matches action false = true

/-- A valid token of the subject covers the action. -/
def Granted (broker : Broker) (action : Action) (tokens : List String) (subject : Option String) (now : DateTime) : Prop :=
  ∃ asked, subject = some asked ∧ ∃ text ∈ tokens, ∃ token,
    broker.tokenAuthority.verify text (some asked) now = some token ∧ token.covers action = true

/-- A rule of the effect covers the action with its verifier label. -/
def Ruled (broker : Broker) (effect : DecisionEffect) (action : Action) : Prop :=
  ∃ rule ∈ broker.policy.rules, rule.value.effect = effect ∧ rule.value.capability.value.matches action true = true

theorem matchingTokens_ne_nil {broker : Broker} {action : Action} {tokens : List String} {subject : Option String}
    {now : DateTime} :
    broker.matchingTokens action tokens subject now ≠ [] ↔ broker.Granted action tokens subject now := by
  rw [ne_nil_iff]
  cases subject with
  | none => simp [matchingTokens, verifyTokens, Granted]
  | some asked =>
    simp only [matchingTokens, verifyTokens, Granted, List.mem_map, List.mem_filter, List.mem_filterMap]
    constructor
    · rintro ⟨_, token, ⟨⟨text, listed, valid⟩, covers⟩, _⟩
      exact ⟨asked, rfl, text, listed, token, valid, covers⟩
    · rintro ⟨_, same, text, listed, token, valid, covers⟩
      cases same
      exact ⟨_, token, ⟨⟨text, listed, valid⟩, covers⟩, rfl⟩

theorem matchingTokens_perm (broker : Broker) (action : Action) {tokens others : List String}
    (h : tokens.Perm others) (subject : Option String) (now : DateTime) :
    (broker.matchingTokens action tokens subject now).Perm (broker.matchingTokens action others subject now) := by
  apply List.Perm.map
  apply List.Perm.filter
  cases subject with
  | none => exact .refl _
  | some asked => exact h.filterMap _

section Decisions

variable {broker : Broker} {action : Action} {tokens : List String} {subject : Option String} {now : DateTime}

theorem decide_conclude (broker : Broker) (action : Action) (tokens : List String) (subject : Option String)
    (now : DateTime) : ∃ path, broker.decide action tokens subject now =
      { conclude action.verifier (sorted (broker.policy.matching .deny action false))
          (sorted (broker.matchingTokens action tokens subject now))
          (sorted (broker.policy.matching .requireApproval action true))
          (sorted (broker.policy.matching .allow action true)) with resolvedPath := path } := by
  unfold decide
  dsimp only
  split
  · exact ⟨_, rfl⟩
  · refine ⟨none, ?_⟩
    unfold conclude
    split_ifs <;> rfl

theorem decide_denied (h : broker.Denied action) : (broker.decide action tokens subject now).effect = .deny ∧
    (broker.decide action tokens subject now).reasonCode = "policy_deny" ∧
      (broker.decide action tokens subject now).matchedRuleIds = sorted (broker.policy.matching .deny action false) := by
  obtain ⟨path, decided⟩ := decide_conclude broker action tokens subject now
  have some_deny : sorted (broker.policy.matching .deny action false) ≠ [] :=
    (not_congr sorted_eq_nil).mpr (Policy.matching_ne_nil.mpr h)
  rw [decided, conclude, if_pos some_deny]
  exact ⟨rfl, rfl, rfl⟩

/-- The effect of a decision by the rules and tokens that cover the action. -/
theorem decide_effect [Decidable (broker.Denied action)] [Decidable (broker.Granted action tokens subject now)]
    [Decidable (broker.Ruled .requireApproval action)] [Decidable (broker.Ruled .allow action)] :
    (broker.decide action tokens subject now).effect =
      if broker.Denied action then .deny
      else if broker.Granted action tokens subject now then .allow
      else if broker.Ruled .requireApproval action then .requireApproval
      else if broker.Ruled .allow action then .allow
      else .deny := by
  obtain ⟨path, decided⟩ := decide_conclude broker action tokens subject now
  have denied : sorted (broker.policy.matching .deny action false) ≠ [] ↔ broker.Denied action :=
    (not_congr sorted_eq_nil).trans Policy.matching_ne_nil
  have granted : sorted (broker.matchingTokens action tokens subject now) ≠ [] ↔
      broker.Granted action tokens subject now := (not_congr sorted_eq_nil).trans matchingTokens_ne_nil
  have ruled (effect : DecisionEffect) : sorted (broker.policy.matching effect action true) ≠ [] ↔
      broker.Ruled effect action := (not_congr sorted_eq_nil).trans Policy.matching_ne_nil
  simp only [decided, conclude, denied, granted, ruled]
  split_ifs <;> rfl

end Decisions

end Broker

end Onmc.ToolBroker
