import Onmc.ToolBroker.Unspecified

/-! The laws of a decision: deny before token before approval before allow, for every policy, every
set of tokens and every action. -/
namespace Onmc.ToolBroker

open Onmc.Runtime (check_ok)

variable [Platform]

namespace Broker

/-- Another policy in the place of the broker's own. -/
def withPolicy (broker : Broker) (policy : Policy) : Broker := { broker with policy := policy }

/-- An unspecified attribute does not let the action escape a deny rule that covers its every value. -/
def Uncircumvented (broker : Broker) (action : Action) (tokens : List String) (subject : Option String)
    (now : DateTime) : Prop :=
  ∀ rule ∈ broker.policy.rules, rule.value.effect = .deny → rule.value.capability.value.CoversEvery action →
    (broker.decide action tokens subject now).effect = .deny ∧
      rule.value.ruleId ∈ (broker.decide action tokens subject now).matchedRuleIds

structure Laws (broker : Broker) (action : Action) (tokens : List String) (subject : Option String) (now : DateTime) :
    Prop where
  deny : broker.Denied action → (broker.decide action tokens subject now).effect = .deny
  token : ¬ broker.Denied action → broker.Granted action tokens subject now →
    (broker.decide action tokens subject now).effect = .allow
  approval : ¬ broker.Denied action → ¬ broker.Granted action tokens subject now →
    broker.Ruled .requireApproval action → (broker.decide action tokens subject now).effect = .requireApproval
  allow : ¬ broker.Denied action → ¬ broker.Granted action tokens subject now →
    ¬ broker.Ruled .requireApproval action → broker.Ruled .allow action →
      (broker.decide action tokens subject now).effect = .allow
  default : ¬ broker.Denied action → ¬ broker.Granted action tokens subject now →
    ¬ broker.Ruled .requireApproval action → ¬ broker.Ruled .allow action →
      (broker.decide action tokens subject now).effect = .deny
  permuted : ∀ (policy : Policy) (others : List String), policy.rules.Perm broker.policy.rules → others.Perm tokens →
    (broker.withPolicy policy).decide action others subject now = broker.decide action tokens subject now
  denyAdded : ∀ (policy : Policy) (rule : Made PolicyRule.postInit), rule.value.effect = .deny →
    policy.rules.Perm (rule :: broker.policy.rules) →
      ((broker.withPolicy policy).decide action tokens subject now).allowed = true →
        (broker.decide action tokens subject now).allowed = true
  grantsAdded : ∀ (policy : Policy) (more : List (Made PolicyRule.postInit)) (others : List String),
    (∀ rule ∈ more, rule.value.effect = .allow) → policy.rules.Perm (more ++ broker.policy.rules) → tokens ⊆ others →
      (broker.decide action tokens subject now).reasonCode = "policy_deny" →
        ((broker.withPolicy policy).decide action others subject now).effect = .deny
  unspecified : broker.Uncircumvented action tokens subject now

section Laws

variable {broker : Broker} {action : Action} {tokens : List String} {subject : Option String} {now : DateTime}

/-- Rules and tokens count as sets. -/
theorem decide_perm {policy : Policy} {others : List String} (rules : policy.rules.Perm broker.policy.rules)
    (listed : others.Perm tokens) :
    (broker.withPolicy policy).decide action others subject now = broker.decide action tokens subject now := by
  have matching (effect : DecisionEffect) (matchVerifier : Bool) :=
    sorted_perm (Policy.matching_perm rules effect action matchVerifier)
  have granted := sorted_perm (matchingTokens_perm broker action listed subject now)
  simp only [decide, withPolicy, matching]
  rw [← granted]
  rfl

/-- The reason of a decision is a deny rule only where one covers the action. -/
theorem denied_of_reason (h : (broker.decide action tokens subject now).reasonCode = "policy_deny") :
    broker.Denied action := by
  by_contra free
  obtain ⟨path, decided⟩ := decide_conclude broker action tokens subject now
  have none_denied : sorted (broker.policy.matching .deny action false) = [] := by
    by_contra some_denied
    exact free (Policy.matching_ne_nil.mp ((not_congr sorted_eq_nil).mp some_denied))
  rw [decided, conclude, if_neg (not_not.mpr none_denied)] at h
  split_ifs at h
  all_goals simp at h

theorem matched_of_denied (denied : (broker.decide action tokens subject now).effect = .deny) {id : String}
    (listed : id ∈ (broker.decide action tokens subject now).matchedRuleIds) :
    id ∈ broker.policy.matching .deny action false := by
  obtain ⟨path, decided⟩ := decide_conclude broker action tokens subject now
  rw [decided] at denied listed
  unfold conclude at denied listed
  split_ifs at denied listed
  · exact mem_sorted.mp listed
  · cases listed

/-- The identifier of a rule is its own. -/
theorem rule_of_id {policy : Policy} {rule other : Made PolicyRule.postInit} (member : rule ∈ policy.rules)
    (also : other ∈ policy.rules) (same : rule.value.ruleId = other.value.ruleId) : rule = other :=
  List.inj_on_of_nodup_map policy.unique member also same

/-- An allowed action is one that no deny rule covers and that a token or an allow rule grants. -/
theorem allowed_iff : (broker.decide action tokens subject now).allowed = true ↔ ¬ broker.Denied action ∧
    (broker.Granted action tokens subject now ∨ ¬ broker.Ruled .requireApproval action ∧ broker.Ruled .allow action) := by
  classical
  simp only [Decision.allowed, decide_effect, decide_eq_true_eq]
  split_ifs <;> simp [*]

theorem denyAdded {policy : Policy} {rule : Made PolicyRule.postInit} (deny : rule.value.effect = .deny)
    (rules : policy.rules.Perm (rule :: broker.policy.rules))
    (h : ((broker.withPolicy policy).decide action tokens subject now).allowed = true) :
    (broker.decide action tokens subject now).allowed = true := by
  rw [allowed_iff] at h ⊢
  have kept {other : Made PolicyRule.postInit} (member : other ∈ broker.policy.rules) : other ∈ policy.rules :=
    rules.mem_iff.mpr (List.mem_cons_of_mem _ member)
  have old {other : Made PolicyRule.postInit} (member : other ∈ policy.rules) (effect : other.value.effect ≠ .deny) :
      other ∈ broker.policy.rules := by
    rcases List.mem_cons.mp (rules.mem_iff.mp member) with rfl | member
    · exact absurd deny effect
    · exact member
  refine ⟨?_, ?_⟩
  · rintro ⟨other, member, covers⟩
    exact h.1 ⟨other, kept member, covers⟩
  · rcases h.2 with granted | ⟨unapproved, ruled⟩
    · exact .inl granted
    · right
      constructor
      · rintro ⟨other, member, covers⟩
        exact unapproved ⟨other, kept member, covers⟩
      · obtain ⟨other, member, allow, covers⟩ := ruled
        exact ⟨other, old member (by simp [allow]), allow, covers⟩

theorem grantsAdded {policy : Policy} {more : List (Made PolicyRule.postInit)}
    (rules : policy.rules.Perm (more ++ broker.policy.rules)) (others : List String)
    (h : (broker.decide action tokens subject now).reasonCode = "policy_deny") :
    ((broker.withPolicy policy).decide action others subject now).effect = .deny := by
  obtain ⟨rule, member, covers⟩ := denied_of_reason h
  exact (decide_denied ⟨rule, rules.mem_iff.mpr (List.mem_append_right _ member), covers⟩).1

end Laws

/-- A deny rule keeps every action that it covers with each value of an unspecified attribute exactly
when it does not name those values one by one. -/
theorem uncircumvented_iff (broker : Broker) (action : Made Action.postInit) (tokens : List String)
    (subject : Option String) (now : DateTime) :
    broker.Uncircumvented action.value tokens subject now ↔ ∀ rule ∈ broker.policy.rules, rule.value.effect = .deny →
      ¬ (rule.value.capability.value.NamesEveryPort action.value ∨
        rule.value.capability.value.NamesEveryAmount action.value) := by
  constructor
  · intro kept rule member deny names
    obtain ⟨covers, escapes⟩ := (Capability.escapes_iff rule.value.capability action).mpr names
    obtain ⟨denied, listed⟩ := kept rule member deny covers
    obtain ⟨other, also, _, matched, same⟩ := Policy.mem_matching.mp (matched_of_denied denied listed)
    rw [rule_of_id also member same, escapes] at matched
    cases matched
  · intro unnamed rule member deny covers
    have matched : rule.value.capability.value.matches action.value false = true := by
      by_contra escapes
      exact unnamed rule member deny
        ((Capability.escapes_iff _ action).mp ⟨covers, Bool.eq_false_iff.mpr escapes⟩)
    have denied : broker.Denied action.value := ⟨rule, member, deny, matched⟩
    refine ⟨(decide_denied denied).1, ?_⟩
    rw [(decide_denied denied).2.2, mem_sorted]
    exact Policy.mem_matching.mpr ⟨rule, member, deny, matched, rfl⟩

/-- The decision laws hold of a policy exactly when no deny rule names every value of an attribute
that the action leaves unspecified. -/
theorem decision_laws_iff (broker : Broker) (action : Made Action.postInit) (tokens : List String)
    (subject : Option String) (now : DateTime) :
    broker.Laws action.value tokens subject now ↔ ∀ rule ∈ broker.policy.rules, rule.value.effect = .deny →
      ¬ (rule.value.capability.value.NamesEveryPort action.value ∨
        rule.value.capability.value.NamesEveryAmount action.value) := by
  rw [← uncircumvented_iff broker action tokens subject now]
  constructor
  · exact Laws.unspecified
  · intro kept
    classical
    refine ⟨fun denied => (decide_denied denied).1, ?_, ?_, ?_, ?_, fun _ _ => decide_perm,
      fun _ _ deny rules => denyAdded deny rules, fun _ _ others _ rules _ => grantsAdded rules others, kept⟩
    · intro free granted
      rw [decide_effect, if_neg free, if_pos granted]
    · intro free ungranted approval
      rw [decide_effect, if_neg free, if_neg ungranted, if_pos approval]
    · intro free ungranted unapproved allow
      rw [decide_effect, if_neg free, if_neg ungranted, if_neg unapproved, if_pos allow]
    · intro free ungranted unapproved disallowed
      rw [decide_effect, if_neg free, if_neg ungranted, if_neg unapproved, if_neg disallowed]

end Broker

end Onmc.ToolBroker

/-! One policy that denies a host on every port, and allows it without a port. -/
namespace Onmc.ToolBroker

open Onmc.Runtime (check_ok)

attribute [local instance] bareMachine

/-- The ports from 1 to `n`. -/
def portsTo (n : Nat) : List Int := (List.range n).map fun k : Nat => Int.ofNat k + 1

theorem mem_portsTo {n : Nat} {p : Int} : p ∈ portsTo n ↔ 1 ≤ p ∧ p ≤ n := by
  simp only [portsTo, List.mem_map, List.mem_range]
  constructor
  · rintro ⟨k, small, rfl⟩
    simp only [Int.ofNat_eq_natCast]
    omega
  · rintro ⟨positive, small⟩
    refine ⟨(p - 1).toNat, by omega, ?_⟩
    simp only [Int.ofNat_eq_natCast]
    omega

theorem portsTo_ok : (portsTo 65535).all portOk = true := by
  simp only [List.all_eq_true, mem_portsTo, portOk, Bool.and_eq_true, decide_eq_true_eq]
  exact fun p bounds => bounds

theorem example_host : NetworkRule.canonicalRuleHost "example.com" = .ok "example.com" := by
  decide +kernel

theorem hostRule_made {ports : List Int} (fine : ports.all portOk = true) :
    NetworkRule.postInit ⟨"example.com", ports⟩ = .ok ⟨"example.com", ports⟩ := by
  simp only [NetworkRule.postInit, check_ok.mpr fine, example_host, Except.ok_bind]
  rfl

def hostRule (ports : List Int) (fine : ports.all portOk = true) : Made NetworkRule.postInit :=
  ⟨⟨"example.com", ports⟩, _, hostRule_made fine⟩

def egress (ports : List Int) (fine : ports.all portOk = true) : Capability :=
  ⟨.network, ["*"], [], [], [], [hostRule ports fine], none, false⟩

theorem egress_made (ports : List Int) (fine : ports.all portOk = true) :
    Capability.postInit (egress ports fine) = .ok (egress ports fine) := by
  rw [Capability.postInit_iff]
  have operations : ["*"].all clean = true := by decide
  refine ⟨rfl, ⟨List.cons_ne_nil _ _, operations⟩, rfl, rfl, rfl, ?_⟩
  simp [egress, Capability.requiredField, Capability.presentFields]

def egressRule (ruleId : String) (effect : DecisionEffect) (ports : List Int) (fine : ports.all portOk = true)
    (named : nonempty ruleId "rule_id" = .ok ()) : Made PolicyRule.postInit :=
  let given : PolicyRule := ⟨ruleId, effect, egress ports fine, _, egress_made ports fine⟩
  ⟨given, given, by
    simp only [PolicyRule.postInit, given, named, Except.ok_bind]
    rfl⟩

def noEgress : Made PolicyRule.postInit :=
  egressRule "no-egress" .deny (portsTo 65535) portsTo_ok (by decide)

def mayEgress : Made PolicyRule.postInit := egressRule "may-egress" .allow [] rfl (by decide)

def egressBroker : Broker := ⟨⟨[noEgress, mayEgress], by decide⟩, sampleAuthority⟩

def connect : Action := ⟨.network, "connect", "", [], none, some "example.com", none, none, false, []⟩

theorem connect_made : ∃ given, Action.postInit given = .ok connect := by
  refine ⟨connect, Action.postInit_iff.mpr ⟨some "example.com", ?_, rfl⟩⟩
  constructor
  case operation => decide
  case hosted => decide
  case context => exact ⟨1, by decide⟩
  all_goals simp [connect, hasNul, Action.needsResource, irrelevant, Action.allowedFields, Action.presentFields]

theorem example_hostMatches (ports : List Int) :
    NetworkRule.hostMatches ⟨"example.com", ports⟩ "example.com" = true := by
  have bare : NetworkRule.hostMatches ⟨"example.com", []⟩ "example.com" = true := by decide
  exact bare

theorem egress_matches {ports : List Int} {fine : ports.all portOk = true} {port : Option Int} :
    (egress ports fine).matches { connect with port := port } false = true ↔
      ports = [] ∨ ∃ p, port = some p ∧ p ∈ ports := by
  rw [Capability.matches_network rfl]
  constructor
  · rintro ⟨_, _, rule, ⟨⟨made, member, rfl⟩, _⟩, listed⟩
    rw [List.mem_singleton.mp member] at listed
    exact listed
  · intro listed
    exact ⟨rfl, rfl, _, ⟨⟨_, List.mem_cons_self, rfl⟩, _, rfl, example_hostMatches ports⟩, listed⟩

/-- The deny covers the action with every port, and the action without a port is allowed. -/
theorem unspecified_port_escapes :
    (∀ p, portOk p = true → (egressBroker.decide { connect with port := some p } [] none sampleTime).effect = .deny) ∧
      (egressBroker.decide connect [] none sampleTime).effect = .allow ∧
        ¬ egressBroker.Laws connect [] none sampleTime := by
  have every (p : Int) (fine : portOk p = true) : p ∈ portsTo 65535 := by
    simpa [mem_portsTo, portOk] using fine
  have some_port : portsTo 65535 ≠ [] := List.ne_nil_of_mem (every 443 rfl)
  have undenied : ¬ egressBroker.Denied connect := by
    rintro ⟨rule, member, deny, covers⟩
    rcases List.mem_cons.mp member with rfl | member
    · have listed : portsTo 65535 = [] ∨ ∃ p, none = some p ∧ p ∈ portsTo 65535 := egress_matches.mp covers
      simp [some_port] at listed
    · rw [List.mem_singleton.mp member] at deny
      cases deny
  have unapproved : ¬ egressBroker.Ruled .requireApproval connect := by
    rintro ⟨rule, member, approval, _⟩
    rcases List.mem_cons.mp member with rfl | member
    · cases approval
    · rw [List.mem_singleton.mp member] at approval
      cases approval
  have labelled : (egress [] rfl).matches connect true = (egress [] rfl).matches connect false := by
    simp [Capability.matches, connect, egress]
  have matched : (egress [] rfl).matches connect false = true := egress_matches.mpr (.inl rfl)
  have allowed : (egressBroker.decide connect [] none sampleTime).effect = .allow := by
    have ruled : egressBroker.Ruled .allow connect :=
      ⟨mayEgress, List.mem_cons_of_mem _ List.mem_cons_self, rfl, labelled.trans matched⟩
    exact of_decide_eq_true (Broker.allowed_iff.mpr ⟨undenied, .inr ⟨unapproved, ruled⟩⟩)
  refine ⟨?_, allowed, ?_⟩
  · intro p fine
    exact (Broker.decide_denied ⟨noEgress, List.mem_cons_self, rfl, egress_matches.mpr (.inr ⟨p, rfl, every p fine⟩)⟩).1
  · intro laws
    have covers : noEgress.value.capability.value.CoversEvery connect := by
      refine ⟨⟨_, .port 443 rfl rfl rfl⟩, ?_⟩
      intro other specified
      cases specified with
      | port p _ _ fine => exact egress_matches.mpr (.inr ⟨p, rfl, every p fine⟩)
      | amount x budget => cases budget
      | path text filesystem => cases filesystem
    have denied := (laws.unspecified noEgress List.mem_cons_self rfl covers).1
    rw [allowed] at denied
    cases denied

end Onmc.ToolBroker
