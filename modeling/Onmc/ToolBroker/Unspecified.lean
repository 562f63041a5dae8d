import Onmc.ToolBroker.Broker

/-! An action that leaves an optional attribute unspecified, and a capability that covers it with
every concrete value of the attribute. -/
namespace Onmc.ToolBroker

open Onmc.Runtime (Checked check check_ok)

variable [Platform]

/-- The second action is the first with a value for the attribute that it leaves unspecified. -/
inductive Specified (action : Action) : Action → Prop
  | port (p : Int) : action.actionType = .network → action.port = none → portOk p = true →
      Specified action { action with port := some p }
  | amount (x : Num) : action.actionType = .budget → action.amount = none → amountOk x = true →
      Specified action { action with amount := some x }
  | path (text : String) : action.actionType = .filesystem → action.path = none → clean text = true →
      Specified action { action with path := some text }

/-- What the constructor of an action checked. -/
structure Action.Checks (given : Action) (host : Option String) : Prop where
  operation : nonempty given.operation "operation" = .ok ()
  resource : hasNul given.resource = false
  needsResource : Action.needsResource given.actionType = true → given.resource ≠ ""
  argv : given.argv.all clean = true
  command : given.actionType = .command → given.argv ≠ []
  path : given.path.all clean = true
  filesystem : given.actionType = .filesystem → given.path.isSome = true
  hosted : given.host.mapM canonicalHost = .ok host
  network : given.actionType = .network → host.isSome = true
  port : given.port.all portOk = true
  amount : given.amount.all amountOk = true
  relevant : irrelevant (Action.allowedFields given.actionType) given.presentFields = []
  context : ∃ count, freezeJson 0 0 (.obj given.context) = .ok count

theorem Action.postInit_iff {given action : Action} :
    Action.postInit given = .ok action ↔ ∃ host, Action.Checks given host ∧ action = { given with host := host } := by
  constructor
  · intro h
    obtain ⟨_, operation, h⟩ := Except.bind_ok.mp h
    obtain ⟨_, resource, h⟩ := Except.bind_ok.mp h
    obtain ⟨_, needsResource, h⟩ := Except.bind_ok.mp h
    obtain ⟨_, argv, h⟩ := Except.bind_ok.mp h
    obtain ⟨_, command, h⟩ := Except.bind_ok.mp h
    obtain ⟨_, path, h⟩ := Except.bind_ok.mp h
    obtain ⟨_, filesystem, h⟩ := Except.bind_ok.mp h
    obtain ⟨host, hosted, h⟩ := Except.bind_ok.mp h
    obtain ⟨_, network, h⟩ := Except.bind_ok.mp h
    obtain ⟨_, port, h⟩ := Except.bind_ok.mp h
    obtain ⟨_, amount, h⟩ := Except.bind_ok.mp h
    obtain ⟨_, relevant, h⟩ := Except.bind_ok.mp h
    obtain ⟨count, context, h⟩ := Except.bind_ok.mp h
    cases h
    exact ⟨host, ⟨operation, check_ok.mp resource, check_ok.mp needsResource, check_ok.mp argv, check_ok.mp command,
      check_ok.mp path, check_ok.mp filesystem, hosted, check_ok.mp network, check_ok.mp port, check_ok.mp amount,
      check_ok.mp relevant, count, context⟩, rfl⟩
  · rintro ⟨host, checks, rfl⟩
    obtain ⟨count, context⟩ := checks.context
    simp only [Action.postInit, checks.operation, check_ok.mpr checks.resource, check_ok.mpr checks.needsResource,
      check_ok.mpr checks.argv, check_ok.mpr checks.command, check_ok.mpr checks.path, check_ok.mpr checks.filesystem,
      checks.hosted, check_ok.mpr checks.network, check_ok.mpr checks.port, check_ok.mpr checks.amount,
      check_ok.mpr checks.relevant, context, Except.ok_bind]
    rfl

/-- A specified action is one that the constructor accepts. -/
theorem Specified.made (action : Made Action.postInit) {other : Action} (h : Specified action.value other) :
    ∃ given, Action.postInit given = .ok other := by
  obtain ⟨action, given, made⟩ := action
  obtain ⟨host, checks, rfl⟩ := Action.postInit_iff.mp made
  have relevant := checks.relevant
  cases h with
  | port p network unspecified fine =>
    refine ⟨{ given with port := some p }, Action.postInit_iff.mpr ⟨host, { checks with port := fine, relevant := ?_ }, rfl⟩⟩
    have network : given.actionType = .network := network
    simpa [irrelevant, Action.presentFields, Action.allowedFields, network, List.filter_cons] using relevant
  | amount x budget unspecified fine =>
    refine ⟨{ given with amount := some x }, Action.postInit_iff.mpr ⟨host, { checks with amount := fine, relevant := ?_ }, rfl⟩⟩
    have budget : given.actionType = .budget := budget
    simpa [irrelevant, Action.presentFields, Action.allowedFields, budget, List.filter_cons] using relevant
  | path text filesystem unspecified fine =>
    have specified := checks.filesystem filesystem
    have unspecified : given.path = none := unspecified
    rw [unspecified] at specified
    cases specified

/-! What a capability makes of an unspecified attribute. -/

theorem NetworkRule.matches_iff {rule : NetworkRule} {host : String} {port : Option Int} :
    rule.matches host port = true ↔
      rule.hostMatches host = true ∧ (rule.ports = [] ∨ ∃ p, port = some p ∧ p ∈ rule.ports) := by
  have refused : rule.portRefused port = true ↔ ¬ (rule.ports = [] ∨ ∃ p, port = some p ∧ p ∈ rule.ports) := by
    cases port with
    | none => simp [NetworkRule.portRefused]
    | some p => simp [NetworkRule.portRefused]
  unfold NetworkRule.matches
  split
  · rename_i h
    simp [refused.mp h]
  · rename_i h
    have admitted := not_not.mp (mt refused.mpr h)
    simp [admitted]

namespace Capability

/-- A network rule of the capability covers the host. -/
def HostRule (c : Capability) (action : Action) (rule : NetworkRule) : Prop :=
  (∃ made ∈ c.networkRules, made.value = rule) ∧ ∃ host, action.host = some host ∧ rule.hostMatches host = true

theorem matches_network {c : Capability} {action : Action} (network : action.actionType = .network) :
    c.matches action false = true ↔ c.actionType = .network ∧ c.operationMatches action.operation = true ∧
      ∃ rule, c.HostRule action rule ∧ (rule.ports = [] ∨ ∃ p, action.port = some p ∧ p ∈ rule.ports) := by
  unfold «matches»
  rw [network]
  by_cases kind : c.actionType = .network
  · simp only [kind, scopeMatches, ne_eq, not_true_eq_false, if_false, Bool.false_and, Bool.false_eq_true, true_and]
    cases operates : c.operationMatches action.operation with
    | false => simp
    | true =>
      simp only [Bool.not_true, Bool.false_eq_true, if_false, true_and, Option.any_eq_true, List.any_eq_true,
        NetworkRule.matches_iff, HostRule]
      constructor
      · rintro ⟨host, given, made, member, matched, ports⟩
        exact ⟨made.value, ⟨⟨made, member, rfl⟩, host, given, matched⟩, ports⟩
      · rintro ⟨_, ⟨⟨made, member, rfl⟩, host, given, matched⟩, ports⟩
        exact ⟨host, given, made, member, matched, ports⟩
  · simp [kind, Ne.symm kind]

theorem matches_budget {c : Capability} {action : Action} (budget : action.actionType = .budget) :
    c.matches action false = true ↔ c.actionType = .budget ∧ c.operationMatches action.operation = true ∧
      c.resourceMatches action.resource = true ∧
        ∀ m, c.maxAmount = some m → ∃ x, action.amount = some x ∧ x.le m = true := by
  unfold «matches»
  rw [budget]
  by_cases kind : c.actionType = .budget
  · simp only [kind, scopeMatches, ne_eq, not_true_eq_false, if_false, Bool.false_and, Bool.false_eq_true, true_and]
    cases operates : c.operationMatches action.operation with
    | false => simp
    | true =>
      cases owned : c.resourceMatches action.resource with
      | false => simp
      | true => simp [Option.all_eq_true, Option.any_eq_true]
  · simp [kind, Ne.symm kind]

/-- The rules for the host of the action name every port, each of them in words. -/
structure NamesEveryPort (c : Capability) (action : Action) : Prop where
  network : action.actionType = .network
  unspecified : action.port = none
  kind : c.actionType = .network
  operates : c.operationMatches action.operation = true
  named : ∀ rule, c.HostRule action rule → rule.ports ≠ []
  every : ∀ p, portOk p = true → ∃ rule, c.HostRule action rule ∧ p ∈ rule.ports

/-- The limit is the largest amount there is. -/
structure NamesEveryAmount (c : Capability) (action : Action) : Prop where
  budget : action.actionType = .budget
  unspecified : action.amount = none
  kind : c.actionType = .budget
  operates : c.operationMatches action.operation = true
  owned : c.resourceMatches action.resource = true
  limit : c.maxAmount = some largestAmount

/-- The capability covers the action with every value of the attribute that it leaves unspecified. -/
def CoversEvery (c : Capability) (action : Action) : Prop :=
  (∃ other, Specified action other) ∧ ∀ other, Specified action other → c.matches other false = true

theorem escapes_port (c : Capability) {action : Action} (network : action.actionType = .network)
    (unspecified : action.port = none) :
    (c.CoversEvery action ∧ c.matches action false = false) ↔ c.NamesEveryPort action := by
  have alone : c.matches action false = true ↔ c.actionType = .network ∧
      c.operationMatches action.operation = true ∧ ∃ rule, c.HostRule action rule ∧ rule.ports = [] := by
    rw [matches_network network, unspecified]
    simp
  have with_port (p : Int) : c.matches { action with port := some p } false = true ↔ c.actionType = .network ∧
      c.operationMatches action.operation = true ∧ ∃ rule, c.HostRule action rule ∧ (rule.ports = [] ∨ p ∈ rule.ports) := by
    have network' : ({ action with port := some p } : Action).actionType = .network := network
    rw [matches_network network']
    simp [HostRule]
  constructor
  · rintro ⟨⟨_, covers⟩, escapes⟩
    have escapes : ¬ c.matches action false = true := Bool.not_eq_true _ ▸ escapes
    have covers (p : Int) (fine : portOk p = true) := (with_port p).mp (covers _ (.port p network unspecified fine))
    obtain ⟨kind, operates, _⟩ := covers 443 rfl
    have named (rule : NetworkRule) (hosts : c.HostRule action rule) : rule.ports ≠ [] := by
      intro free
      exact escapes (alone.mpr ⟨kind, operates, rule, hosts, free⟩)
    refine ⟨network, unspecified, kind, operates, named, ?_⟩
    intro p fine
    obtain ⟨_, _, rule, hosts, ports⟩ := covers p fine
    exact ⟨rule, hosts, ports.resolve_left (named rule hosts)⟩
  · intro every
    refine ⟨⟨⟨_, .port 443 network unspecified rfl⟩, ?_⟩, ?_⟩
    · intro other specified
      cases specified with
      | port p _ _ fine =>
        obtain ⟨rule, hosts, listed⟩ := every.every p fine
        exact (with_port p).mpr ⟨every.kind, every.operates, rule, hosts, .inr listed⟩
      | amount x budget => cases network.symm.trans budget
      | path text filesystem => cases network.symm.trans filesystem
    · rw [← Bool.not_eq_true, alone]
      rintro ⟨_, _, rule, hosts, free⟩
      exact every.named rule hosts free

theorem escapes_amount (c : Made Capability.postInit) {action : Action} (budget : action.actionType = .budget)
    (unspecified : action.amount = none) :
    (c.value.CoversEvery action ∧ c.value.matches action false = false) ↔ c.value.NamesEveryAmount action := by
  have alone : c.value.matches action false = true ↔ c.value.actionType = .budget ∧
      c.value.operationMatches action.operation = true ∧ c.value.resourceMatches action.resource = true ∧
        c.value.maxAmount = none := by
    rw [matches_budget budget, unspecified]
    simp [Option.eq_none_iff_forall_ne_some]
  have with_amount (x : Num) : c.value.matches { action with amount := some x } false = true ↔
      c.value.actionType = .budget ∧ c.value.operationMatches action.operation = true ∧
        c.value.resourceMatches action.resource = true ∧ ∀ m, c.value.maxAmount = some m → x.le m = true := by
    have budget' : ({ action with amount := some x } : Action).actionType = .budget := budget
    rw [matches_budget budget']
    simp
  have accepted := ((postInit_iff _ _).mp (TokenAuthority.capability_again c)).2.2.2.1
  constructor
  · rintro ⟨⟨_, covers⟩, escapes⟩
    have escapes : ¬ c.value.matches action false = true := Bool.not_eq_true _ ▸ escapes
    have covers (x : Num) (fine : amountOk x = true) :=
      (with_amount x).mp (covers _ (.amount x budget unspecified fine))
    obtain ⟨kind, operates, owned, _⟩ := covers largestAmount amountOk_largest
    refine ⟨budget, unspecified, kind, operates, owned, ?_⟩
    cases hm : c.value.maxAmount with
    | none => exact absurd (alone.mpr ⟨kind, operates, owned, hm⟩) escapes
    | some m =>
      rw [hm] at accepted
      exact congrArg some ((all_le_iff accepted).mp fun x fine => (covers x fine).2.2.2 m hm)
  · intro every
    refine ⟨⟨⟨_, .amount _ budget unspecified amountOk_largest⟩, ?_⟩, ?_⟩
    · intro other specified
      cases specified with
      | port p network => cases budget.symm.trans network
      | amount x _ _ fine =>
        refine (with_amount x).mpr ⟨every.kind, every.operates, every.owned, ?_⟩
        intro m hm
        cases every.limit.symm.trans hm
        exact (all_le_iff amountOk_largest).mpr rfl x fine
      | path text filesystem => cases budget.symm.trans filesystem
    · rw [← Bool.not_eq_true, alone, every.limit]
      simp

/-- A capability that covers every value of an unspecified attribute misses the action without it
exactly when it names the values one by one. -/
theorem escapes_iff (c : Made Capability.postInit) (action : Made Action.postInit) :
    (c.value.CoversEvery action.value ∧ c.value.matches action.value false = false) ↔
      (c.value.NamesEveryPort action.value ∨ c.value.NamesEveryAmount action.value) := by
  constructor
  · rintro ⟨covers, escapes⟩
    obtain ⟨other, specified⟩ := covers.1
    cases specified with
    | port p network unspecified fine =>
      exact .inl ((escapes_port c.value network unspecified).mp ⟨covers, escapes⟩)
    | amount x budget unspecified fine => exact .inr ((escapes_amount c budget unspecified).mp ⟨covers, escapes⟩)
    | path text filesystem unspecified fine =>
      -- the constructor asks for the path
      obtain ⟨given, made⟩ := action.made
      obtain ⟨host, checks, same⟩ := Action.postInit_iff.mp made
      rw [same] at filesystem unspecified
      have present := checks.filesystem filesystem
      rw [show given.path = none from unspecified] at present
      cases present
  · rintro (every | every)
    · exact (escapes_port c.value every.network every.unspecified).mpr every
    · exact (escapes_amount c every.budget every.unspecified).mpr every

end Capability

end Onmc.ToolBroker
