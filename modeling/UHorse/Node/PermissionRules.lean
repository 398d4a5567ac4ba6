import UHorse.Lib.StableOrder
import UHorse.Node.Permission

/-!
# Rule updates and what a check makes of them

The manager keeps its rules sorted after every update. Beside it stands the list of the
rules in the order in which they were added, from which a check can be told without the
sorting: the foremost of the matching rules decides.
-/

namespace UHorse.Node

open UHorse.Lib UHorse.Protocol

namespace PermissionManager

/-- Whether a rule was removed, and the manager without the rules of this id. -/
def removeRule (manager : PermissionManager) (id : String) : Bool × PermissionManager :=
  let kept := manager.rules.filter fun rule => rule.id ≠ id
  (decide (kept.length < manager.rules.length), { manager with rules := kept })

end PermissionManager

/-- An update of the rules of a node. -/
inductive RuleUpdate
  | addRule (rule : PermissionRule)
  | removeRule (id : String)
  | replaceRules (rules : List PermissionRule)

namespace RuleUpdate

def apply (manager : PermissionManager) : RuleUpdate → PermissionManager
  | .addRule rule => manager.addRule rule
  | .removeRule id => (manager.removeRule id).2
  | .replaceRules rules => manager.replaceRules rules

/-- The rules in the order of their addition, after one more update. -/
def record (added : List PermissionRule) : RuleUpdate → List PermissionRule
  | .addRule rule => added ++ [rule]
  | .removeRule id => added.filter fun rule => rule.id ≠ id
  | .replaceRules rules => rules

end RuleUpdate

/-- The manager after a sequence of updates. -/
def afterUpdates (gitProtectionEnabled : Bool) (updates : List RuleUpdate) : PermissionManager :=
  updates.foldl RuleUpdate.apply (.new gitProtectionEnabled)

/-- The rules that are there after a sequence of updates, in the order of their addition. -/
def addedRules (updates : List RuleUpdate) : List PermissionRule :=
  updates.foldl RuleUpdate.record []

namespace PermissionRule

/-- What a rule says of the commands it matches. -/
def decision (rule : PermissionRule) (env : CheckEnv) : PermissionResult :=
  if rule.requireApproval then
    .requiresApproval env.requestId ("Rule '" ++ rule.name ++ "' requires approval")
  else .allowed

end PermissionRule

/-- What the rules alone say of a command: the decision of the foremost matching rule, or
a denial if none matches. -/
structure RulesSay (rules : List PermissionRule) (env : CheckEnv) (command : Command)
    (context : TaskContext) (result : PermissionResult) : Prop where
  unmatched : (∀ rule ∈ rules, rule.matchesCommand env command context = false) →
    result = .denied "No matching permission rule"
  matched : (∃ rule ∈ rules, rule.matchesCommand env command context = true) →
    ∃ rule, Foremost PermissionRule.priority (fun rule => rule.matchesCommand env command context)
      rules rule ∧ result = rule.decision env

/-- What a check says: the workspace and the git check come first, then the rules. -/
structure Evaluates (rules : List PermissionRule) (manager : PermissionManager) (env : CheckEnv)
    (command : Command) (context : TaskContext) : Prop where
  workspace : ∀ reason, PermissionManager.checkWorkspace env command = some reason →
    manager.check env command context = .denied reason
  gitSafety : ∀ reason, PermissionManager.checkWorkspace env command = none →
    manager.checkGitSafety env command = some reason →
    manager.check env command context = .denied reason
  rules : PermissionManager.checkWorkspace env command = none →
    manager.checkGitSafety env command = none →
    RulesSay rules env command context (manager.check env command context)

/-- The stored rules are those added, in order; they are evaluated as they should be; and a
denial stays when there are fewer of them. -/
structure RulesKept (rules : List PermissionRule) (manager : PermissionManager) : Prop where
  order : StablySorted PermissionRule.priority rules manager.rules
  evaluates : ∀ env command context, Evaluates rules manager env command context
  removed : ∀ env command context reason id,
    manager.check env command context = .denied reason →
    (manager.removeRule id).2.check env command context = .denied reason
  lowered : ∀ env command context reason fewer, fewer ⊆ rules →
    manager.check env command context = .denied reason →
    (manager.replaceRules fewer).check env command context = .denied reason

/-! ## The order of the rules -/

theorem higherFirst_iff (a b : PermissionRule) :
    decide (b.priority ≤ a.priority) = true ↔ b.priority ≤ a.priority :=
  decide_eq_true_iff

theorem order_apply {added : List PermissionRule} {manager : PermissionManager}
    (order : StablySorted PermissionRule.priority added manager.rules) (update : RuleUpdate) :
    StablySorted PermissionRule.priority (update.record added) (update.apply manager).rules := by
  cases update with
  | addRule rule => exact order.append higherFirst_iff [rule]
  | removeRule id => exact order.filter _
  | replaceRules rules => exact .of_mergeSort higherFirst_iff rules

theorem order_afterUpdates (gitProtectionEnabled : Bool) (updates : List RuleUpdate) :
    StablySorted PermissionRule.priority (addedRules updates)
      (afterUpdates gitProtectionEnabled updates).rules := by
  induction updates using List.reverseRecOn with
  | nil => exact ⟨.refl _, .nil, fun _ => rfl⟩
  | append_singleton updates update ih =>
    rw [addedRules, afterUpdates, List.foldl_concat, List.foldl_concat]
    exact order_apply ih update

/-! ## The check -/

namespace PermissionManager

variable {manager : PermissionManager} {env : CheckEnv} {command : Command}
  {context : TaskContext}

/-- What the stored rules say once the workspace and the git check have passed. -/
def checkRules (manager : PermissionManager) (env : CheckEnv) (command : Command)
    (context : TaskContext) : PermissionResult :=
  match manager.rules.find? (fun rule => rule.matchesCommand env command context) with
  | some rule => rule.decision env
  | none => .denied "No matching permission rule"

theorem check_of_workspace {reason : String} (refused : checkWorkspace env command = some reason) :
    manager.check env command context = .denied reason := by
  rw [check, refused]

theorem check_of_gitSafety {reason : String} (passed : checkWorkspace env command = none)
    (refused : manager.checkGitSafety env command = some reason) :
    manager.check env command context = .denied reason := by
  rw [check, passed, refused]

theorem check_of_passed (passed : checkWorkspace env command = none)
    (safe : manager.checkGitSafety env command = none) :
    manager.check env command context = manager.checkRules env command context := by
  rw [check, passed, safe]
  rfl

theorem checkRules_eq_denied_iff {reason : String} :
    manager.checkRules env command context = .denied reason ↔
      reason = "No matching permission rule" ∧
        ∀ rule ∈ manager.rules, rule.matchesCommand env command context = false := by
  unfold checkRules
  split
  · next rule found =>
      have matched := List.find?_some found
      have member := List.mem_of_find?_eq_some found
      constructor
      · intro denied
        rw [PermissionRule.decision] at denied
        split at denied <;> cases denied
      · rintro ⟨-, unmatched⟩
        rw [unmatched rule member] at matched
        cases matched
  · next missing =>
      rw [List.find?_eq_none] at missing
      constructor
      · intro denied
        cases denied
        exact ⟨rfl, fun rule member => by simpa using missing rule member⟩
      · rintro ⟨rfl, -⟩
        rfl

/-- A denial stays when rules are taken away. -/
theorem check_denied_of_subset {fewer : PermissionManager} {reason : String}
    (sameGit : fewer.gitProtectionEnabled = manager.gitProtectionEnabled)
    (subset : fewer.rules ⊆ manager.rules)
    (denied : manager.check env command context = .denied reason) :
    fewer.check env command context = .denied reason := by
  have safety : fewer.checkGitSafety env command = manager.checkGitSafety env command := by
    unfold checkGitSafety
    rw [sameGit]
  cases workspace : checkWorkspace env command with
  | some refusal =>
    rw [check_of_workspace workspace] at denied ⊢
    exact denied
  | none =>
    cases git : manager.checkGitSafety env command with
    | some refusal =>
      rw [check_of_gitSafety workspace git] at denied
      rw [check_of_gitSafety workspace (safety.trans git)]
      exact denied
    | none =>
      rw [check_of_passed workspace git, checkRules_eq_denied_iff] at denied
      rw [check_of_passed workspace (safety.trans git), checkRules_eq_denied_iff]
      exact ⟨denied.1, fun rule member => denied.2 rule (subset member)⟩

theorem rulesSay_checkRules {rules : List PermissionRule}
    (order : StablySorted PermissionRule.priority rules manager.rules) :
    RulesSay rules env command context (manager.checkRules env command context) := by
  refine ⟨?_, ?_⟩
  · intro unmatched
    rw [checkRules_eq_denied_iff]
    exact ⟨rfl, fun rule member => unmatched rule (order.perm.mem_iff.mp member)⟩
  · rintro ⟨rule, member, matched⟩
    cases found : manager.rules.find? (fun rule => rule.matchesCommand env command context) with
    | none =>
      have missing := List.find?_eq_none.mp found rule (order.perm.mem_iff.mpr member)
      exact absurd matched missing
    | some first =>
      exact ⟨first, order.foremost_of_find? found, by rw [checkRules, found]⟩

end PermissionManager

/-- After any updates the rules are kept in order and decide every check. -/
theorem rulesKept_afterUpdates (gitProtectionEnabled : Bool) (updates : List RuleUpdate) :
    RulesKept (addedRules updates) (afterUpdates gitProtectionEnabled updates) := by
  have order := order_afterUpdates gitProtectionEnabled updates
  refine ⟨order, ?_, ?_, ?_⟩
  · intro env command context
    refine ⟨fun reason => PermissionManager.check_of_workspace,
      fun reason => PermissionManager.check_of_gitSafety, ?_⟩
    intro passed safe
    rw [PermissionManager.check_of_passed passed safe]
    exact PermissionManager.rulesSay_checkRules order
  · intro env command context reason id
    exact PermissionManager.check_denied_of_subset rfl (List.filter_subset_self _)
  · intro env command context reason fewer subset
    refine PermissionManager.check_denied_of_subset rfl ?_
    intro rule member
    have inside : rule ∈ fewer := (List.mergeSort_perm fewer _).mem_iff.mp member
    exact order.perm.mem_iff.mpr (subset inside)

end UHorse.Node
