import Mathlib.Data.Fintype.EquivFin
import UHorse.Node.Permission

/-!
# Permission rules on their way from the Hub to a node

A pushed rule is written in the protocol's rule language and converted into the
node's. A conversion must not widen a rule: what the converted rule lets through
has to be covered by the pattern, the actions and the conditions of the pushed
one. Patterns and actions are translated one by one; conditions are dropped, so
the conversion is faithful for rules whose conditions never restrict anything.
-/

namespace UHorse.Node

open UHorse.Lib UHorse.Protocol

/-- The condition of the node's language with the same name and content. -/
def conditionCounterpart : ProtocolCondition → Condition
  | .timeRange start finish => .timeRange start finish
  | .ipWhitelist ips => .ipWhitelist ips
  | .userRestriction allowedUsers => .userRestriction allowedUsers
  | .sizeLimit maxBytes => .sizeLimit maxBytes

/-- The name of an action in the protocol. -/
def actionName : Action → ProtocolAction
  | .read => .read
  | .write => .write
  | .delete => .delete
  | .execute => .execute
  | .admin => .admin

/-- What the pushed pattern says of a command. -/
def patternCovers (env : CheckEnv) (command : Command) : ProtocolResourcePattern → Prop
  | .exact path => ResourcePattern.commandPath command = some path
  | .pathPrefix value => ∃ path, ResourcePattern.commandPath command = some path ∧
      startsWith path value = true
  | .glob pattern => ∃ path, ResourcePattern.filePath command = some path ∧
      env.globMatch pattern path = true
  | .regex pattern => ∃ path, ResourcePattern.filePath command = some path ∧
      containsText path pattern = true

/-- Everything the pushed rule asks of a command and its context. -/
structure Covers (env : CheckEnv) (rule : ProtocolPermissionRule) (command : Command)
    (context : TaskContext) : Prop where
  resource : patternCovers env command rule.resource
  actions : ∀ action ∈ PermissionRule.getRequiredActions command, actionName action ∈ rule.actions
  conditions : ∀ condition ∈ rule.conditions,
    (conditionCounterpart condition).evaluate env.now context = true

/-- The converted rule is no weaker than the pushed one. -/
structure NeverWeakened (rule : ProtocolPermissionRule) : Prop where
  covers : ∀ env command context,
    (convertProtocolPermissionRule rule).matchesCommand env command context = true →
    Covers env rule command context
  approval : rule.requireApproval = true →
    (convertProtocolPermissionRule rule).requireApproval = true

/-! ## What a conversion keeps -/

section Converted

variable {env : CheckEnv} {rule : ProtocolPermissionRule} {command : Command}
  {context : TaskContext}

theorem convertProtocolAction_eq_some {action : ProtocolAction} {converted : Action} :
    convertProtocolAction action = some converted ↔ action = actionName converted := by
  cases action <;> cases converted <;> decide

theorem mem_converted_iff {actions : List ProtocolAction} {action : Action} :
    action ∈ actions.filterMap convertProtocolAction ↔ actionName action ∈ actions := by
  simp [List.mem_filterMap, convertProtocolAction_eq_some]

theorem matchesCommand_converted_iff {pattern : ProtocolResourcePattern} :
    (convertProtocolResourcePattern pattern).matchesCommand env command = true ↔
      patternCovers env command pattern := by
  cases pattern <;>
    simp [convertProtocolResourcePattern, ResourcePattern.matchesCommand, patternCovers,
      Option.any_eq_true]

/-- The converted rule asks for the pattern and the actions, and for no condition. -/
theorem converted_matches_iff :
    (convertProtocolPermissionRule rule).matchesCommand env command context = true ↔
      rule.enabled = true ∧ patternCovers env command rule.resource ∧
        ∀ action ∈ PermissionRule.getRequiredActions command,
          actionName action ∈ rule.actions := by
  rw [PermissionRule.matchesCommand_iff]
  simp only [convertProtocolPermissionRule, PermissionRule.new, matchesCommand_converted_iff,
    mem_converted_iff]
  simp

end Converted

/-! ## Rules that match something -/

/-- Some command needs only actions the rule names and lies under its pattern. -/
def Matchable (rule : ProtocolPermissionRule) : Prop :=
  .read ∈ rule.actions ∨ .write ∈ rule.actions ∨ .delete ∈ rule.actions ∨
    (.execute ∈ rule.actions ∧
      ((∃ path, rule.resource = .exact path) ∨ ∃ value, rule.resource = .pathPrefix value))

theorem startsWith_self (text : String) : startsWith text text = true := by
  simp [startsWith]

theorem containsText_self (text : String) : containsText text text = true := by
  simp [containsText]

/-- A check at `now` with a `glob_match` that accepts everything. -/
def generousEnv (now : DateTime) : CheckEnv where
  now := now
  globMatch _ _ := true
  toLowercase text := text
  canAccess _ _ := .ok true
  root := ""
  requestId := ""

/-- Every pattern covers a command on some path, and with it all commands on the path. -/
theorem patternCovers_file (now : DateTime) (pattern : ProtocolResourcePattern) :
    ∃ path, ∀ command : FileCommand, command.targetPath = path →
      patternCovers (generousEnv now) (.file command) pattern := by
  cases pattern with
  | exact path => exact ⟨path, fun command same => congrArg some same⟩
  | pathPrefix value =>
    exact ⟨value, fun command same => ⟨value, congrArg some same, startsWith_self value⟩⟩
  | glob pattern => exact ⟨"", fun command same => ⟨"", congrArg some same, rfl⟩⟩
  | regex pattern =>
    exact ⟨pattern, fun command same => ⟨pattern, congrArg some same, containsText_self pattern⟩⟩

theorem exists_command {rule : ProtocolPermissionRule} (matchable : Matchable rule)
    (now : DateTime) : ∃ command, patternCovers (generousEnv now) command rule.resource ∧
      ∀ action ∈ PermissionRule.getRequiredActions command, actionName action ∈ rule.actions := by
  obtain ⟨path, covered⟩ := patternCovers_file now rule.resource
  obtain read | write | delete | ⟨execute, directory⟩ := matchable
  · refine ⟨.file (.exists path), covered _ rfl, ?_⟩
    simpa [PermissionRule.getRequiredActions, actionName] using read
  · refine ⟨.file (.append path ""), covered _ rfl, ?_⟩
    simpa [PermissionRule.getRequiredActions, actionName] using write
  · refine ⟨.file (.delete path false), covered _ rfl, ?_⟩
    simpa [PermissionRule.getRequiredActions, actionName] using delete
  · -- Only these two patterns look at the directory of a shell command.
    obtain ⟨path, exact⟩ | ⟨value, start⟩ := directory
    · refine ⟨.shell ⟨"", [], some path, ∅, ⟨0, 0⟩, false⟩, ?_, ?_⟩
      · rw [exact]
        rfl
      · simpa [PermissionRule.getRequiredActions, actionName] using execute
    · refine ⟨.shell ⟨"", [], some value, ∅, ⟨0, 0⟩, false⟩, ?_, ?_⟩
      · rw [start]
        exact ⟨value, rfl, startsWith_self value⟩
      · simpa [PermissionRule.getRequiredActions, actionName] using execute

theorem file_requires (command : FileCommand) :
    ∃ action ∈ PermissionRule.getRequiredActions (.file command),
      action = .read ∨ action = .write ∨ action = .delete := by
  cases command <;> simp [PermissionRule.getRequiredActions]

theorem matchable_of_covers {env : CheckEnv} {rule : ProtocolPermissionRule} {command : Command}
    (covered : patternCovers env command rule.resource)
    (actions : ∀ action ∈ PermissionRule.getRequiredActions command,
      actionName action ∈ rule.actions) : Matchable rule := by
  -- Other commands are executed, and only two patterns look at their directory.
  have executed : ResourcePattern.filePath command = none → .execute ∈ rule.actions →
      Matchable rule := by
    intro pathless execute
    refine .inr (.inr (.inr ⟨execute, ?_⟩))
    cases pattern : rule.resource with
    | exact path => exact .inl ⟨path, rfl⟩
    | pathPrefix value => exact .inr ⟨value, rfl⟩
    | glob text =>
      rw [pattern] at covered
      obtain ⟨path, found, -⟩ := covered
      rw [pathless] at found
      cases found
    | regex text =>
      rw [pattern] at covered
      obtain ⟨path, found, -⟩ := covered
      rw [pathless] at found
      cases found
  cases command with
  | file command =>
    obtain ⟨action, required, kind⟩ := file_requires command
    have listed := actions action required
    obtain rfl | rfl | rfl := kind
    · exact .inl listed
    · exact .inr (.inl listed)
    · exact .inr (.inr (.inl listed))
  | _ => exact executed rfl (actions .execute List.mem_cons_self)

/-! ## Conditions that restrict nothing -/

/-- A time range that holds every time of day; sizes and addresses are not checked by
nodes, and no list of users holds every user. -/
def Unrestricting : ProtocolCondition → Prop
  | .timeRange start finish => ∀ now, start ≤ clockText now ∧ clockText now ≤ finish
  | .ipWhitelist _ => True
  | .userRestriction _ => False
  | .sizeLimit _ => True

theorem unrestricting_iff (condition : ProtocolCondition) : Unrestricting condition ↔
    ∀ now context, (conditionCounterpart condition).evaluate now context = true := by
  cases condition with
  | timeRange start finish =>
    simp only [Unrestricting, conditionCounterpart, Condition.evaluate, Bool.and_eq_true,
      decide_eq_true_eq]
    exact ⟨fun holds now _ => holds now, fun holds now => holds now (.new ⟨""⟩ ⟨""⟩ "" 0)⟩
  | ipWhitelist ips => exact iff_of_true trivial fun _ _ => rfl
  | sizeLimit maxBytes => exact iff_of_true trivial fun _ _ => rfl
  | userRestriction allowedUsers =>
    refine iff_of_false id ?_
    intro everyone
    obtain ⟨user, unlisted⟩ := Infinite.exists_notMem_finset allowedUsers.toFinset
    have listed := everyone 0 (.new ⟨user⟩ ⟨""⟩ "" 0)
    simp only [conditionCounterpart, Condition.evaluate, TaskContext.new,
      List.contains_iff_mem] at listed
    exact unlisted (List.mem_toFinset.mpr listed)

/-- A pushed rule arrives unweakened exactly if it is disabled, matches no command, or
has no condition that restricts anything. -/
theorem neverWeakened_iff (rule : ProtocolPermissionRule) : NeverWeakened rule ↔
    rule.enabled = false ∨ ¬ Matchable rule ∨
      ∀ condition ∈ rule.conditions, Unrestricting condition := by
  constructor
  · intro faithful
    by_contra weakened
    push Not at weakened
    obtain ⟨enabled, matchable, condition, member, restricting⟩ := weakened
    refine restricting ((unrestricting_iff condition).mpr ?_)
    intro now context
    obtain ⟨command, covered, actions⟩ := exists_command matchable now
    have allowed : (convertProtocolPermissionRule rule).matchesCommand (generousEnv now) command
        context = true :=
      converted_matches_iff.mpr ⟨by simpa using enabled, covered, actions⟩
    exact (faithful.covers (generousEnv now) command context allowed).conditions condition member
  · intro harmless
    refine ⟨?_, id⟩
    intro env command context allowed
    obtain ⟨enabled, covered, actions⟩ := converted_matches_iff.mp allowed
    refine ⟨covered, actions, ?_⟩
    obtain disabled | unmatchable | unrestricting := harmless
    · rw [enabled] at disabled
      cases disabled
    · exact absurd (matchable_of_covers covered actions) unmatchable
    · intro condition member
      exact (unrestricting_iff condition).mp (unrestricting condition member) env.now context

/-- Reading is allowed to one user only. -/
def readForAlice : ProtocolPermissionRule where
  id := "alice"
  name := "Alice reads"
  resource := .pathPrefix "/workspace"
  actions := [.read]
  conditions := [.userRestriction ["alice"]]
  requireApproval := false
  enabled := true

/-- The node lets everybody read. -/
theorem readForAlice_weakened : ¬ NeverWeakened readForAlice := by
  intro faithful
  have covered := faithful.covers (generousEnv 0) (.file (.exists "/workspace/notes"))
    (.new ⟨"bob"⟩ ⟨"session"⟩ "dingtalk" 0) (by decide)
  have listed := covered.conditions (.userRestriction ["alice"]) List.mem_cons_self
  revert listed
  decide

end UHorse.Node
