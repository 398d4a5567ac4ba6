import Mathlib.Data.List.Infix
import UHorse.Node.Workspace
import UHorse.Protocol.Message

/-!
# Permission rules and approvals of a node

`PermissionManager.check` decides whether a command runs at once, is refused or
waits for an approval. A waiting command is kept in `pendingApprovals` under the
id of its request, and `handleApprovalResponse` takes it out, whatever the
answer and also when it comes too late.
-/

namespace UHorse.Node

open UHorse.Lib UHorse.Protocol

inductive Action
  | read
  | write
  | delete
  | execute
  | admin
deriving DecidableEq, Repr

inductive ResourcePattern
  | allowAll
  | exactPath (path : String)
  | pathPrefix (value : String)
  | glob (pattern : String)
  | regex (pattern : String)
  | commandType (types : List String)
  | all (patterns : List ResourcePattern)
  | any (patterns : List ResourcePattern)

inductive Condition
  | timeRange (start finish : String)
  | userRestriction (allowedUsers : List String)
  | sizeLimit (maxBytes : Nat)
  | weekdayRestriction (allowedDays : List Nat)
  | ipWhitelist (allowedIps : List String)

structure PermissionRule where
  id : String
  name : String
  resource : ResourcePattern
  actions : List Action
  conditions : List Condition
  requireApproval : Bool
  priority : Int
  enabled : Bool

/-- What a permission check reads from outside: the clock, the `glob_match` crate,
Unicode lower-casing, and the workspace guard on the file system as it is at that
moment, with the text of its error. -/
structure CheckEnv where
  now : DateTime
  globMatch : String → String → Bool
  toLowercase : String → String
  canAccess : String → Bool → Except String Bool
  root : String
  requestId : String

def containsText (text part : String) : Bool := decide (part.toList <:+: text.toList)

def startsWith (text start : String) : Bool := start.toList.isPrefixOf text.toList

namespace ResourcePattern

/-- The directory a command names, if it is of a kind that has one. -/
def commandPath : Command → Option String
  | .file command => some command.targetPath
  | .shell command => command.cwd
  | .code command => command.workdir
  | _ => none

def filePath : Command → Option String
  | .file command => some command.targetPath
  | _ => none

/-- The debug text of a command type in lower case. -/
def commandTypeName : CommandType → String
  | .file => "file"
  | .shell => "shell"
  | .code => "code"
  | .database => "database"
  | .api => "api"
  | .browser => "browser"
  | .skill => "skill"

mutual

/-- A regular expression is only searched for as text. -/
def matchesCommand (env : CheckEnv) (command : Command) : ResourcePattern → Bool
  | .allowAll => true
  | .exactPath path => (commandPath command).any (fun found => found = path)
  | .pathPrefix value => (commandPath command).any (fun found => startsWith found value)
  | .glob pattern => (filePath command).any (fun found => env.globMatch pattern found)
  | .regex pattern => (filePath command).any (fun found => containsText found pattern)
  | .commandType types =>
    types.any (fun name => env.toLowercase name = commandTypeName command.commandType)
  | .all patterns => matchesAll env command patterns
  | .any patterns => matchesAny env command patterns

def matchesAll (env : CheckEnv) (command : Command) : List ResourcePattern → Bool
  | [] => true
  | pattern :: rest => matchesCommand env command pattern && matchesAll env command rest

def matchesAny (env : CheckEnv) (command : Command) : List ResourcePattern → Bool
  | [] => false
  | pattern :: rest => matchesCommand env command pattern || matchesAny env command rest

end

theorem matchesAll_iff {env : CheckEnv} {command : Command} {patterns : List ResourcePattern} :
    matchesAll env command patterns = true ↔
      ∀ pattern ∈ patterns, pattern.matchesCommand env command = true := by
  induction patterns with
  | nil => simp [matchesAll]
  | cons pattern rest ih => simp [matchesAll, ih]

theorem matchesAny_iff {env : CheckEnv} {command : Command} {patterns : List ResourcePattern} :
    matchesAny env command patterns = true ↔
      ∃ pattern ∈ patterns, pattern.matchesCommand env command = true := by
  induction patterns with
  | nil => simp [matchesAny]
  | cons pattern rest ih => simp [matchesAny, ih]

end ResourcePattern

/-- `%H:%M` of the time of day. -/
def clockText (now : DateTime) : String :=
  let minutes := (now / seconds 60).toNat % 1440
  let twoDigits := fun n : Nat => if n < 10 then "0" ++ Nat.repr n else Nat.repr n
  twoDigits (minutes / 60) ++ ":" ++ twoDigits (minutes % 60)

/-- Days since Sunday; the epoch began on a Thursday. -/
def weekday (now : DateTime) : Nat := ((now / seconds 86400).toNat + 4) % 7

def Condition.evaluate (now : DateTime) (context : TaskContext) : Condition → Bool
  | .timeRange start finish => decide (start ≤ clockText now) && decide (clockText now ≤ finish)
  | .userRestriction allowedUsers => allowedUsers.contains context.userId.value
  | .sizeLimit _ => true
  | .weekdayRestriction allowedDays => allowedDays.contains (weekday now)
  | .ipWhitelist _ => true

namespace PermissionRule

/-- `PermissionRule::new`, without its texts and dates nobody reads. -/
def new (id name : String) : PermissionRule where
  id := id
  name := name
  resource := .allowAll
  actions := [.read]
  conditions := []
  requireApproval := false
  priority := 0
  enabled := true

def getRequiredActions : Command → List Action
  | .file command =>
    match command with
    | .read .. => [.read]
    | .list .. => [.read]
    | .search .. => [.read]
    | .info .. => [.read]
    | .exists .. => [.read]
    | .write .. => [.write]
    | .append .. => [.write]
    | .delete .. => [.delete]
    | .copy .. => [.read, .write]
    | .move .. => [.read, .write, .delete]
    | .createDir .. => [.write]
  | _ => [.execute]

def matchesCommand (env : CheckEnv) (rule : PermissionRule) (command : Command)
    (context : TaskContext) : Bool :=
  if !rule.enabled then false
  else if !rule.resource.matchesCommand env command then false
  else if (getRequiredActions command).any (fun action => !rule.actions.contains action) then false
  else rule.conditions.all (fun condition => condition.evaluate env.now context)

theorem matchesCommand_iff {env : CheckEnv} {rule : PermissionRule} {command : Command}
    {context : TaskContext} :
    rule.matchesCommand env command context = true ↔
      rule.enabled = true ∧ rule.resource.matchesCommand env command = true ∧
        (∀ action ∈ getRequiredActions command, action ∈ rule.actions) ∧
        ∀ condition ∈ rule.conditions, condition.evaluate env.now context = true := by
  rw [matchesCommand]
  split
  · next disabled => simp_all
  · split
    · next unmatched => simp_all
    · split
      · next missing => simp_all
      · next listed => simp_all

end PermissionRule

inductive ApprovalStatus
  | pending
  | approved (approver : String) (approvedAt : DateTime)
  | rejected (rejector : String) (rejectedAt : DateTime) (reason : String)
  | expired
deriving DecidableEq

structure ApprovalRequest where
  id : String
  taskId : String
  command : Command
  context : TaskContext
  reason : String
  requestedAt : DateTime
  expiresAt : DateTime
  status : ApprovalStatus

inductive ApprovalResolution
  | approved (request : ApprovalRequest) (taskId : TaskId)
  | rejected (request : ApprovalRequest) (taskId : TaskId)

inductive PermissionResult
  | allowed
  | denied (reason : String)
  | requiresApproval (requestId reason : String)

structure PermissionManager where
  rules : List PermissionRule
  gitProtectionEnabled : Bool
  pendingApprovals : HashMap String ApprovalRequest
  approvalTimeoutSecs : Nat

def dangerousGitPatterns : List String :=
  ["git reset --hard", "git clean -fd", "git clean -f -d", "git checkout --",
    "git restore --source", "git push --force", "git push -f"]

namespace PermissionManager

def new (gitProtectionEnabled : Bool) : PermissionManager where
  rules := []
  gitProtectionEnabled := gitProtectionEnabled
  pendingApprovals := ∅
  approvalTimeoutSecs := 300

/-- Highest priority first; rules of equal priority keep their order. -/
def sortRules (rules : List PermissionRule) : List PermissionRule :=
  rules.mergeSort (fun a b => decide (b.priority ≤ a.priority))

def addRule (manager : PermissionManager) (rule : PermissionRule) : PermissionManager :=
  { manager with rules := sortRules (manager.rules ++ [rule]) }

def replaceRules (manager : PermissionManager) (rules : List PermissionRule) :
    PermissionManager :=
  { manager with rules := sortRules rules }

/-- One access check, with the text its refusal starts with. -/
def validatePath (env : CheckEnv) (refusal path : String) (write : Bool) : Option String :=
  match env.canAccess path write with
  | .ok true => none
  | .ok false => some (refusal ++ path)
  | .error error => some error

def validateFilePath (env : CheckEnv) (path : String) (write : Bool) : Option String :=
  validatePath env "Operation outside workspace: " path write

def validateShellWorkspace (env : CheckEnv) (command : ShellCommand) : Option String :=
  validatePath env "Shell working directory outside workspace: " (command.cwd.getD env.root) false

def validateCodeWorkspace (env : CheckEnv) (command : CodeCommand) : Option String :=
  validatePath env "Code working directory outside workspace: "
    (command.workdir.getD env.root) false

def checkWorkspace (env : CheckEnv) : Command → Option String
  | .file command =>
    match command with
    | .read path .. => validateFilePath env path false
    | .list path .. => validateFilePath env path false
    | .info path => validateFilePath env path false
    | .exists path => validateFilePath env path false
    | .search _ path .. => validateFilePath env path false
    | .write path .. => validateFilePath env path true
    | .append path .. => validateFilePath env path true
    | .delete path .. => validateFilePath env path true
    | .createDir path .. => validateFilePath env path true
    | .copy source target _ =>
      (validateFilePath env source false).orElse fun _ => validateFilePath env target true
    | .move source target _ =>
      (validateFilePath env source true).orElse fun _ => validateFilePath env target true
  | .shell command => validateShellWorkspace env command
  | .code command => validateCodeWorkspace env command
  | _ => none

/-- Only shell commands are looked at, as one lower-case line. -/
def checkGitSafety (manager : PermissionManager) (env : CheckEnv) (command : Command) :
    Option String :=
  if !manager.gitProtectionEnabled then none
  else
    match command with
    | .shell shell =>
      let normalized := env.toLowercase (String.intercalate " " (shell.command :: shell.args))
      (dangerousGitPatterns.find? (containsText normalized)).map
        (fun pattern => "Dangerous git command is denied: " ++ pattern)
    | _ => none

def check (manager : PermissionManager) (env : CheckEnv) (command : Command)
    (context : TaskContext) : PermissionResult :=
  match checkWorkspace env command with
  | some reason => .denied reason
  | none =>
    match manager.checkGitSafety env command with
    | some reason => .denied reason
    | none =>
      match manager.rules.find? (fun rule => rule.matchesCommand env command context) with
      | some rule =>
        if rule.requireApproval then
          .requiresApproval env.requestId ("Rule '" ++ rule.name ++ "' requires approval")
        else .allowed
      | none => .denied "No matching permission rule"

/-- The request gets an id of its own, not the one of the check. -/
def createApprovalRequest (manager : PermissionManager) (id : String) (taskId : String)
    (command : Command) (context : TaskContext) (reason : String) (now : DateTime) :
    ApprovalRequest × PermissionManager :=
  let request : ApprovalRequest :=
    { id, taskId, command, context, reason, requestedAt := now
      expiresAt := now + seconds manager.approvalTimeoutSecs, status := .pending }
  (request, { manager with pendingApprovals := manager.pendingApprovals.insert id request })

/-- The request is removed before its expiry is looked at. -/
def handleApprovalResponse (manager : PermissionManager) (requestId : String) (approved : Bool)
    (responder : String) (reason : Option String) (now : DateTime) :
    Except NodeError ApprovalResolution × PermissionManager :=
  match manager.pendingApprovals.lookup requestId with
  | none => (.error (.permission ("Approval request not found: " ++ requestId)), manager)
  | some request =>
    let manager :=
      { manager with pendingApprovals := manager.pendingApprovals.erase requestId }
    if now > request.expiresAt then
      (.error (.permission "Approval request expired"), manager)
    else if approved then
      (.ok (.approved { request with status := .approved responder now } ⟨request.taskId⟩),
        manager)
    else
      (.ok (.rejected { request with
          status := .rejected responder now (reason.getD "No reason provided") }
        ⟨request.taskId⟩), manager)

/-- Some request of the task is pending. -/
def Waiting (manager : PermissionManager) (taskId : TaskId) : Prop :=
  ∃ id request, manager.pendingApprovals.lookup id = some request ∧
    request.taskId = taskId.value

end PermissionManager

/-! ## Rules pushed by the Hub -/

def convertProtocolResourcePattern : ProtocolResourcePattern → ResourcePattern
  | .exact path => .exactPath path
  | .glob pattern => .glob pattern
  | .regex pattern => .regex pattern
  | .pathPrefix value => .pathPrefix value

/-- Listing has no counterpart on the node and is dropped. -/
def convertProtocolAction : ProtocolAction → Option Action
  | .read => some .read
  | .write => some .write
  | .delete => some .delete
  | .execute => some .execute
  | .admin => some .admin
  | .list => none

/-- The conditions of a pushed rule are not taken over. -/
def convertProtocolPermissionRule (rule : ProtocolPermissionRule) : PermissionRule :=
  { PermissionRule.new rule.id rule.name with
    resource := convertProtocolResourcePattern rule.resource
    actions := rule.actions.filterMap convertProtocolAction
    requireApproval := rule.requireApproval
    enabled := rule.enabled }

end UHorse.Node
