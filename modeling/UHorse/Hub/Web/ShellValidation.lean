import UHorse.Hub.NodeManager
import UHorse.Node.GitSafety

/-!
# Shell commands that the Hub plans

The Hub looks at the directory of a planned shell command and then for the same texts in its line
as the node does later. Neither of the two sees a destructive git command whose words stand
otherwise.
-/

namespace UHorse.Hub.Web

open Lib.Unix Protocol Node

/-- The names of a relative path; every other part but `.` is refused. -/
def normalizeParts (normalized : List String) : List Component → Except String (List String)
  | [] => .ok normalized
  | .curDir :: others => normalizeParts normalized others
  | .normal part :: others => normalizeParts (normalized ++ [part]) others
  | .parentDir :: _ => .error "不允许使用 .. 或绝对路径。"

def normalizeRelativePath (value : String) : Except String String :=
  let path := Path.parse value
  if path.absolute then .error "路径必须是 workspace 内的相对路径。"
  else
    (normalizeParts [] path.components).map fun normalized =>
      if normalized = [] then "." else String.intercalate "/" normalized

def ensureWorkspacePath (fs : FileSystem) (value workspaceRoot : String) : Except String Unit :=
  if (Path.parse value).absolute then
    if workspaceMatchesHint fs value workspaceRoot then .ok ()
    else .error "路径必须位于 workspace 内。"
  else (normalizeRelativePath value).map fun _ => ()

/-- The directory of a command, which it may not have. -/
def ensureCwd (fs : FileSystem) (cwd : Option String) (workspaceRoot : String) :
    Except String Unit :=
  match cwd with
  | some cwd => ensureWorkspacePath fs cwd workspaceRoot
  | none => .ok ()

def validateShellCommand (fs : FileSystem) (toLowercase : String → String)
    (command : ShellCommand) (workspaceRoot : String) : Except String Unit :=
  match ensureCwd fs command.cwd workspaceRoot with
  | .error error => .error error
  | .ok () =>
    let commandText := toLowercase (String.intercalate " " (command.command :: command.args))
    match dangerousGitPatterns.find? (containsText commandText) with
    | some pattern => .error ("禁止危险 git 命令：" ++ pattern)
    | none => .ok ()

section Validation

variable (fs : FileSystem) (env : CheckEnv) (command : ShellCommand) (workspaceRoot : String)

/-- A shell command is refused for its directory or for its words. -/
theorem validateShellCommand_error_iff :
    (∃ error, validateShellCommand fs env.toLowercase command workspaceRoot = .error error) ↔
      ensureCwd fs command.cwd workspaceRoot ≠ .ok () ∨
        HasDangerousWords (commandLine env command) := by
  rw [validateShellCommand]
  cases ensureCwd fs command.cwd workspaceRoot with
  | error error => simp
  | ok checked =>
    rw [commandLine, ← exists_containsText_iff, ← List.find?_isSome]
    cases found : dangerousGitPatterns.find? (containsText
        (env.toLowercase (String.intercalate " " (command.command :: command.args)))) with
    | none => simp [found]
    | some pattern => simp [found]

/-- The Hub refuses what the check of the node finds, and nothing else but for the directory. -/
theorem validateShellCommand_agrees_iff {manager : PermissionManager}
    (protected_ : manager.gitProtectionEnabled = true) :
    ((∃ error, validateShellCommand fs env.toLowercase command workspaceRoot = .error error) ↔
        (manager.checkGitSafety env (.shell command)).isSome) ↔
      (ensureCwd fs command.cwd workspaceRoot = .ok () ∨
        HasDangerousWords (commandLine env command)) := by
  rw [validateShellCommand_error_iff, PermissionManager.isSome_checkGitSafety protected_]
  simp only [Command.shell.injEq, exists_eq_left']
  by_cases found : HasDangerousWords (commandLine env command)
  · simp [found]
  · simp [found]

end Validation

/-- A command that comes to run git destructively is denied just when it is refused for its place,
has the words of one of the texts next to one another as a shell command, or matches no rule; and
the Hub refuses the same shell commands as the check for git just when it takes their directory or
they have such words. -/
theorem destructive_denied_iff (processes : Processes) (tempPath : String)
    {manager : PermissionManager} (protected_ : manager.gitProtectionEnabled = true)
    (env : CheckEnv) (fs : FileSystem) (workspaceRoot : String) :
    (∀ (command : Command) (context : TaskContext),
      (RunsDestructiveGit processes tempPath command →
          ∃ reason, manager.check env command context = .denied reason) ↔
        (RunsDestructiveGit processes tempPath command →
          (PermissionManager.checkWorkspace env command).isSome ∨
            (∃ shell, command = .shell shell ∧ HasDangerousWords (commandLine env shell)) ∨
              ∀ rule ∈ manager.rules, ¬ rule.matchesCommand env command context = true)) ∧
    ∀ command : ShellCommand,
      ((∃ error, validateShellCommand fs env.toLowercase command workspaceRoot = .error error) ↔
          (manager.checkGitSafety env (.shell command)).isSome) ↔
        (ensureCwd fs command.cwd workspaceRoot = .ok () ∨
          HasDangerousWords (commandLine env command)) := by
  refine ⟨fun command context => ?_, fun command => ?_⟩
  · rw [PermissionManager.check_denied_iff protected_]
  · exact validateShellCommand_agrees_iff fs env command workspaceRoot protected_

/-! ## Two commands that run -/

/-- A shell that takes a line without quotes for one command. -/
def plainProcesses : Processes where
  runs spawned words := words = spawned.words ∨ ∃ line,
    spawned.words = ["sh", "-c", line] ∧ words = (line.toList.splitOn ' ').map String.ofList
  runs_self _ := .inl rfl

/-- A rule for every command that is carried out. -/
def executeRule : PermissionRule :=
  { PermissionRule.new "run" "Commands" with actions := [.execute] }

def executeManager : PermissionManager := (PermissionManager.new true).addRule executeRule

def resetCommand : Command :=
  .shell ⟨"git", ["-C", "repo", "reset", "--hard"], none, ∅, .fromSecs 60, true⟩

def resetCode : Command :=
  .code ⟨.shell, "git reset --hard", none, [], .fromSecs 60, ∅, none⟩

theorem check_executeManager {command : Command} (context : TaskContext)
    (inside : PermissionManager.checkWorkspace documentsEnv command = none)
    (safe : executeManager.checkGitSafety documentsEnv command = none)
    (runs : PermissionRule.getRequiredActions command = [.execute]) :
    executeManager.check documentsEnv command context = .allowed := by
  have rules : executeManager.rules = [executeRule] := by
    simp [executeManager, PermissionManager.addRule, PermissionManager.new,
      PermissionManager.sortRules]
  have matched : executeRule.matchesCommand documentsEnv command context = true := by
    refine PermissionRule.matchesCommand_iff.mpr ⟨rfl, rfl, ?_, by simp [executeRule,
      PermissionRule.new]⟩
    simp [runs, executeRule]
  have decided : executeManager.rules.find? (fun rule =>
      rule.matchesCommand documentsEnv command context) = some executeRule := by
    rw [rules, List.find?_cons, matched]
  rw [PermissionManager.check]
  rw [inside, safe, decided]
  rfl

def plainReset : Command := .shell ⟨"git", ["reset", "--hard"], none, ∅, .fromSecs 60, true⟩

/-- The command as it is looked for is denied. -/
theorem destructive_denied_sample : ∃ reason, executeManager.check documentsEnv plainReset
    (.new ⟨"user"⟩ ⟨"session"⟩ "dingtalk" 0) = .denied reason := by
  refine (((destructive_denied_iff plainProcesses "/ws/.uhorse/code" rfl documentsEnv
    documentsSystem "/ws").1 plainReset (.new ⟨"user"⟩ ⟨"session"⟩ "dingtalk" 0)).mpr ?_) ?_
  · refine fun _ => .inr (.inl ⟨_, rfl, ("git".toList, ["reset".toList], "--hard".toList),
      List.mem_cons_self, [], "git".toList, "--hard".toList, [], by decide, ?_, ?_⟩)
    · exact List.suffix_rfl
    · exact List.prefix_rfl
  · exact ⟨_, rfl, ["git", "reset", "--hard"], .inl rfl, "git", [], "reset", ["--hard"], rfl,
      .inl rfl, .nil, .reset (by decide)⟩

/-- An option of git in front of the subcommand, or the same command as code for the shell: git
resets the work tree and the check allows it. -/
theorem destructive_allowed :
    executeManager.gitProtectionEnabled = true ∧
      ∀ command ∈ [resetCommand, resetCode], ∀ context,
        RunsDestructiveGit plainProcesses "/ws/.uhorse/code" command ∧
          executeManager.check documentsEnv command context = .allowed := by
  refine ⟨rfl, fun command member context => ?_⟩
  simp only [List.mem_cons, List.not_mem_nil, or_false] at member
  rcases member with rfl | rfl
  · refine ⟨⟨_, rfl, ["git", "-C", "repo", "reset", "--hard"], .inl rfl, "git", ["-C", "repo"],
      "reset", ["--hard"], rfl, .inl rfl, .value (by decide) .nil, .reset (by decide)⟩, ?_⟩
    exact check_executeManager context (by decide +kernel) (by decide) rfl
  · refine ⟨⟨_, rfl, ["git", "reset", "--hard"], .inr ⟨"git reset --hard", rfl, by decide⟩, "git",
      [], "reset", ["--hard"], rfl, .inl rfl, .nil, .reset (by decide)⟩, ?_⟩
    exact check_executeManager context (by decide +kernel) rfl rfl

end UHorse.Hub.Web
