import UHorse.Lib.Text
import UHorse.Node.PathScope

/-!
# Destructive git commands and the words they are looked for with

A shell command is one line of text for the check, in which seven texts are looked for; each is a
few words that have to stand next to one another. What the node starts for a command may be git
itself, a shell or an interpreter, and git reads options in front of its subcommand and flags in
any order. So the check stops a command just when the words happen to stand as they are written.
-/

namespace UHorse.Node

open Lib.Text Protocol

/-! ## What the node starts -/

namespace CommandExecutor

/-- The words of a process and, for code that is written to a file first, what the file holds. -/
structure Spawned where
  words : List String
  script : Option String

def looksLikeShellScript (command : String) : Bool :=
  command.toList.contains ' ' || command.toList.contains '|' || command.toList.contains '&' ||
    command.toList.contains ';' || command.toList.contains '>' || command.toList.contains '<'

def executeShell (command : ShellCommand) : Spawned :=
  if command.args.isEmpty && looksLikeShellScript command.command then
    ⟨["sh", "-c", command.command], none⟩
  else ⟨command.command :: command.args, none⟩

/-- The languages without an interpreter start nothing. -/
def executeCode (tempPath : String) (command : CodeCommand) : Option Spawned :=
  match command.language with
  | .python => some ⟨["python3", tempPath], some command.code⟩
  | .javaScript => some ⟨["node", tempPath], some command.code⟩
  | .typeScript => some ⟨["ts-node", tempPath], some command.code⟩
  | .shell => some (executeShell
      { command := "sh", args := ["-c", command.code], cwd := command.workdir, env := command.env
        timeout := command.timeout, captureStderr := true })
  | .sql | .rust | .go => none

def spawned (tempPath : String) : Command → Option Spawned
  | .shell command => some (executeShell command)
  | .code command => executeCode tempPath command
  | _ => none

end CommandExecutor

/-- Which words come to be run as processes once one is started: what the shell, the interpreters
and other programs start is up to them, and a process is run itself. -/
structure Processes where
  runs : CommandExecutor.Spawned → List String → Prop
  runs_self : ∀ spawned, runs spawned spawned.words

/-! ## Destructive runs of git -/

namespace Git

def IsGit (program : String) : Prop :=
  program = "git" ∨ "/git".toList <:+ program.toList

/-- The options in front of the subcommand that take the next word. -/
def valueOptions : List String :=
  ["-C", "-c", "--git-dir", "--work-tree", "--namespace", "--super-prefix", "--config-env",
    "--attr-source"]

inductive GlobalOptions : List String → Prop
  | nil : GlobalOptions []
  | flag {word : String} {others : List String} (dash : startsWith word "-" = true)
      (alone : word ∉ valueOptions) (more : GlobalOptions others) : GlobalOptions (word :: others)
  | value {word value : String} {others : List String} (takes : word ∈ valueOptions)
      (more : GlobalOptions others) : GlobalOptions (word :: value :: others)

/-- The words up to the one that ends the options. -/
def options (words : List String) : List String := words.takeWhile (· ≠ "--")

/-- A letter of a group behind one dash. -/
def HasFlag (letter : Char) (words : List String) : Prop :=
  ∃ word ∈ words, ∃ letters, word.toList = '-' :: letters ∧ letters.head? ≠ some '-' ∧
    letter ∈ letters

inductive Destroys : String → List String → Prop
  | reset {words : List String} (hard : "--hard" ∈ options words) : Destroys "reset" words
  | clean {words : List String}
      (force : HasFlag 'f' (options words) ∨ "--force" ∈ options words)
      (directories : HasFlag 'd' (options words)) : Destroys "clean" words
  | checkout {words : List String} (paths : "--" ∈ words) : Destroys "checkout" words
  | restore {words : List String}
      (source : "--source" ∈ options words ∨
        ∃ word ∈ options words, startsWith word "--source=" = true) : Destroys "restore" words
  | push {words : List String}
      (force : HasFlag 'f' (options words) ∨
        (∃ word ∈ options words, word = "--force" ∨ startsWith word "--force-with-lease" = true) ∨
          ∃ word ∈ words, startsWith word "+" = true) : Destroys "push" words

/-- Git is run with one of the destructive subcommands, behind any options of its own. -/
def Destructive (words : List String) : Prop :=
  ∃ program globals subcommand others, words = program :: (globals ++ subcommand :: others) ∧
    IsGit program ∧ GlobalOptions globals ∧ Destroys subcommand others

end Git

/-- Carrying out the command comes to run git destructively. -/
def RunsDestructiveGit (processes : Processes) (tempPath : String) (command : Command) : Prop :=
  ∃ spawned ∈ CommandExecutor.spawned tempPath command, ∃ words,
    processes.runs spawned words ∧ Git.Destructive words

/-! ## What the check finds -/

/-- The line a shell command is for the check. -/
def commandLine (env : CheckEnv) (command : ShellCommand) : List Char :=
  (env.toLowercase (String.intercalate " " (command.command :: command.args))).toList

/-- The words of the texts that are looked for: the first, those in the middle and the last. -/
def dangerousGitWords : List (List Char × List (List Char) × List Char) :=
  [("git".toList, ["reset".toList], "--hard".toList),
    ("git".toList, ["clean".toList], "-fd".toList),
    ("git".toList, ["clean".toList, "-f".toList], "-d".toList),
    ("git".toList, ["checkout".toList], "--".toList),
    ("git".toList, ["restore".toList], "--source".toList),
    ("git".toList, ["push".toList], "--force".toList),
    ("git".toList, ["push".toList], "-f".toList)]

/-- Where the line is cut at every blank, a piece that ends with `git` is followed at once by the
words of one of the texts, of which the last may go on. -/
def HasDangerousWords (line : List Char) : Prop :=
  ∃ words ∈ dangerousGitWords, ∃ before w w' after,
    line.splitOn ' ' = before ++ w :: (words.2.1 ++ w' :: after) ∧
      words.1 <:+ w ∧ words.2.2 <+: w'

theorem dangerousGitPatterns_eq :
    dangerousGitPatterns.map String.toList = dangerousGitWords.map fun words =>
      words.1 ++ ' ' :: (words.2.1.flatMap (fun word => word ++ [' ']) ++ words.2.2) := by
  decide

theorem blank_notMem_dangerousGitWords : ∀ words ∈ dangerousGitWords,
    ' ' ∉ words.1 ∧ (∀ word ∈ words.2.1, ' ' ∉ word) ∧ ' ' ∉ words.2.2 := by
  decide

/-- A line holds one of the texts just when it has their words next to one another. -/
theorem exists_containsText_iff (text : String) :
    (∃ pattern ∈ dangerousGitPatterns, containsText text pattern = true) ↔
      HasDangerousWords text.toList := by
  have asWords : (∃ pattern ∈ dangerousGitPatterns, containsText text pattern = true) ↔
      ∃ letters ∈ dangerousGitPatterns.map String.toList, letters <:+: text.toList := by
    simp [containsText]
  rw [asWords, dangerousGitPatterns_eq]
  constructor
  · rintro ⟨_, member, occurs⟩
    obtain ⟨words, listed, rfl⟩ := List.mem_map.mp member
    obtain ⟨first, middle, last⟩ := blank_notMem_dangerousGitWords words listed
    exact ⟨words, listed, (infix_joined_iff first middle last).mp occurs⟩
  · rintro ⟨words, listed, pieces⟩
    obtain ⟨first, middle, last⟩ := blank_notMem_dangerousGitWords words listed
    exact ⟨_, List.mem_map_of_mem listed, (infix_joined_iff first middle last).mpr pieces⟩

namespace PermissionManager

variable {manager : PermissionManager}

theorem isSome_checkGitSafety (protected_ : manager.gitProtectionEnabled = true) (env : CheckEnv)
    (command : Command) : (manager.checkGitSafety env command).isSome ↔
      ∃ shell, command = .shell shell ∧ HasDangerousWords (commandLine env shell) := by
  unfold checkGitSafety
  rw [protected_]
  cases command with
  | shell shell =>
    simp only [Bool.not_true, Bool.false_eq_true, if_false, Option.isSome_map,
      List.find?_isSome, exists_containsText_iff, Command.shell.injEq, exists_eq_left']
    exact Iff.rfl
  | _ => simp

/-- A command is denied for its place, for its words, or because no rule is for it. -/
theorem check_denied_iff (protected_ : manager.gitProtectionEnabled = true) (env : CheckEnv)
    (command : Command) (context : TaskContext) :
    (∃ reason, manager.check env command context = .denied reason) ↔
      (checkWorkspace env command).isSome ∨
        (∃ shell, command = .shell shell ∧ HasDangerousWords (commandLine env shell)) ∨
          ∀ rule ∈ manager.rules, ¬ rule.matchesCommand env command context = true := by
  rw [← isSome_checkGitSafety protected_, ← List.find?_eq_none]
  rw [check]
  cases checkWorkspace env command with
  | some reason => simp
  | none =>
    cases manager.checkGitSafety env command with
    | some reason => simp
    | none =>
      cases manager.rules.find? fun rule => rule.matchesCommand env command context with
      | none => simp
      | some rule => by_cases approval : rule.requireApproval = true <;> simp [approval]

end PermissionManager

end UHorse.Node
