import UHorse.Agent.SessionKey
import UHorse.Lib.LossyUtf8
import UHorse.Lib.Text
import UHorse.Lib.Utf8Slices
import UHorse.Node.Workspace
import UHorse.Protocol.Types

/-!
# Texts that come back from a child process

What a command prints is cut at the configured number of bytes, wherever that is in the text, and
the cut panics within a character. A line of `git status` is cut after its third byte; its first
three characters are two letters and a blank, which take a byte each, whatever the path is.
-/

namespace UHorse.Node

open Agent (isWhitespace)
open Lib.Unix Lib.Utf8Slices Lib.LossyUtf8 Lib.Text Protocol

/-! ## The output of a command -/

namespace CommandExecutor

def truncationMark : List Char := "\n... output truncated ...".toList

/-- `none` is a panic. -/
def limitOutput (maxOutputSize : Nat) (output : List Char) : Option (List Char) :=
  if byteLength output ≤ maxOutputSize then some output
  else (sliceTo output maxOutputSize).map fun truncated => truncated ++ truncationMark

/-- The output a child process leaves. -/
structure ProcessOutput where
  /-- The exit code; a process that a signal ended has none. -/
  code : Option Int
  stdout : List UInt8
  stderr : List UInt8

def ProcessOutput.success (output : ProcessOutput) : Bool := output.code = some 0

/-- The debug text of an exit code. -/
def debugCode : Option Int → List Char
  | none => "None".toList
  | some code => "Some(".toList ++ (toString code).toList ++ ")".toList

/-- `run_process` once the process has ended. -/
def processResult (maxOutputSize : Nat) (output : ProcessOutput) :
    Option (Except NodeError CommandOutput) := do
  let stdout ← limitOutput maxOutputSize (lossy output.stdout)
  let stderr ← limitOutput maxOutputSize (lossy output.stderr)
  if output.success then
    if stderr ≠ [] then
      some (.ok (.text (.ofList (stdout ++ (if stdout = [] then [] else ['\n']) ++ stderr))))
    else some (.ok (.text (.ofList stdout)))
  else if stderr = [] then
    some (.error (.execution
      (.ofList ("Command failed with exit code ".toList ++ debugCode output.code))))
  else
    some (.error (.execution
      (.ofList ("Command failed with exit code ".toList ++ debugCode output.code ++
        ": ".toList ++ stderr))))

/-- The answer is the output, or a beginning of it with the mark behind. -/
def KeepsPrefix (output : List Char) (answer : Option (List Char)) : Prop :=
  ∃ kept, kept <+: output ∧ (answer = some kept ∨ answer = some (kept ++ truncationMark))

/-- The output is not too long, or the limit is not within one of its characters. -/
def CutsBetween (maxOutputSize : Nat) (output : List Char) : Prop :=
  byteLength output ≤ maxOutputSize ∨ IsBoundary output maxOutputSize

theorem keepsPrefix_limitOutput (maxOutputSize : Nat) (output : List Char) :
    KeepsPrefix output (limitOutput maxOutputSize output) ↔ CutsBetween maxOutputSize output := by
  rw [KeepsPrefix, CutsBetween, limitOutput]
  by_cases fits : byteLength output ≤ maxOutputSize
  · rw [if_pos fits]
    exact ⟨fun _ => .inl fits, fun _ => ⟨output, List.prefix_rfl, .inl rfl⟩⟩
  · rw [if_neg fits, or_iff_right fits, ← isSome_sliceTo]
    cases cut : sliceTo output maxOutputSize with
    | none => simp
    | some kept =>
      have start := (sliceTo_eq_some.mp cut).1
      exact ⟨fun _ => rfl, fun _ => ⟨kept, start, .inr rfl⟩⟩

theorem isSome_limitOutput (maxOutputSize : Nat) (output : List Char) :
    (limitOutput maxOutputSize output).isSome ↔ CutsBetween maxOutputSize output := by
  rw [limitOutput, CutsBetween]
  by_cases fits : byteLength output ≤ maxOutputSize
  · simp [fits]
  · rw [if_neg fits, or_iff_right fits, Option.isSome_map, isSome_sliceTo]

/-- A command is answered unless one of its two outputs is cut within a character. -/
theorem isSome_processResult (maxOutputSize : Nat) (output : ProcessOutput) :
    (processResult maxOutputSize output).isSome ↔
      CutsBetween maxOutputSize (lossy output.stdout) ∧
        CutsBetween maxOutputSize (lossy output.stderr) := by
  rw [← isSome_limitOutput, ← isSome_limitOutput]
  rw [processResult]
  cases limitOutput maxOutputSize (lossy output.stdout) with
  | none => simp
  | some stdout =>
    cases limitOutput maxOutputSize (lossy output.stderr) with
    | none => simp
    | some stderr =>
      simp only [Option.bind_eq_bind, Option.bind_some, Option.isSome_some, and_self, iff_true]
      by_cases success : output.success = true
      · rw [if_pos success]
        by_cases silent : stderr = [] <;> simp [silent]
      · rw [if_neg success]
        by_cases silent : stderr = [] <;> simp [silent]

end CommandExecutor

/-! ## The lines of `git status` -/

inductive FileChangeKind
  | unmodified
  | added
  | modified
  | deleted
  | renamed
  | copied
  | untracked
  | unmerged
  | unknown
deriving DecidableEq

def FileChangeKind.fromPorcelain : Char → FileChangeKind
  | ' ' => unmodified
  | 'A' => added
  | 'M' => modified
  | 'D' => deleted
  | 'R' => renamed
  | 'C' => copied
  | '?' => untracked
  | 'U' => unmerged
  | _ => unknown

structure VersionStatusEntry where
  path : List Char
  stagedStatus : FileChangeKind
  unstagedStatus : FileChangeKind
deriving DecidableEq

/-- The root is the text its `display` shows; `none` is a panic. -/
def VersionStatusEntry.fromPorcelainLine (root line : List Char) :
    Option (Except NodeError VersionStatusEntry) :=
  if byteLength line < 4 then
    some (.error (.execution
      (.ofList ("Invalid git status line in ".toList ++ root ++ ": ".toList ++ line))))
  else
    let staged := line.head?.getD ' '
    let unstaged := (line.drop 1).head?.getD ' '
    (sliceFrom line 3).map fun path => .ok
      { path := trim isWhitespace path
        stagedStatus := .fromPorcelain staged
        unstagedStatus := .fromPorcelain unstaged }

/-- `str::lines`: a line ends with a line feed, and a carriage return before that is dropped. -/
def lines (text : List Char) : List (List Char) :=
  let pieces := text.splitOn '\n'
  (pieces.dropLast.map fun line => if line.getLast? = some '\r' then line.dropLast else line) ++
    pieces.getLast?.toList.filter fun line => line ≠ []

/-- Two characters of a byte each, a blank and a path: quoted or not, and of a renamed file with
the earlier path in front. -/
def PrintedLine (line : List Char) : Prop :=
  ∃ staged unstaged path, staged.utf8Size = 1 ∧ unstaged.utf8Size = 1 ∧
    line = staged :: unstaged :: ' ' :: path

/-- A line as it is printed, or a short one. -/
def IsStatusLine (line : List Char) : Prop := byteLength line < 4 ∨ PrintedLine line

/-- A line is read just when it is short or its third byte ends a character. -/
theorem isSome_fromPorcelainLine (root line : List Char) :
    (VersionStatusEntry.fromPorcelainLine root line).isSome ↔
      byteLength line < 4 ∨ IsBoundary line 3 := by
  rw [VersionStatusEntry.fromPorcelainLine]
  by_cases short : byteLength line < 4
  · simp [short]
  · rw [if_neg short, or_iff_right short, Option.isSome_map, sliceFrom, Option.isSome_map,
      isSome_cutAt]

theorem IsStatusLine.reads {line : List Char} (formed : IsStatusLine line) (root : List Char) :
    (VersionStatusEntry.fromPorcelainLine root line).isSome := by
  refine (isSome_fromPorcelainLine root line).mpr ?_
  obtain short | ⟨staged, unstaged, path, first, second, rfl⟩ := formed
  · exact .inl short
  · refine .inr ⟨[staged, unstaged, ' '], ⟨path, rfl⟩, ?_⟩
    simp only [byteLength, first, second]
    rfl

/-- Of every output and limit `limitOutput` keeps a beginning just when the limit is not within a
character of a longer output, and every line of `git status` is read without a panic. -/
theorem keepsPrefix_iff_reads (root : List Char) :
    (∀ (maxOutputSize : Nat) (output : List Char),
      CommandExecutor.KeepsPrefix output (CommandExecutor.limitOutput maxOutputSize output) ↔
        CommandExecutor.CutsBetween maxOutputSize output) ∧
    (∀ (maxOutputSize : Nat) (output : CommandExecutor.ProcessOutput),
      (CommandExecutor.processResult maxOutputSize output).isSome ↔
        CommandExecutor.CutsBetween maxOutputSize (lossy output.stdout) ∧
          CommandExecutor.CutsBetween maxOutputSize (lossy output.stderr)) ∧
    ∀ line : List Char, IsStatusLine line →
      (VersionStatusEntry.fromPorcelainLine root line).isSome :=
  ⟨CommandExecutor.keepsPrefix_limitOutput, CommandExecutor.isSome_processResult,
    fun _ formed => formed.reads root⟩

/-- An output of `€` alone, which takes three bytes, is longer than the limit the executor has, and
the limit is within a character. -/
theorem limitOutput_panics :
    ¬ CommandExecutor.KeepsPrefix (List.replicate 3495254 '€')
        (CommandExecutor.limitOutput (10 * 1024 * 1024) (List.replicate 3495254 '€')) ∧
      CommandExecutor.processResult (10 * 1024 * 1024)
        ⟨some 0, encode (List.replicate 3495254 '€'), []⟩ = none := by
  have within : ¬ CommandExecutor.CutsBetween (10 * 1024 * 1024) (List.replicate 3495254 '€') := by
    have size : '€'.utf8Size = 3 := rfl
    rintro (short | ⟨front, begins, bytes⟩)
    · rw [byteLength_replicate, size] at short
      omega
    · rw [(List.prefix_replicate_iff.mp begins).2, byteLength_replicate, size] at bytes
      omega
  refine ⟨fun keeps => within ((CommandExecutor.keepsPrefix_limitOutput _ _).mp keeps), ?_⟩
  rw [← Option.not_isSome_iff_eq_none, CommandExecutor.isSome_processResult, lossy_encode]
  exact fun both => within both.1

end UHorse.Node
