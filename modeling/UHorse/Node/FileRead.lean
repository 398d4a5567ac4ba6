import UHorse.Lib.Utf8Slices
import UHorse.Node.PathScope
import UHorse.Protocol.Types

/-!
# Reading a file in pages

A file is read as a text and cut twice, from the byte where the character of the offset starts and
up to the byte where the character of the limit starts in what remains. Neither cut is ever within
a character, so a read is the window of the characters, and pages put together are the file.
-/

namespace UHorse.Node

open Lib.Unix Lib.Utf8Slices Protocol

variable {fs : FileSystem}

/-- What the files hold, with the text of the error of a read that fails, and how a path is shown
in messages. -/
structure ReadableFiles where
  readToString : Location → Except String String
  debugText : Location → String

namespace CommandExecutor

/-- `content[start..]` with the start of the character of the offset; `none` is a panic. -/
def fromOffset (content : List Char) : Option Nat → Option (List Char)
  | none => some content
  | some offset => sliceFrom content (byteOfChar content offset)

/-- `content[..end]` with the start of the character of the limit. -/
def upToLimit (content : List Char) : Option Nat → Option (List Char)
  | none => some content
  | some limit => sliceTo content (byteOfChar content limit)

/-- `none` is a panic. -/
def fileRead (files : ReadableFiles) (ws : Workspace fs) (glob : String → String → Bool)
    (path : String) (limit offset : Option Nat) : Option (Except NodeError CommandOutput) :=
  match resolveFilePath ws glob path false with
  | .error error => some (.error error)
  | .ok target =>
    match files.readToString target with
    | .error error => some (.error (.execution
        ("Failed to read file " ++ files.debugText target ++ ": " ++ error)))
    | .ok content => do
        let rest ← fromOffset content.toList offset
        let read ← upToLimit rest limit
        some (.ok (.text (String.ofList read)))

/-- The characters from the offset on, up to the limit many. -/
def window (limit offset : Option Nat) (content : List Char) : List Char :=
  let rest := content.drop (offset.getD 0)
  limit.elim rest rest.take

@[simp] theorem fromOffset_eq (content : List Char) (offset : Option Nat) :
    fromOffset content offset = some (content.drop (offset.getD 0)) := by
  cases offset with
  | none => rfl
  | some offset => exact sliceFrom_byteOfChar content offset

@[simp] theorem upToLimit_eq (content : List Char) (limit : Option Nat) :
    upToLimit content limit = some (limit.elim content content.take) := by
  cases limit with
  | none => rfl
  | some limit => exact sliceTo_byteOfChar content limit

/-- A read that gets to the file is the window of its characters. -/
theorem fileRead_eq {files : ReadableFiles} {ws : Workspace fs} {glob : String → String → Bool}
    {path content : String} {target : Location}
    (resolved : resolveFilePath ws glob path false = .ok target)
    (read : files.readToString target = .ok content) (limit offset : Option Nat) :
    fileRead files ws glob path limit offset =
      some (.ok (.text (String.ofList (window limit offset content.toList)))) := by
  simp only [fileRead, resolved, read, fromOffset_eq, upToLimit_eq, window, Option.bind_eq_bind,
    Option.bind_some]

/-- The characters of the text a read answers with. -/
def textRead : Option (Except NodeError CommandOutput) → Option (List Char)
  | some (.ok (.text content)) => some content.toList
  | _ => none

/-- Every read of a file is the window of its characters at the offset and the limit, and with
every size of a page but 0 the pages one after the other until an empty one are the file. -/
theorem fileRead_pages {files : ReadableFiles} {ws : Workspace fs}
    {glob : String → String → Bool} {path content : String} {target : Location}
    (resolved : resolveFilePath ws glob path false = .ok target)
    (read : files.readToString target = .ok content) :
    (∀ limit offset : Option Nat,
      fileRead files ws glob path limit offset =
        some (.ok (.text (String.ofList (window limit offset content.toList))))) ∧
    ∀ size : Nat, 0 < size → ∀ text : List Char,
      PagesRead (fun start => textRead (fileRead files ws glob path (some size) (some start)))
        size 0 text ↔ text = content.toList := by
  refine ⟨fileRead_eq resolved read, fun size positive text => ?_⟩
  refine pagesRead_iff (fun start => ?_) positive
  simp only [fileRead_eq resolved read, textRead, String.toList_ofList, window, Option.getD_some,
    Option.elim_some]

theorem resolveFilePath_document :
    resolveFilePath documentsWorkspace (fun pattern _ => pattern = "**/*") "docs/a" false =
      .ok ["ws", "docs", "a"] := by
  decide +kernel

/-- A document of two characters that take two and three bytes. -/
def accentedFiles : ReadableFiles where
  readToString _ := .ok "é€"
  debugText location := absoluteText location

/-- Pages of one character are the document. -/
theorem fileRead_pages_document :
    PagesRead (fun start => textRead (fileRead accentedFiles documentsWorkspace
        (fun pattern _ => pattern = "**/*") "docs/a" (some 1) (some start)))
      1 0 ['é', '€'] :=
  ((fileRead_pages resolveFilePath_document rfl).2 1 Nat.one_pos
    ['é', '€']).mpr rfl

end CommandExecutor

end UHorse.Node
