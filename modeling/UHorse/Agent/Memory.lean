import UHorse.Agent.SessionKey
import UHorse.Lib.FileSystem
import UHorse.Lib.HashMap

/-!
# The memory files of sessions and scopes

Memory is files: a session has a Markdown history that every exchange is appended to and a
table of key-value pairs, and a scope has one `MEMORY.md`. A context puts the memories of a
session's scopes and its history one under the other, each under a line that names it.

Texts are lists of characters. The disk has no links, so that a path leads where its
components say; `none` is an operation the operating system refuses.
-/

namespace UHorse.Agent

open UHorse.Lib UHorse.Lib.Unix

abbrev Text := List Char

/-! ## Paths and files -/

/-- `PathBuf::join`: an absolute text takes the place of the path. -/
def joinPath (base : Path) (text : String) : Path :=
  if (Path.parse text).absolute then Path.parse text
  else ⟨base.absolute, base.parts ++ (Path.parse text).parts⟩

/-- One component from a place on. -/
def enter (loc : Location) : Component → Option Location
  | .curDir => some loc
  | .parentDir => some loc.dropLast
  | .normal name => if legalName name then some (loc ++ [name]) else none

structure Disk where
  cwd : Location
  files : Location → Option Text

namespace Disk

def start (disk : Disk) (path : Path) : Location := if path.absolute then [] else disk.cwd

/-- Where a path leads. -/
def place (disk : Disk) (path : Path) : Option Location :=
  path.parts.foldlM enter (disk.start path)

def read (disk : Disk) (path : Path) : Option Text := (disk.place path).bind disk.files

def write (disk : Disk) (path : Path) (text : Text) : Option Disk :=
  (disk.place path).map fun loc =>
    { disk with files := Function.update disk.files loc (some text) }

end Disk

/-! ## One directory of memory files -/

/-- A formatted time: `%Y-%m-%d %H:%M:%S UTC` begins with a digit or a sign and stays on
its line. -/
structure Stamp where
  first : Char
  rest : Text
  begins : first.isDigit ∨ first = '+' ∨ first = '-'
  oneLine : '\n' ∉ rest

def Stamp.text (now : Stamp) : Text := now.first :: now.rest

def userMark : Text := "\n\n**User:** ".toList

def assistantMark : Text := "\n\n**Assistant:** ".toList

/-- What `store_message` appends. -/
def historyEntry (now : Stamp) (user assistant : Text) : Text :=
  "## ".toList ++ now.text ++ userMark ++ user ++ assistantMark ++ assistant ++ "\n\n".toList

/-- How tables of key-value pairs are written as JSON and read back. -/
structure KvFormat where
  encode : HashMap String String → Text
  decode : Text → Option (HashMap String String)

structure FileMemory where
  workspaceDir : Path

namespace FileMemory

def sessionDir (memory : FileMemory) (sessionId : String) : Path :=
  joinPath (joinPath memory.workspaceDir "sessions") sessionId

def historyPath (memory : FileMemory) (sessionId : String) : Path :=
  joinPath (memory.sessionDir sessionId) "history.md"

def kvPath (memory : FileMemory) (sessionId : String) : Path :=
  joinPath (memory.sessionDir sessionId) "kv.json"

def memoryPath (memory : FileMemory) : Path := joinPath memory.workspaceDir "MEMORY.md"

def readMemoryMd (memory : FileMemory) (disk : Disk) : Option Text := disk.read memory.memoryPath

def readSessionHistory (memory : FileMemory) (disk : Disk) (sessionId : String) : Text :=
  (disk.read (memory.historyPath sessionId)).getD []

def storeMessage (memory : FileMemory) (disk : Disk) (sessionId : String) (now : Stamp)
    (user assistant : Text) : Option Disk :=
  disk.write (memory.historyPath sessionId)
    (memory.readSessionHistory disk sessionId ++ historyEntry now user assistant)

def globalHeading : Text := "=== Global Memory ===\n".toList

def historyHeading : Text := "=== Session History ===\n".toList

def getContext (memory : FileMemory) (disk : Disk) (sessionId : String) : Text :=
  let globalMemory := (memory.readMemoryMd disk).getD []
  let history := memory.readSessionHistory disk sessionId
  if globalMemory.isEmpty && history.isEmpty then []
  else globalHeading ++ globalMemory ++ "\n\n".toList ++ historyHeading ++ history

/-- A table that cannot be read counts as empty. -/
def storeKv (memory : FileMemory) (format : KvFormat) (disk : Disk) (sessionId key value : String) :
    Option Disk :=
  let kvs := ((disk.read (memory.kvPath sessionId)).bind format.decode).getD ∅
  disk.write (memory.kvPath sessionId) (format.encode (kvs.insert key value))

end FileMemory

/-! ## All scopes -/

structure LayeredMemoryStore where
  workspaceDir : Path

namespace LayeredMemoryStore

def globalMemory (store : LayeredMemoryStore) : FileMemory := ⟨store.workspaceDir⟩

def scopedMemory (store : LayeredMemoryStore) (scope : String) : FileMemory :=
  match scopeLayerFromScope scope with
  | .tenant => ⟨joinPath (joinPath store.workspaceDir "tenants") scope⟩
  | .enterprise => ⟨joinPath (joinPath store.workspaceDir "enterprises") scope⟩
  | .department => ⟨joinPath (joinPath store.workspaceDir "departments") scope⟩
  | .role => ⟨joinPath (joinPath store.workspaceDir "roles") scope⟩
  | .user => ⟨joinPath (joinPath store.workspaceDir "users") scope⟩
  | _ => store.globalMemory

def namedScopeLabel (scope : String) : Text :=
  match scopeLayerFromScope scope with
  | .globalLayer => "Global".toList
  | .tenant => "Tenant".toList
  | .enterprise => "Enterprise".toList
  | .department => "Department".toList
  | .role => "Role".toList
  | .user => "User".toList
  | .session => "Session".toList
  | .scope => "Scope".toList

/-- The memory of a scope of the chain; the session's own is its history. -/
def readScopeMemory (store : LayeredMemoryStore) (disk : Disk) (namespaces : SessionNamespace)
    (scope : String) : Text :=
  if scope = namespaces.globalScope then (store.globalMemory.readMemoryMd disk).getD []
  else if scope = namespaces.session then []
  else ((store.scopedMemory scope).readMemoryMd disk).getD []

def memorySection (store : LayeredMemoryStore) (disk : Disk) (namespaces : SessionNamespace)
    (scope : String) : Option Text :=
  let memory := store.readScopeMemory disk namespaces scope
  if memory.isEmpty then none
  else some ("=== ".toList ++ namedScopeLabel scope ++ " Memory ===\n".toList ++ memory)

def getContextForNamespace (store : LayeredMemoryStore) (disk : Disk) (sessionId : String)
    (namespaces : SessionNamespace) : Text :=
  let memories := namespaces.memoryContextChain.filterMap (store.memorySection disk namespaces)
  let history := store.globalMemory.readSessionHistory disk sessionId
  "\n\n".toList.intercalate
    (if history.isEmpty then memories
    else memories ++ [FileMemory.historyHeading ++ history])

def getContext (store : LayeredMemoryStore) (disk : Disk) (sessionId : String) : Text :=
  match namespaceForSession sessionId with
  | none => store.globalMemory.getContext disk sessionId
  | some namespaces => store.getContextForNamespace disk sessionId namespaces

def storeMessage (store : LayeredMemoryStore) (disk : Disk) (sessionId : String) (now : Stamp)
    (user assistant : Text) : Option Disk :=
  store.globalMemory.storeMessage disk sessionId now user assistant

def storeKv (store : LayeredMemoryStore) (format : KvFormat) (disk : Disk)
    (sessionId key value : String) : Option Disk :=
  match namespaceForSession sessionId with
  | none => store.globalMemory.storeKv format disk sessionId key value
  | some namespaces =>
    (store.scopedMemory namespaces.user).storeKv format disk namespaces.user key value

end LayeredMemoryStore

/-! ## Where the files are -/

section Places

variable {disk disk' : Disk} {base : Path} {loc : Location}

/-- The text of one legal name. -/
structure FileName (name : String) : Prop where
  legal : legalName name = true
  parsed : Path.parse name = ⟨false, [.normal name]⟩

theorem fileName_history : FileName "history.md" := ⟨by decide, by decide⟩

theorem fileName_memory : FileName "MEMORY.md" := ⟨by decide, by decide⟩

theorem place_joinPath {name : String} (file : FileName name) :
    disk.place (joinPath base name) = (disk.place base).map (· ++ [name]) := by
  have joined : joinPath base name = ⟨base.absolute, base.parts ++ [.normal name]⟩ := by
    rw [joinPath, file.parsed]
    rfl
  have start : disk.start ⟨base.absolute, base.parts ++ [.normal name]⟩ = disk.start base := rfl
  rw [joined, Disk.place, start, List.foldlM_append]
  cases front : List.foldlM enter (disk.start base) base.parts with
  | none => simp [Disk.place, front]
  | some loc => simp [Disk.place, front, enter, file.legal]

theorem Disk.write_eq_some {path : Path} {text : Text}
    (written : disk.write path text = some disk') : ∃ loc, disk.place path = some loc ∧
      disk' = { disk with files := Function.update disk.files loc (some text) } := by
  obtain ⟨loc, found, rfl⟩ := Option.map_eq_some_iff.mp written
  exact ⟨loc, found, rfl⟩

/-- Files with different names are different files. -/
theorem place_ne (other : Path) {name name' : String} (file : FileName name)
    (file' : FileName name') (distinct : name ≠ name')
    (here : disk.place (joinPath base name) = some loc) :
    disk.place (joinPath other name') ≠ some loc := by
  intro there
  rw [place_joinPath file] at here
  rw [place_joinPath file'] at there
  obtain ⟨front, -, rfl⟩ := Option.map_eq_some_iff.mp here
  obtain ⟨front', -, same⟩ := Option.map_eq_some_iff.mp there
  exact distinct (List.append_inj_right' same rfl |> List.singleton_inj.mp).symm

end Places

/-! ## What a call changes -/

namespace LayeredMemoryStore

variable {store : LayeredMemoryStore} {sessionId : String} {disk disk' : Disk}

/-- A stored message is what the history has more, and no memory changes. -/
theorem storeMessage_spec {now : Stamp} {user assistant : Text}
    (stored : store.storeMessage disk sessionId now user assistant = some disk') :
    store.globalMemory.readSessionHistory disk' sessionId =
        store.globalMemory.readSessionHistory disk sessionId ++
          historyEntry now user assistant ∧
      ∀ memory : FileMemory, memory.readMemoryMd disk' = memory.readMemoryMd disk := by
  obtain ⟨loc, here, changed⟩ := Disk.write_eq_some stored
  have place : disk'.place = disk.place := by
    rw [changed]
    rfl
  have files : disk'.files = Function.update disk.files loc (some
      (store.globalMemory.readSessionHistory disk sessionId ++
        historyEntry now user assistant)) := by
    rw [changed]
  constructor
  · rw [FileMemory.readSessionHistory, Disk.read, place, here, Option.bind_some, files,
      Function.update_self]
    rfl
  · intro memory
    have other := place_ne memory.workspaceDir fileName_history fileName_memory (by decide) here
    rw [FileMemory.readMemoryMd, Disk.read, place, FileMemory.readMemoryMd, Disk.read]
    cases found : disk.place memory.memoryPath with
    | none => rfl
    | some loc' =>
      rw [Option.bind_some, Option.bind_some, files]
      refine Function.update_of_ne (fun same => ?_) _ _
      exact other (found.trans (congrArg some same))

end LayeredMemoryStore

end UHorse.Agent
