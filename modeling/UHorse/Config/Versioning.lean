import UHorse.Lib.HashMap
import UHorse.Lib.Program
import UHorse.Protocol.Types

/-!
# Versions of configuration values

`record` takes a version under the lock of `current_versions` and then stores an entry under the
lock of `history`; `clear_history` removes the entries under the lock of `history` and, still
holding it, the version under the other lock. The programs perform one action for each section
under a lock; the lock of `history` is held between the two sections of `clear_history`.

The state remembers the entries stored for each key since it was cleared, and the value for
which the present version of a key was taken.
-/

namespace UHorse.Config

open UHorse.Lib UHorse.Protocol

structure ConfigVersion where
  version : UInt64
  key : String
  value : String
  timestamp : DateTime
  changedBy : Option String
  description : Option String

structure ConfigHistory where
  history : HashMap String (List ConfigVersion)
  currentVersions : HashMap String UInt64
  /-- A call of `clear_history` holds the lock of `history`. -/
  held : Bool
  /-- All entries stored since the last removal. -/
  log : String → List ConfigVersion
  /-- The value for which the last version was taken. -/
  taken : String → Option String

inductive Note
  | takeVersion (key : String)
  | readClock
  | store (key : String)
  | readHistory
  | readVersions
  | removeHistory (key : String)
  | removeVersions (key : String)

abbrev HistoryProgram := Program ConfigHistory DateTime Note

namespace ConfigHistory

def new : ConfigHistory := ⟨∅, ∅, false, fun _ => [], fun _ => none⟩

/-- The entries of a key. -/
def stored (s : ConfigHistory) (key : String) : List ConfigVersion := (s.history.lookup key).getD []

/-- The version of a key. -/
def versionOf (s : ConfigHistory) (key : String) : UInt64 := (s.currentVersions.lookup key).getD 0

/-- The last entries, as many as are kept. -/
def trim (maxHistory : Nat) (entries : List ConfigVersion) : List ConfigVersion :=
  entries.drop (entries.length - maxHistory)

/-- A section under the lock of `history`. -/
def withHistory {α : Type} (note : Note) (run : ConfigHistory → ConfigHistory)
    (value : ConfigHistory → α) : HistoryProgram α :=
  .act note (fun s => !s.held) (fun _ => run) fun _ s => .done (value s)

def takeVersion (key value : String) : HistoryProgram UInt64 :=
  Program.update (.takeVersion key)
    (fun _ s =>
      { s with
        currentVersions := s.currentVersions.insert key (s.versionOf key + 1)
        taken := Function.update s.taken key (some value) })
    fun _ s => s.versionOf key + 1

def store (maxHistory : Nat) (entry : ConfigVersion) : HistoryProgram Unit :=
  withHistory (.store entry.key)
    (fun s =>
      { s with
        history := s.history.insert entry.key (trim maxHistory (s.stored entry.key ++ [entry]))
        log := Function.update s.log entry.key (s.log entry.key ++ [entry]) })
    fun _ => ()

def record (maxHistory : Nat) (key value : String) (changedBy description : Option String) :
    HistoryProgram ConfigVersion := do
  let version ← takeVersion key value
  let timestamp ← Program.query .readClock fun now _ => now
  let entry : ConfigVersion := ⟨version, key, value, timestamp, changedBy, description⟩
  store maxHistory entry
  pure entry

def getVersion (key : String) (version : UInt64) : HistoryProgram (Option ConfigVersion) :=
  withHistory .readHistory id fun s =>
    (s.stored key).reverse.find? fun entry => entry.version = version

def currentVersion (key : String) : HistoryProgram UInt64 :=
  Program.query .readVersions fun _ s => s.versionOf key

def clearHistory (key : String) : HistoryProgram Unit := do
  withHistory (.removeHistory key)
    (fun s =>
      { s with
        history := s.history.erase key
        held := true
        log := Function.update s.log key [] })
    fun _ => ()
  Program.update (.removeVersions key)
    (fun _ s =>
      { s with
        currentVersions := s.currentVersions.erase key
        held := false
        taken := Function.update s.taken key none })
    fun _ _ => ()

end ConfigHistory

namespace ConfigRollback

open ConfigHistory

def rollbackTo (maxHistory : Nat) (key : String) (version : UInt64) :
    HistoryProgram (Except String String) := do
  match ← getVersion key version with
  | none =>
    pure (.error ("Version " ++ Nat.repr version.toNat ++ " not found for key " ++ key))
  | some entry => do
      let _ ← record maxHistory key entry.value entry.changedBy
        (some ("Rollback to version " ++ Nat.repr version.toNat))
      pure (.ok entry.value)

def rollbackPrevious (maxHistory : Nat) (key : String) : HistoryProgram (Except String String) := do
  let current ← currentVersion key
  if current ≤ 1 then pure (.error "No previous version to rollback to")
  else rollbackTo maxHistory key (current - 1)

end ConfigRollback

inductive HistoryReply
  | recorded (entry : ConfigVersion)
  | rolledBack (result : Except String String)
  | found (entry : Option ConfigVersion)
  | cleared
  | current (version : UInt64)

open ConfigHistory ConfigRollback

/-- The calls of the history and of the rollback manager. -/
inductive Spawns (maxHistory : Nat) : HistoryProgram HistoryReply → Prop
  | record (key value : String) (changedBy description : Option String) :
      Spawns maxHistory do
        let entry ← record maxHistory key value changedBy description
        pure (.recorded entry)
  | rollbackTo (key : String) (version : UInt64) :
      Spawns maxHistory do
        let result ← rollbackTo maxHistory key version
        pure (.rolledBack result)
  | rollbackPrevious (key : String) :
      Spawns maxHistory do
        let result ← rollbackPrevious maxHistory key
        pure (.rolledBack result)
  | getVersion (key : String) (version : UInt64) :
      Spawns maxHistory do
        let entry ← getVersion key version
        pure (.found entry)
  | clearHistory (key : String) :
      Spawns maxHistory do
        clearHistory key
        pure .cleared
  | currentVersion (key : String) :
      Spawns maxHistory do
        let version ← currentVersion key
        pure (.current version)

end UHorse.Config
