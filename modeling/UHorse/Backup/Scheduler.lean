import UHorse.Lib.Ranking
import UHorse.Lib.System
import UHorse.Protocol.Types

/-!
# Backup records and their retention

The scheduler keeps the records of the backups that have ended. A caller creates a record, hands
it to the scheduler when the backup starts, completes or fails, and cleans up now and then; nothing
forces an order on these calls. How a second is written in a file name is a parameter.
-/

namespace UHorse.Backup

open UHorse.Lib UHorse.Protocol

/-! ## Records -/

inductive BackupType
  | full
  | incremental
deriving DecidableEq

inductive BackupStatus
  | pending
  | running
  | completed
  | failed
deriving DecidableEq

/-- A file in the backup directory. -/
structure StoragePath where
  directory : String
  fileName : String
deriving DecidableEq

structure BackupRecord where
  id : String
  backupType : BackupType
  status : BackupStatus
  storagePath : StoragePath
  sizeBytes : UInt64
  checksum : String
  baseBackupId : Option String
  startedAt : DateTime
  completedAt : Option DateTime
  errorMessage : Option String
deriving DecidableEq

namespace BackupRecord

def new (backupType : BackupType) (storagePath : StoragePath) (id : String) (now : DateTime) :
    BackupRecord where
  id := id
  backupType := backupType
  status := .pending
  storagePath := storagePath
  sizeBytes := 0
  checksum := ""
  baseBackupId := none
  startedAt := now
  completedAt := none
  errorMessage := none

def withBase (record : BackupRecord) (baseId : String) : BackupRecord :=
  { record with baseBackupId := some baseId }

/-- A full backup that has completed. -/
def IsBase (record : BackupRecord) : Prop :=
  record.backupType = .full ∧ record.status = .completed

instance (record : BackupRecord) : Decidable record.IsBase := inferInstanceAs (Decidable (_ ∧ _))

/-- An incremental backup that has completed. -/
def IsIncrement (record : BackupRecord) : Prop :=
  record.backupType = .incremental ∧ record.status = .completed

instance (record : BackupRecord) : Decidable record.IsIncrement :=
  inferInstanceAs (Decidable (_ ∧ _))

end BackupRecord

/-! ## The scheduler -/

structure BackupScheduleConfig where
  backupDir : String
  retentionCount : UInt32

structure BackupScheduler where
  records : List BackupRecord
  lastFullBackup : Option DateTime
  lastIncrementalBackup : Option DateTime

/-- `max_by_key`, which takes the last one of several maxima. -/
def maxByKey {α : Type} (key : α → DateTime) (items : List α) : Option α :=
  items.foldl
    (fun best item =>
      match best with
      | none => some item
      | some found => if key found ≤ key item then some item else some found)
    none

namespace BackupScheduler

variable (config : BackupScheduleConfig) (timestamp : Int → String) (s : BackupScheduler)

/-- The name of a file, with the time in whole seconds. -/
def fileName (backupType : BackupType) (now : DateTime) : String :=
  let second := timestamp (now / 1000000000)
  match backupType with
  | .full => "full_" ++ second ++ ".backup"
  | .incremental => "incremental_" ++ second ++ ".backup"

/-- The clock is read for the name and again for the start. -/
def createBackupRecord (backupType : BackupType) (id : String) (named started : DateTime) :
    BackupRecord :=
  let record := BackupRecord.new backupType ⟨config.backupDir, fileName timestamp backupType named⟩
    id started
  match backupType with
  | .full => record
  | .incremental =>
    match maxByKey BackupRecord.startedAt (s.records.filter fun found => found.IsBase) with
    | none => record
    | some lastFull => record.withBase lastFull.id

def startBackup (record : BackupRecord) (now : DateTime) : BackupRecord :=
  { record with status := .running, startedAt := now }

def completedRecord (record : BackupRecord) (sizeBytes : UInt64) (checksum : String)
    (now : DateTime) : BackupRecord :=
  { record with
    status := .completed
    completedAt := some now
    sizeBytes := sizeBytes
    checksum := checksum }

def completeBackup (record : BackupRecord) : BackupScheduler :=
  match record.backupType with
  | .full =>
    { s with lastFullBackup := some record.startedAt, records := s.records ++ [record] }
  | .incremental =>
    { s with lastIncrementalBackup := some record.startedAt, records := s.records ++ [record] }

def failedRecord (record : BackupRecord) (error : String) (now : DateTime) : BackupRecord :=
  { record with status := .failed, completedAt := some now, errorMessage := some error }

def failBackup (record : BackupRecord) : BackupScheduler :=
  { s with records := s.records ++ [record] }

/-! ### Cleaning up -/

/-- The records, the files that were deleted, and how many records were cleaned. -/
structure Cleanup where
  records : List BackupRecord
  deleted : List StoragePath
  cleaned : UInt64

/-- Remove the first record with an id, and delete its file unless that fails. -/
def removeRecord (removable : StoragePath → Bool) (state : Cleanup) (id : String) : Cleanup :=
  match state.records.find? (·.id = id) with
  | none => state
  | some record =>
    { records := state.records.eraseP (·.id = id)
      deleted :=
        if removable record.storagePath then record.storagePath :: state.deleted
        else state.deleted
      cleaned := state.cleaned + 1 }

/-- Keep the records that started last; the others are removed one by one by their ids. -/
def cleanupOldBackups (removable : StoragePath → Bool) : Cleanup :=
  let sorted := sortDescending BackupRecord.startedAt s.records
  let toRemove := (sorted.drop config.retentionCount.toNat).map BackupRecord.id
  toRemove.foldl (removeRecord removable) ⟨sorted, [], 0⟩

end BackupScheduler

/-! ## Runs -/

/-- The scheduler, the records its callers hold, the files that were deleted, whether a full backup
has ever completed, and the time. -/
structure Backups where
  scheduler : BackupScheduler
  held : List BackupRecord
  deleted : List StoragePath
  completedFull : Bool
  clock : DateTime

inductive Label
  | create (backupType : BackupType) (id : String) (named started : DateTime)
  | start (index : Nat) (now : DateTime)
  | complete (index : Nat) (sizeBytes : UInt64) (checksum : String) (now : DateTime)
  | fail (index : Nat) (error : String) (now : DateTime)
  | cleanup (removable : StoragePath → Bool)

namespace Backups

def new (clock : DateTime) : Backups := ⟨⟨[], none, none⟩, [], [], false, clock⟩

variable (config : BackupScheduleConfig) (timestamp : Int → String) (s : Backups)

/-- A call on a record that a caller holds, at a time the clock has reached. -/
def withHeld (index : Nat) (now : DateTime) (call : BackupRecord → Backups) : Option Backups :=
  match s.held[index]? with
  | some record => if s.clock ≤ now then some (call record) else none
  | none => none

def step : Label → Option Backups
  | .create backupType id named started =>
    if s.clock ≤ named ∧ named ≤ started then
      some { s with
        held := s.held ++
          [s.scheduler.createBackupRecord config timestamp backupType id named started]
        clock := started }
    else none
  | .start index now =>
    s.withHeld index now fun record =>
      { s with held := s.held.set index (BackupScheduler.startBackup record now), clock := now }
  | .complete index sizeBytes checksum now =>
    s.withHeld index now fun record =>
      let done := BackupScheduler.completedRecord record sizeBytes checksum now
      { s with
        scheduler := s.scheduler.completeBackup done
        held := s.held.set index done
        completedFull := s.completedFull || record.backupType = .full
        clock := now }
  | .fail index error now =>
    s.withHeld index now fun record =>
      let failed := BackupScheduler.failedRecord record error now
      { s with
        scheduler := s.scheduler.failBackup failed
        held := s.held.set index failed
        clock := now }
  | .cleanup removable =>
    let cleanup := s.scheduler.cleanupOldBackups config removable
    some { s with
      scheduler := { s.scheduler with records := cleanup.records }
      deleted := cleanup.deleted ++ s.deleted }

end Backups

/-- Every run of a new scheduler. -/
def backups (config : BackupScheduleConfig) (timestamp : Int → String) : System Backups Label where
  Init s := ∃ clock, s = .new clock
  Step s label t := s.step config timestamp label = some t

end UHorse.Backup
