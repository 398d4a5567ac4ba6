import UHorse.Backup.Scheduler

/-!
# What retention has to keep

Cleaning up keeps the records that started last, whatever they are records of, and deletes the
files of the others by their names. What is needed to restore survives a run just if every cleanup
finds it among the latest records, under names of its own, and no backup ends without its base.
-/

namespace UHorse.Backup

open UHorse.Lib UHorse.Protocol

variable (config : BackupScheduleConfig)

/-- Every completed increment has its base, some full backup is kept once one has completed, and
the files of the kept backups were not deleted. -/
structure Restorable (s : Backups) : Prop where
  based : ∀ record ∈ s.scheduler.records, record.IsIncrement →
    ∃ base ∈ s.scheduler.records, base.IsBase ∧ record.baseBackupId = some base.id
  full : s.completedFull = true → ∃ record ∈ s.scheduler.records, record.IsBase
  files : ∀ record ∈ s.scheduler.records, record.storagePath ∉ s.deleted

/-- Fewer records than are to be kept started later. -/
def Recent (records : List BackupRecord) (record : BackupRecord) : Prop :=
  ∃ i, records[i]? = some record ∧
    rank BackupRecord.startedAt records (record, i) < config.retentionCount.toNat

/-- At least as many records as are to be kept started later. -/
def Stale (records : List BackupRecord) (record : BackupRecord) : Prop :=
  ∃ i, records[i]? = some record ∧
    config.retentionCount.toNat ≤ rank BackupRecord.startedAt records (record, i)

/-- The record has its own file, and if it is incremental, its base is stored. -/
def Ready (s : Backups) (record : BackupRecord) : Prop :=
  record.storagePath ∉ s.deleted ∧ (record.backupType = .incremental →
    ∃ base ∈ s.scheduler.records, base.IsBase ∧ record.baseBackupId = some base.id)

/-- No record with the id of a recent one is stale. -/
def Whole (s : Backups) : Label → Prop
  | .cleanup _ => ∀ record old, Recent config s.scheduler.records record →
      Stale config s.scheduler.records old → old.id ≠ record.id
  | _ => True

/-- Backups complete with a base and fail or complete with a file of their own, and a cleanup
finds what is needed among the recent records. -/
def Safe (s : Backups) : Label → Prop
  | .create .. | .start .. => True
  | .complete index _ _ _ => ∀ record, s.held[index]? = some record → Ready s record
  | .fail index _ _ => ∀ record, s.held[index]? = some record → record.storagePath ∉ s.deleted
  | .cleanup removable =>
    (∀ record, Recent config s.scheduler.records record → record.IsIncrement →
      ∃ base, Recent config s.scheduler.records base ∧ base.IsBase ∧
        record.baseBackupId = some base.id) ∧
    (s.completedFull = true → ∃ record, Recent config s.scheduler.records record ∧
      record.IsBase) ∧
    ∀ record old, Recent config s.scheduler.records record →
      Stale config s.scheduler.records old → old.storagePath = record.storagePath →
        removable old.storagePath = false

/-- A step is safe, and a cleanup takes copies of one record together. -/
def Careful (s : Backups) (label : Label) : Prop := Whole config s label ∧ Safe config s label

variable {config} {timestamp : Int → String} {s t : Backups} {label : Label}
  {removable : StoragePath → Bool}

/-! ## One cleanup -/

theorem removeRecord_head {kept rest : List BackupRecord} {old : BackupRecord}
    (apart : ∀ record ∈ kept, old.id ≠ record.id) (deleted : List StoragePath)
    (cleaned : UInt64) :
    BackupScheduler.removeRecord removable ⟨kept ++ old :: rest, deleted, cleaned⟩ old.id =
      ⟨kept ++ rest, if removable old.storagePath then old.storagePath :: deleted else deleted,
        cleaned + 1⟩ := by
  have others : ∀ record ∈ kept, ¬ (record.id = old.id) := fun record member same =>
    apart record member same.symm
  have found : (kept ++ old :: rest).find? (·.id = old.id) = some old := by
    rw [List.find?_append, List.find?_eq_none.mpr (by simpa using others), Option.none_or]
    simp
  have erased : (kept ++ old :: rest).eraseP (·.id = old.id) = kept ++ rest := by
    rw [List.eraseP_append_right _ (by simpa using others), List.eraseP_cons_of_pos (by simp)]
  simp only [BackupScheduler.removeRecord, found, erased]

/-- Removing the stale records one by one leaves the others, if no id is shared. -/
theorem removeRecords {kept dropped : List BackupRecord}
    (apart : ∀ record ∈ kept, ∀ old ∈ dropped, old.id ≠ record.id) (deleted : List StoragePath)
    (cleaned : UInt64) : ∃ files count,
      (dropped.map BackupRecord.id).foldl (BackupScheduler.removeRecord removable)
        ⟨kept ++ dropped, deleted, cleaned⟩ = ⟨kept, files, count⟩ ∧
      ∀ path, path ∈ files ↔ path ∈ deleted ∨
        ∃ old ∈ dropped, old.storagePath = path ∧ removable path = true := by
  induction dropped generalizing deleted cleaned with
  | nil => exact ⟨deleted, cleaned, by simp, by simp⟩
  | cons old dropped ih =>
    have head : ∀ record ∈ kept, old.id ≠ record.id :=
      fun record member => apart record member old List.mem_cons_self
    have rest : ∀ record ∈ kept, ∀ other ∈ dropped, other.id ≠ record.id :=
      fun record member other inside => apart record member other (List.mem_cons_of_mem _ inside)
    obtain ⟨files, count, same, listed⟩ := ih rest
      (if removable old.storagePath then old.storagePath :: deleted else deleted) (cleaned + 1)
    refine ⟨files, count, ?_, fun path => (listed path).trans ?_⟩
    · rw [List.map_cons, List.foldl_cons, removeRecord_head head, same]
    · rw [List.exists_mem_cons_iff, ← or_assoc]
      refine or_congr_left ?_
      by_cases can : removable old.storagePath = true
      · rw [if_pos can, List.mem_cons, or_comm]
        refine or_congr_right ⟨?_, fun both => both.1.symm⟩
        rintro rfl
        exact ⟨rfl, can⟩
      · rw [if_neg can]
        refine (or_iff_left ?_).symm
        rintro ⟨rfl, can'⟩
        exact can can'

/-- A cleanup that takes copies together keeps the recent records and deletes the files of the
stale ones. -/
theorem cleanup_eq (whole : Whole config s (.cleanup removable)) : ∃ files count,
    s.scheduler.cleanupOldBackups config removable =
      ⟨(sortDescending BackupRecord.startedAt s.scheduler.records).take
        config.retentionCount.toNat, files, count⟩ ∧
    ∀ path, path ∈ files ↔ ∃ old, Stale config s.scheduler.records old ∧
      old.storagePath = path ∧ removable path = true := by
  have apart : ∀ record ∈ (sortDescending BackupRecord.startedAt s.scheduler.records).take
      config.retentionCount.toNat, ∀ old ∈ (sortDescending BackupRecord.startedAt
        s.scheduler.records).drop config.retentionCount.toNat, old.id ≠ record.id :=
    fun record recent old stale =>
      whole record old (mem_take_sortDescending.mp recent) (mem_drop_sortDescending.mp stale)
  obtain ⟨files, count, same, listed⟩ := removeRecords apart [] 0
  rw [List.take_append_drop] at same
  refine ⟨files, count, same, fun path => (listed path).trans ?_⟩
  simp only [List.not_mem_nil, false_or]
  exact exists_congr fun old => and_congr_left fun _ => mem_drop_sortDescending

/-! ## One step -/

theorem withHeld_eq_some {index : Nat} {now : DateTime} {call : BackupRecord → Backups}
    (step : s.withHeld index now call = some t) : ∃ record, s.held[index]? = some record ∧
      call record = t := by
  rw [Backups.withHeld] at step
  split at step
  · next record here =>
      split at step
      · exact ⟨record, here, Option.some.inj step⟩
      · cases step
  · cases step

theorem Restorable.of_records (restorable : Restorable s)
    (records : t.scheduler.records = s.scheduler.records) (deleted : t.deleted = s.deleted)
    (full : t.completedFull = s.completedFull) : Restorable t := by
  refine ⟨?_, ?_, ?_⟩
  · rw [records]
    exact restorable.based
  · rw [records, full]
    exact restorable.full
  · rw [records, deleted]
    exact restorable.files

theorem records_completeBackup (scheduler : BackupScheduler) (record : BackupRecord) :
    (scheduler.completeBackup record).records = scheduler.records ++ [record] := by
  rw [BackupScheduler.completeBackup]
  split <;> rfl

/-- One more record is stored. -/
theorem restorable_concat (restorable : Restorable s) (record : BackupRecord)
    (records : t.scheduler.records = s.scheduler.records ++ [record])
    (deleted : t.deleted = s.deleted)
    (full : t.completedFull = true → s.completedFull = true ∨ record.IsBase) :
    Restorable t ↔ record.storagePath ∉ s.deleted ∧ (record.IsIncrement →
      ∃ base ∈ s.scheduler.records, base.IsBase ∧ record.baseBackupId = some base.id) := by
  constructor
  · intro after
    have member : record ∈ t.scheduler.records := by
      rw [records]
      exact List.mem_append_right _ List.mem_cons_self
    refine ⟨deleted ▸ after.files record member, ?_⟩
    intro increment
    obtain ⟨base, inside, isBase, link⟩ := after.based record member increment
    rw [records] at inside
    obtain old | new := List.mem_append.mp inside
    · exact ⟨base, old, isBase, link⟩
    · rw [List.mem_singleton.mp new] at isBase
      cases increment.1.symm.trans isBase.1
  · rintro ⟨file, based⟩
    refine ⟨?_, ?_, ?_⟩
    · rw [records]
      refine List.forall_mem_append.mpr ⟨?_, List.forall_mem_singleton.mpr ?_⟩
      · intro other old increment
        obtain ⟨base, inside, found⟩ := restorable.based other old increment
        exact ⟨base, List.mem_append_left _ inside, found⟩
      · intro increment
        obtain ⟨base, inside, found⟩ := based increment
        exact ⟨base, List.mem_append_left _ inside, found⟩
    · intro completed
      rw [records]
      obtain before | isBase := full completed
      · obtain ⟨base, inside, isBase⟩ := restorable.full before
        exact ⟨base, List.mem_append_left _ inside, isBase⟩
      · exact ⟨record, List.mem_append_right _ List.mem_cons_self, isBase⟩
    · rw [records, deleted]
      exact List.forall_mem_append.mpr ⟨restorable.files, List.forall_mem_singleton.mpr file⟩

theorem restorable_cleanup (restorable : Restorable s)
    (whole : Whole config s (.cleanup removable))
    (step : s.step config timestamp (.cleanup removable) = some t) :
    Restorable t ↔ Safe config s (.cleanup removable) := by
  obtain ⟨files, count, same, listed⟩ := cleanup_eq whole
  have step := Option.some.inj step
  simp only [same] at step
  have recent : ∀ record, record ∈ t.scheduler.records ↔
      Recent config s.scheduler.records record := by
    intro record
    rw [← step]
    exact mem_take_sortDescending
  have deleted : ∀ path, path ∈ t.deleted ↔ (∃ old, Stale config s.scheduler.records old ∧
      old.storagePath = path ∧ removable path = true) ∨ path ∈ s.deleted := by
    intro path
    rw [← listed, ← step]
    exact List.mem_append
  have full : t.completedFull = s.completedFull := by rw [← step]
  constructor
  · intro after
    refine ⟨?_, ?_, ?_⟩
    · intro record isRecent increment
      obtain ⟨base, inside, found⟩ := after.based record ((recent record).mpr isRecent) increment
      exact ⟨base, (recent base).mp inside, found⟩
    · intro completed
      obtain ⟨record, inside, isBase⟩ := after.full (full.trans completed)
      exact ⟨record, (recent record).mp inside, isBase⟩
    · intro record old isRecent stale shared
      have kept := after.files record ((recent record).mpr isRecent)
      cases can : removable old.storagePath with
      | false => rfl
      | true =>
        rw [← shared] at kept
        exact absurd ((deleted _).mpr (.inl ⟨old, stale, rfl, can⟩)) kept
  · rintro ⟨based, completed, apart⟩
    refine ⟨?_, ?_, ?_⟩
    · intro record inside increment
      obtain ⟨base, isRecent, found⟩ := based record ((recent record).mp inside) increment
      exact ⟨base, (recent base).mpr isRecent, found⟩
    · intro once
      obtain ⟨record, isRecent, isBase⟩ := completed (full.symm.trans once)
      exact ⟨record, (recent record).mpr isRecent, isBase⟩
    · intro record inside gone
      have isRecent := (recent record).mp inside
      obtain ⟨old, stale, shared, can⟩ | before := (deleted _).mp gone
      · have cannot := apart record old isRecent stale shared
        rw [shared] at cannot
        cases cannot.symm.trans can
      · obtain ⟨i, here, -⟩ := isRecent
        exact restorable.files record (List.mem_of_getElem? here) before

/-- A step that takes copies together keeps what is needed just if it is safe. -/
theorem restorable_step (restorable : Restorable s) (whole : Whole config s label)
    (step : s.step config timestamp label = some t) : Restorable t ↔ Safe config s label := by
  cases label with
  | create =>
    dsimp only [Backups.step] at step
    split at step <;> cases step
    exact iff_of_true (restorable.of_records rfl rfl rfl) trivial
  | start index now =>
    obtain ⟨record, -, rfl⟩ := withHeld_eq_some step
    exact iff_of_true (restorable.of_records rfl rfl rfl) trivial
  | complete index sizeBytes checksum now =>
    obtain ⟨record, here, same⟩ := withHeld_eq_some step
    let done := BackupScheduler.completedRecord record sizeBytes checksum now
    have records : t.scheduler.records = s.scheduler.records ++ [done] := by
      rw [← same]
      exact records_completeBackup _ done
    have deleted : t.deleted = s.deleted := by rw [← same]
    refine (restorable_concat restorable done records deleted ?_).trans ?_
    · intro completed
      rw [← same] at completed
      obtain before | isFull := Bool.or_eq_true_iff.mp completed
      · exact .inl before
      · exact .inr ⟨of_decide_eq_true isFull, rfl⟩
    · constructor
      · rintro ⟨file, based⟩ record' here'
        cases here.symm.trans here'
        exact ⟨file, fun incremental => based ⟨incremental, rfl⟩⟩
      · intro ready
        obtain ⟨file, based⟩ := ready record here
        exact ⟨file, fun increment => based increment.1⟩
  | fail index error now =>
    obtain ⟨record, here, same⟩ := withHeld_eq_some step
    let failed := BackupScheduler.failedRecord record error now
    have records : t.scheduler.records = s.scheduler.records ++ [failed] := by rw [← same]; rfl
    have deleted : t.deleted = s.deleted := by rw [← same]
    have full : t.completedFull = true → s.completedFull = true ∨ failed.IsBase := by
      rw [← same]
      exact .inl
    refine (restorable_concat restorable failed records deleted full).trans ?_
    constructor
    · rintro ⟨file, -⟩ record' here'
      cases here.symm.trans here'
      exact file
    · intro file
      exact ⟨file record here, fun increment => nomatch increment.2⟩
  | cleanup removable => exact restorable_cleanup restorable whole step

/-- Runs of careful steps keep what is needed to restore, and a step that takes copies of one
record together but is not safe loses it. -/
theorem retention_keeps_restorable {s : Backups}
    (reached : ((backups config timestamp).restrict (Careful config)).Reachable s) :
    Restorable s ∧ ∀ label t, (backups config timestamp).Step s label t → Whole config s label →
      (Restorable t ↔ Safe config s label) := by
  have restorable : Restorable s := by
    refine reached.invariant ?_ ?_
    · rintro s ⟨clock, rfl⟩
      exact ⟨List.forall_mem_nil _, nofun, List.forall_mem_nil _⟩
    · rintro s label t before ⟨⟨whole, safe⟩, step⟩
      exact (restorable_step before whole step).mpr safe
  exact ⟨restorable, fun label t step whole => restorable_step restorable whole step⟩

/-! ### Three backups -/

/-- The records whose ranks meet a condition. -/
def ranked (admits : Nat → Bool) (records : List BackupRecord) : List BackupRecord :=
  (records.zipIdx.filter fun entry =>
    admits (rank BackupRecord.startedAt records entry)).map Prod.fst

variable {records : List BackupRecord} {record : BackupRecord}

theorem mem_ranked {admits : Nat → Bool} :
    record ∈ ranked admits records ↔ ∃ i, records[i]? = some record ∧
      admits (rank BackupRecord.startedAt records (record, i)) = true := by
  rw [ranked]
  rw [List.mem_map]
  constructor
  · rintro ⟨⟨record, i⟩, member, rfl⟩
    obtain ⟨inside, admitted⟩ := List.mem_filter.mp member
    exact ⟨i, List.mem_zipIdx_iff_getElem?.mp inside, admitted⟩
  · rintro ⟨i, here, admitted⟩
    exact ⟨(record, i), List.mem_filter.mpr ⟨List.mem_zipIdx_iff_getElem?.mpr here, admitted⟩, rfl⟩

theorem recent_iff :
    Recent config records record ↔
      record ∈ ranked (· < config.retentionCount.toNat) records := by
  simp only [Recent, mem_ranked, decide_eq_true_eq]

theorem stale_iff :
    Stale config records record ↔
      record ∈ ranked (config.retentionCount.toNat ≤ ·) records := by
  simp only [Stale, mem_ranked, decide_eq_true_eq]

def keeping (retentionCount : UInt32) : BackupScheduleConfig := ⟨"/backups", retentionCount⟩

def sampleTimestamp (second : Int) : String := if second = 0 then "first" else "second"

/-- A full backup in the first second and an incremental one in the second. -/
def pairLabels : List Label :=
  [.create .full "full-1" 0 0, .complete 0 7 "a" 0,
    .create .incremental "increment-1" 1000000000 1000000000, .complete 1 7 "b" 1000000000]

/-- Two full backups and an incremental one. -/
def tripleLabels : List Label :=
  [.create .full "full-1" 0 0, .complete 0 7 "a" 0,
    .create .full "full-2" 1000000000 1000000000, .complete 1 7 "b" 1000000000,
    .create .incremental "increment-1" 1000000000 1000000000, .complete 2 7 "c" 1000000000]

/-- Whether no recent record of a cleanup has the id of a stale one. -/
def admitsWhole (config : BackupScheduleConfig) (s : Backups) : Bool :=
  (ranked (· < config.retentionCount.toNat) s.scheduler.records).all fun record =>
    (ranked (config.retentionCount.toNat ≤ ·) s.scheduler.records).all fun old =>
      old.id != record.id

/-- Whether a call is safe. -/
def admitsSafe (config : BackupScheduleConfig) (s : Backups) : Label → Bool
  | .create .. | .start .. => true
  | .complete index _ _ _ => s.held[index]?.all fun record =>
    decide (record.storagePath ∉ s.deleted) && (record.backupType == .full ||
      s.scheduler.records.any fun base =>
        decide base.IsBase && decide (record.baseBackupId = some base.id))
  | .fail index _ _ => s.held[index]?.all fun record => decide (record.storagePath ∉ s.deleted)
  | .cleanup removable =>
    let recent := ranked (· < config.retentionCount.toNat) s.scheduler.records
    let stale := ranked (config.retentionCount.toNat ≤ ·) s.scheduler.records
    (recent.all fun record => !decide record.IsIncrement || recent.any fun base =>
      decide base.IsBase && decide (record.baseBackupId = some base.id)) &&
    (!s.completedFull || recent.any fun record => decide record.IsBase) &&
    recent.all fun record => stale.all fun old =>
      decide (old.storagePath ≠ record.storagePath) || !removable old.storagePath

theorem whole_of_admits (admitted : admitsWhole config s = true) (label : Label) :
    Whole config s label := by
  cases label with
  | cleanup removable =>
    intro record old recent stale
    have each := List.all_eq_true.mp admitted record (recent_iff.mp recent)
    exact bne_iff_ne.mp (List.all_eq_true.mp each old (stale_iff.mp stale))
  | _ => trivial

theorem safe_of_admits (admitted : admitsSafe config s label = true) : Safe config s label := by
  cases label with
  | create | start => trivial
  | complete index =>
    intro record here
    simp only [admitsSafe, here, Option.all_some, Bool.and_eq_true, Bool.or_eq_true,
      decide_eq_true_eq, List.any_eq_true, beq_iff_eq] at admitted
    obtain ⟨file, full | ⟨base, inside, found⟩⟩ := admitted
    · exact ⟨file, fun incremental => nomatch full.symm.trans incremental⟩
    · exact ⟨file, fun _ => ⟨base, inside, found⟩⟩
  | fail index =>
    intro record here
    simpa only [admitsSafe, here, Option.all_some, decide_eq_true_eq] using admitted
  | cleanup removable =>
    simp only [admitsSafe, Bool.and_eq_true, List.all_eq_true, Bool.or_eq_true,
      Bool.not_eq_true', decide_eq_false_iff_not, List.any_eq_true, decide_eq_true_eq,
      ← recent_iff, ← stale_iff] at admitted
    obtain ⟨⟨based, full⟩, apart⟩ := admitted
    refine ⟨?_, ?_, ?_⟩
    · intro record recent increment
      exact (based record recent).resolve_left (not_not.mpr increment)
    · intro completed
      refine full.resolve_left ?_
      rw [completed]
      exact Bool.true_eq_false_eq_False
    · intro record old recent stale shared
      exact (apart record recent old stale).resolve_left (not_not.mpr shared)

def runCareful (config : BackupScheduleConfig) : Backups → List Label → Option Backups
  | s, [] => some s
  | s, label :: rest =>
    if admitsWhole config s && admitsSafe config s label then
      (s.step config sampleTimestamp label).bind fun t => runCareful config t rest
    else none

theorem reachable_runCareful {labels : List Label}
    (reached : ((backups config sampleTimestamp).restrict (Careful config)).Reachable s)
    (ran : runCareful config s labels = some t) :
    ((backups config sampleTimestamp).restrict (Careful config)).Reachable t := by
  induction labels generalizing s with
  | nil =>
    cases ran
    exact reached
  | cons label rest ih =>
    rw [runCareful] at ran
    split at ran
    · next admitted =>
        obtain ⟨whole, safe⟩ := Bool.and_eq_true_iff.mp admitted
        obtain ⟨middle, step, later⟩ := Option.bind_eq_some_iff.mp ran
        exact ih (reached.step ⟨⟨whole_of_admits whole label, safe_of_admits safe⟩, step⟩) later
    · cases ran

/-- The oldest of three backups goes, and with it its file. -/
theorem retention_keeps_restorable_sample : ∃ s,
    ((backups (keeping 2) sampleTimestamp).restrict (Careful (keeping 2))).Reachable s ∧
    ⟨"/backups", "full_first.backup"⟩ ∈ s.deleted ∧ Restorable s := by
  have first : (runCareful (keeping 2) (.new 0) tripleLabels).map (fun s =>
      (admitsWhole (keeping 2) s && admitsSafe (keeping 2) s (.cleanup fun _ => true),
        (ranked (2 ≤ ·) s.scheduler.records).map BackupRecord.storagePath)) =
      some (true, [⟨"/backups", "full_first.backup"⟩]) := by decide
  obtain ⟨s, ran, same⟩ := Option.map_eq_some_iff.mp first
  obtain ⟨admitted, stale⟩ := Prod.mk.inj same
  obtain ⟨whole, safe⟩ := Bool.and_eq_true_iff.mp admitted
  have whole : Whole (keeping 2) s (.cleanup fun _ => true) := whole_of_admits whole _
  have reached :
      ((backups (keeping 2) sampleTimestamp).restrict (Careful (keeping 2))).Reachable s :=
    reachable_runCareful (.init ⟨0, rfl⟩) ran
  have cleaned := reached.step ⟨⟨whole, safe_of_admits safe⟩, rfl⟩
  refine ⟨_, cleaned, ?_, (retention_keeps_restorable cleaned).1⟩
  obtain ⟨files, count, same, listed⟩ := cleanup_eq whole
  have old : (⟨"/backups", "full_first.backup"⟩ : StoragePath) ∈
      (ranked (2 ≤ ·) s.scheduler.records).map BackupRecord.storagePath := by
    rw [stale]
    exact List.mem_cons_self
  obtain ⟨record, member, path⟩ := List.mem_map.mp old
  refine List.mem_append_left _ ?_
  rw [same]
  exact (listed _).mpr ⟨record, stale_iff.mpr member, path, rfl⟩

/-- With one record to keep, the base of the increment goes. -/
theorem retention_loses_base : ¬ ∀ (config : BackupScheduleConfig) (timestamp : Int → String) s,
    1 ≤ config.retentionCount → (backups config timestamp).Reachable s → Restorable s := by
  intro always
  have first : (runCareful (keeping 1) (.new 0) pairLabels).map (fun s =>
      (admitsWhole (keeping 1) s, s.completedFull,
        (ranked (· < 1) s.scheduler.records).any fun record => decide record.IsBase)) =
      some (true, true, false) := by decide
  obtain ⟨s, ran, same⟩ := Option.map_eq_some_iff.mp first
  obtain ⟨whole, same⟩ := Prod.mk.inj same
  obtain ⟨completed, none⟩ := Prod.mk.inj same
  have whole : Whole (keeping 1) s (.cleanup fun _ => true) := whole_of_admits whole _
  have reached : (backups (keeping 1) sampleTimestamp).Reachable s :=
    (reachable_runCareful (.init ⟨0, rfl⟩) ran).of_restrict
  have one : 1 ≤ (keeping 1).retentionCount := by decide
  have before := always (keeping 1) sampleTimestamp s one reached
  obtain ⟨t, step⟩ : ∃ t, s.step (keeping 1) sampleTimestamp (.cleanup fun _ => true) = some t :=
    ⟨_, rfl⟩
  have after := always (keeping 1) sampleTimestamp t one (reached.step step)
  obtain ⟨-, full, -⟩ := (restorable_cleanup before whole step).mp after
  obtain ⟨record, recent, isBase⟩ := full completed
  have found : (ranked (· < 1) s.scheduler.records).any (fun record => decide record.IsBase) =
      true := List.any_eq_true.mpr ⟨record, recent_iff.mp recent, decide_eq_true isBase⟩
  cases found.symm.trans none

end UHorse.Backup
