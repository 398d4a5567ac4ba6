import UHorse.Lib.HashMap
import UHorse.Lib.System

/-!
# The bookkeeping of data migrations

The manager keeps the migrations in a list, and each of its calls is one section under the lock of
that list. A cancellation removes the migration before it looks at its status.
-/

namespace UHorse.Storage

open UHorse.Lib

inductive MigrationStatus
  | pending
  | inProgress
  | completed
  | failed (message : String)
  | rolledBack
deriving DecidableEq

structure MigrationStep where
  id : String
  sourceShard : UInt32
  targetShard : UInt32
  rangeStart : Int64
  rangeEnd : Int64
  status : MigrationStatus
  processed : UInt64
  total : UInt64
  startedAt : Option Int64
  completedAt : Option Int64
deriving DecidableEq

def MigrationStep.new (id : String) (sourceShard targetShard : UInt32)
    (rangeStart rangeEnd : Int64) (total : UInt64) : MigrationStep where
  id := id
  sourceShard := sourceShard
  targetShard := targetShard
  rangeStart := rangeStart
  rangeEnd := rangeEnd
  status := .pending
  processed := 0
  total := total
  startedAt := none
  completedAt := none

/-- What a status update writes, at a time in seconds. -/
def MigrationStep.update (step : MigrationStep) (status : MigrationStatus)
    (processed : Option UInt64) (now : Int64) : MigrationStep :=
  { step with
    status := status
    processed := processed.getD step.processed
    startedAt :=
      if status = .inProgress ∧ step.startedAt = none then some now else step.startedAt
    completedAt := if status = .completed then some now else step.completedAt }

@[simp] theorem MigrationStep.update_id (step : MigrationStep) (status : MigrationStatus)
    (processed : Option UInt64) (now : Int64) :
    (step.update status processed now).id = step.id := rfl

abbrev Migrations := List MigrationStep

namespace Migrations

def position? (migrations : Migrations) (id : String) : Option Nat :=
  migrations.findIdx? fun step => step.id = id

def createMigration (migrations : Migrations) (step : MigrationStep) :
    Except String Unit × Migrations :=
  if migrations.any fun other => other.id = step.id then
    (.error ("Migration " ++ step.id ++ " already exists"), migrations)
  else (.ok (), migrations ++ [step])

def getMigration (migrations : Migrations) (id : String) : Option MigrationStep :=
  migrations.find? fun step => step.id = id

def notFound (id : String) : String := "Migration " ++ id ++ " not found"

def updateStatus (migrations : Migrations) (id : String) (status : MigrationStatus)
    (processed : Option UInt64) (now : Int64) : Except String Unit × Migrations :=
  match migrations.position? id with
  | some place => (.ok (), migrations.modify place fun step => step.update status processed now)
  | none => (.error (notFound id), migrations)

/-- The migration is removed first. -/
def cancelMigration (migrations : Migrations) (id : String) : Except String Unit × Migrations :=
  match migrations.position? id with
  | some place =>
    let remaining := migrations.eraseIdx place
    if (migrations[place]?.map MigrationStep.status) = some .inProgress then
      (.error "Cannot cancel in-progress migration", remaining)
    else (.ok (), remaining)
  | none => (.error (notFound id), migrations)

end Migrations

/-! ## Runs -/

inductive MigrationCall
  | create (step : MigrationStep)
  | updateStatus (id : String) (status : MigrationStatus) (processed : Option UInt64) (now : Int64)
  | cancel (id : String)

def MigrationCall.perform : MigrationCall → Migrations → Except String Unit × Migrations
  | create step, migrations => migrations.createMigration step
  | updateStatus id status processed now, migrations =>
    migrations.updateStatus id status processed now
  | cancel id, migrations => migrations.cancelMigration id

/-- The list, and the migrations that were created and not cancelled since. -/
structure MigrationRun where
  migrations : Migrations
  created : HashMap String MigrationStep

/-- What a call that succeeds does to the migrations that are to be kept. -/
def MigrationCall.book : MigrationCall → HashMap String MigrationStep → HashMap String MigrationStep
  | create step, created => created.insert step.id step
  | updateStatus _ _ _ _, created => created
  | cancel id, created => created.erase id

namespace MigrationRun

def start : MigrationRun := ⟨[], ∅⟩

def after (run : MigrationRun) (call : MigrationCall) : MigrationRun where
  migrations := (call.perform run.migrations).2
  created :=
    match (call.perform run.migrations).1 with
    | .ok _ => call.book run.created
    | .error _ => run.created

end MigrationRun

/-- What no status update changes. -/
def MigrationStep.plan (step : MigrationStep) :
    String × UInt32 × UInt32 × Int64 × Int64 × UInt64 :=
  (step.id, step.sourceShard, step.targetShard, step.rangeStart, step.rangeEnd, step.total)

/-- The ids are distinct, and what was created can be found as it was planned. -/
structure MigrationRun.Booked (run : MigrationRun) : Prop where
  distinct : (run.migrations.map MigrationStep.id).Nodup
  retrievable : ∀ id step, run.created.lookup id = some step →
    ∃ found, run.migrations.getMigration id = some found ∧ found.plan = step.plan

/-- The books are right behind the call, and an error changes nothing. -/
structure MigrationCall.BooksWell (run : MigrationRun) (call : MigrationCall) : Prop where
  booked : (run.after call).Booked
  unchanged : ∀ message, (call.perform run.migrations).1 = .error message →
    (run.after call).migrations = run.migrations

/-- The call cancels no migration that is in progress. -/
def MigrationCall.Cautious (run : MigrationRun) (call : MigrationCall) : Prop :=
  ∀ id, call = .cancel id → ∀ step, run.migrations.getMigration id = some step →
    step.status ≠ .inProgress

/-! ## What the calls do -/

namespace Migrations

variable {migrations front back : Migrations} {id : String} {step : MigrationStep}

/-- Where a migration is found. -/
theorem exists_split (found : migrations.getMigration id = some step) :
    ∃ front back, migrations = front ++ step :: back ∧ step.id = id ∧
      ∀ other ∈ front, other.id ≠ id := by
  obtain ⟨same, front, back, split, before⟩ := List.find?_eq_some_iff_append.mp found
  refine ⟨front, back, split, of_decide_eq_true same, fun other member => ?_⟩
  simpa using before other member

theorem position?_split (before : ∀ other ∈ front, other.id ≠ step.id) :
    position? (front ++ step :: back) step.id = some front.length := by
  have none_ : front.findIdx? (fun other => other.id = step.id) = none := by
    simpa using before
  rw [position?, List.findIdx?_append, none_]
  simp [List.findIdx?_cons]

theorem position?_eq_none (missing : migrations.getMigration id = none) :
    migrations.position? id = none := by
  rw [getMigration, List.find?_eq_none] at missing
  rw [position?, List.findIdx?_eq_none_iff]
  simpa using missing

theorem modify_split (f : MigrationStep → MigrationStep) :
    List.modify (front ++ step :: back) front.length f = front ++ f step :: back := by
  induction front with
  | nil => rfl
  | cons first front ih =>
    rw [List.cons_append, List.length_cons, List.modify_succ_cons, ih]
    rfl

theorem updateStatus_split (before : ∀ other ∈ front, other.id ≠ step.id)
    (status : MigrationStatus) (processed : Option UInt64) (now : Int64) :
    updateStatus (front ++ step :: back) step.id status processed now =
      (.ok (), front ++ step.update status processed now :: back) := by
  rw [updateStatus, position?_split before]
  simp only [modify_split]

theorem cancelMigration_split (before : ∀ other ∈ front, other.id ≠ step.id) :
    cancelMigration (front ++ step :: back) step.id =
      (if step.status = .inProgress then .error "Cannot cancel in-progress migration" else .ok (),
        front ++ back) := by
  rw [cancelMigration, position?_split before]
  have here : (front ++ step :: back)[front.length]? = some step := by simp
  have removed : (front ++ step :: back).eraseIdx front.length = front ++ back := by
    rw [List.eraseIdx_append_of_length_le (Nat.le_refl _), Nat.sub_self]
    rfl
  simp only [here, removed, Option.map_some, Option.some.injEq]
  split <;> rfl

theorem getMigration_split (before : ∀ other ∈ front, other.id ≠ step.id) (id : String) :
    getMigration (front ++ step :: back) id =
      if id = step.id then some step else getMigration (front ++ back) id := by
  rw [getMigration, getMigration, List.find?_append, List.find?_append, List.find?_cons]
  by_cases same : id = step.id
  · subst same
    have none_ : front.find? (fun other => other.id = step.id) = none := by
      simpa using before
    rw [none_, if_pos rfl]
    simp
  · have other : ¬ step.id = id := fun equal => same equal.symm
    rw [if_neg same]
    simp [other]

end Migrations

/-! ## Which runs keep the books -/

namespace MigrationRun

variable {run : MigrationRun}

/-- A call that fails and changes nothing keeps the books. -/
theorem Booked.of_error (booked : run.Booked) {call : MigrationCall} {message : String}
    (failed : call.perform run.migrations = (.error message, run.migrations)) :
    call.BooksWell run := by
  have same : run.after call = run := by rw [after, failed]
  refine ⟨?_, fun _ _ => ?_⟩
  · rw [same]
    exact booked
  · rw [same]

theorem Booked.create (booked : run.Booked) (step : MigrationStep) :
    (MigrationCall.create step).BooksWell run := by
  by_cases taken : run.migrations.any fun other => other.id = step.id
  · exact booked.of_error (if_pos taken)
  · have performed : (MigrationCall.create step).perform run.migrations =
        (.ok (), run.migrations ++ [step]) := if_neg taken
    have fresh : ∀ other ∈ run.migrations, other.id ≠ step.id := by simpa using taken
    refine ⟨⟨?_, ?_⟩, fun message failed => ?_⟩
    · rw [after, performed, List.map_append, List.nodup_append]
      refine ⟨booked.distinct, List.nodup_singleton _, ?_⟩
      rintro _ old _ new rfl
      obtain ⟨other, member, same⟩ := List.mem_map.mp old
      exact fresh other member (same.trans (List.mem_singleton.mp new))
    · intro id planned found
      simp only [after, performed, MigrationCall.book, HashMap.lookup_insert_ite] at found ⊢
      rw [Migrations.getMigration_split fresh, List.append_nil]
      split at found
      · next same =>
          cases found
          exact ⟨step, if_pos same, rfl⟩
      · next other =>
          rw [if_neg other]
          exact booked.retrievable id planned found
    · rw [performed] at failed
      cases failed

theorem Booked.updateStatus (booked : run.Booked) (id : String) (status : MigrationStatus)
    (processed : Option UInt64) (now : Int64) :
    (MigrationCall.updateStatus id status processed now).BooksWell run := by
  cases found : run.migrations.getMigration id with
  | none =>
    have failed : (MigrationCall.updateStatus id status processed now).perform run.migrations =
        (.error (Migrations.notFound id), run.migrations) := by
      rw [MigrationCall.perform, Migrations.updateStatus, Migrations.position?_eq_none found]
    exact booked.of_error failed
  | some step =>
    obtain ⟨front, back, split, rfl, before⟩ := Migrations.exists_split found
    have performed : (MigrationCall.updateStatus step.id status processed now).perform
        run.migrations = (.ok (), front ++ step.update status processed now :: back) := by
      rw [MigrationCall.perform, split, Migrations.updateStatus_split before]
    refine ⟨⟨?_, ?_⟩, fun message failed => ?_⟩
    · have distinct := booked.distinct
      rw [split] at distinct
      rw [after, performed]
      simpa using distinct
    · intro other planned created
      simp only [after, performed, MigrationCall.book] at created ⊢
      obtain ⟨old, gotten, plan⟩ := booked.retrievable other planned created
      rw [split, Migrations.getMigration_split before] at gotten
      have apart : ∀ other ∈ front, other.id ≠ (step.update status processed now).id := before
      rw [Migrations.getMigration_split apart]
      split at gotten
      · next same =>
          cases gotten
          exact ⟨_, if_pos same, plan⟩
      · next different =>
          exact ⟨old, (if_neg different).trans gotten, plan⟩
    · rw [performed] at failed
      cases failed

theorem Booked.cancel_iff (booked : run.Booked) (id : String) :
    (MigrationCall.cancel id).BooksWell run ↔ (MigrationCall.cancel id).Cautious run := by
  cases found : run.migrations.getMigration id with
  | none =>
    have failed : (MigrationCall.cancel id).perform run.migrations =
        (.error (Migrations.notFound id), run.migrations) := by
      rw [MigrationCall.perform, Migrations.cancelMigration, Migrations.position?_eq_none found]
    refine iff_of_true (booked.of_error failed) ?_
    rintro _ ⟨⟩ step gotten
    rw [found] at gotten
    cases gotten
  | some step =>
    obtain ⟨front, back, split, rfl, before⟩ := Migrations.exists_split found
    have performed : (MigrationCall.cancel step.id).perform run.migrations =
        (if step.status = .inProgress then .error "Cannot cancel in-progress migration"
          else .ok (), front ++ back) := by
      rw [MigrationCall.perform, split, Migrations.cancelMigration_split before]
    by_cases busy : step.status = .inProgress
    · rw [if_pos busy] at performed
      refine iff_of_false (fun keeps => ?_) fun cautious => ?_
      · have same := keeps.unchanged _ (congrArg Prod.fst performed)
        rw [after, performed, split] at same
        have lengths := congrArg List.length same
        simp at lengths
      · exact cautious _ rfl step found busy
    · rw [if_neg busy] at performed
      refine iff_of_true ⟨⟨?_, ?_⟩, fun message failed => ?_⟩ ?_
      · have distinct := booked.distinct
        rw [split, List.map_append, List.map_cons] at distinct
        rw [after, performed, List.map_append]
        exact (List.nodup_middle.mp distinct).of_cons
      · intro other planned created
        simp only [after, performed, MigrationCall.book, HashMap.lookup_erase_ite] at created ⊢
        split at created
        · cases created
        · next different =>
            obtain ⟨old, gotten, plan⟩ := booked.retrievable other planned created
            rw [split, Migrations.getMigration_split before, if_neg different] at gotten
            exact ⟨old, gotten, plan⟩
      · rw [performed] at failed
        cases failed
      · rintro _ ⟨⟩ gotten known
        rw [found] at known
        cases known
        exact busy

theorem Booked.booksWell_iff (booked : run.Booked) (call : MigrationCall) :
    call.BooksWell run ↔ call.Cautious run := by
  cases call with
  | create step =>
    exact iff_of_true (booked.create step) fun _ other => by cases other
  | updateStatus id status processed now =>
    exact iff_of_true (booked.updateStatus id status processed now) fun _ other => by cases other
  | cancel id => exact booked.cancel_iff id

theorem booked_start : start.Booked :=
  ⟨List.nodup_nil, fun id step found => by simp [start] at found⟩

end MigrationRun

/-- A run keeps the books just when it cancels no migration in progress. -/
theorem books_kept_iff (calls : List MigrationCall) :
    Along MigrationRun.after (fun run call => call.BooksWell run) .start calls ↔
      Along MigrationRun.after (fun run call => call.Cautious run) .start calls := by
  exact along_congr (fun _ _ _ keeps => keeps.booked)
    (fun _ call booked => booked.booksWell_iff call) MigrationRun.booked_start

/-- The migration is started and then cancelled: the call fails, and the migration is gone. -/
theorem books_not_kept :
    ¬ Along MigrationRun.after (fun run call => call.BooksWell run) .start
      [.create (.new "rebalance" 1 2 0 1000 1000), .updateStatus "rebalance" .inProgress none 0,
        .cancel "rebalance"] := by
  rintro ⟨-, -, keeps, -⟩
  have same := keeps.unchanged "Cannot cancel in-progress migration" (by decide)
  revert same
  decide

end UHorse.Storage
