import UHorse.Lib.HashMap
import UHorse.Lib.LockedProgram

/-!
# The failover manager and its locks

The operations of the manager as programs over `records`, `failures` and
`service_status`, each under a lock of its own.

`detect_failure` and `recover_service` keep `service_status` while they ask for
`failures`. `stats` takes `records`, `failures` and `service_status` in this order and
keeps them all, so that it holds `failures` while it asks for `service_status`.
-/

namespace UHorse.Discovery

open UHorse.Lib

inductive FailoverStrategy
  | automatic
  | manual
  | priority
deriving DecidableEq, Repr

inductive FailoverStatus
  | healthy
  | degraded
  | failingOver
  | failedOver
  | recovering
deriving DecidableEq, Repr

inductive FailureType
  | healthCheckFailed
  | connectionTimeout
  | serviceUnavailable
  | resourceExhausted
  | networkPartition
  | unknown
deriving DecidableEq, Repr

structure ServiceInstance where
  id : String
  name : String
deriving DecidableEq, Repr

structure FailureRecord where
  id : String
  instanceId : String
  serviceName : String
  failureType : FailureType
  occurredAt : Nat
  recoveredAt : Option Nat
  description : String
deriving DecidableEq, Repr

structure FailoverRecord where
  id : String
  serviceName : String
  sourceInstanceId : String
  targetInstanceId : Option String
  status : FailoverStatus
  startedAt : Nat
  completedAt : Option Nat
  failureReason : Option String
  retryCount : Nat
deriving DecidableEq, Repr

inductive DiscoveryError
  | noHealthyInstances (serviceName : String)
deriving DecidableEq, Repr

structure FailoverConfig where
  strategy : FailoverStrategy

structure FailoverStats where
  totalFailovers : Nat
  successfulFailovers : Nat
  inProgressFailovers : Nat
  totalFailures : Nat
  activeFailures : Nat
  degradedServices : Nat
  recoveringServices : Nat
  healthyServices : Nat
deriving DecidableEq, Repr

structure FailoverManager where
  config : FailoverConfig
  records : List FailoverRecord
  failures : List FailureRecord
  serviceStatus : HashMap String FailoverStatus

def FailureRecord.new (id instanceId serviceName : String) (failureType : FailureType)
    (description : String) (now : Nat) : FailureRecord where
  id := id
  instanceId := instanceId
  serviceName := serviceName
  failureType := failureType
  occurredAt := now
  recoveredAt := none
  description := description

def FailoverRecord.new (id serviceName sourceInstanceId : String) (now : Nat) :
    FailoverRecord where
  id := id
  serviceName := serviceName
  sourceInstanceId := sourceInstanceId
  targetInstanceId := none
  status := .failingOver
  startedAt := now
  completedAt := none
  failureReason := none
  retryCount := 0

namespace FailoverManager

def new (config : FailoverConfig) : FailoverManager := ⟨config, [], [], ∅⟩

/-- The first instance of least id. -/
def minById : List ServiceInstance → Option ServiceInstance
  | [] => none
  | first :: rest =>
    match minById rest with
    | some least => if least.id < first.id then some least else some first
    | none => some first

def selectTarget (config : FailoverConfig) (healthyInstances : List ServiceInstance) :
    Option ServiceInstance :=
  match config.strategy with
  | .automatic => healthyInstances.head?
  | .manual => healthyInstances.head?
  | .priority => minById healthyInstances

def setStatus (manager : FailoverManager) (instanceId : String) (status : FailoverStatus) :
    FailoverManager :=
  { manager with serviceStatus := manager.serviceStatus.insert instanceId status }

/-- Open failures of the instance are closed, each at its own reading of the clock. -/
def closeFailures (failures : List FailureRecord) (instanceId : String) (clock : Nat → Nat) :
    List FailureRecord :=
  failures.mapIdx fun index failure =>
    if failure.instanceId = instanceId ∧ failure.recoveredAt = none then
      { failure with recoveredAt := some (clock index) }
    else failure

def countStatus (records : List FailoverRecord) (status : FailoverStatus) : Nat :=
  records.countP fun record => record.status = status

def statistics (manager : FailoverManager) : FailoverStats where
  totalFailovers := manager.records.length
  successfulFailovers := countStatus manager.records .failedOver
  inProgressFailovers := countStatus manager.records .failingOver
  totalFailures := manager.failures.length
  activeFailures := manager.failures.countP fun failure => failure.recoveredAt = none
  degradedServices := countStatus manager.records .degraded
  recoveringServices := countStatus manager.records .recovering
  healthyServices := (manager.serviceStatus.keysWith fun status => status = .healthy).card

end FailoverManager

/-! ## Operations as threads -/

inductive FailoverLock
  | records
  | failures
  | serviceStatus
deriving DecidableEq, Repr

/-- A new identifier and the readings of the clock. -/
structure FailoverInput where
  id : String
  clock : Nat → Nat

inductive FailoverNote
  /-- The status of an instance is set, and its failures come next. -/
  | updateInstance
  | work
deriving DecidableEq

abbrev Failover (α : Type) := LockProgram FailoverManager FailoverLock FailoverInput FailoverNote α

namespace Failover

open LockProgram FailoverManager

def detectFailure (failed : ServiceInstance) (failureType : FailureType)
    (description : String) : Failover FailureRecord := do
  let record ← look .work fun input _ =>
    .new input.id failed.id failed.name failureType description (input.clock 0)
  within .serviceStatus .write do
    modify .updateInstance fun _ manager => manager.setStatus failed.id .degraded
    within .failures .write do
      modify .work fun _ manager => { manager with failures := manager.failures ++ [record] }
  pure record

/-- What is recorded of a failover, with or without a target. -/
def conclude (record : FailoverRecord) (now : Nat) : Option ServiceInstance → FailoverRecord
  | some target =>
    { record with
      targetInstanceId := some target.id
      status := .failedOver
      completedAt := some now }
  | none =>
    { record with
      status := .degraded
      failureReason := some "No healthy instances available" }

def publishTarget (failedInstanceId : String) : Option ServiceInstance → Failover Unit
  | some target =>
    within .serviceStatus .write do
      modify .work fun _ manager =>
        (manager.setStatus failedInstanceId .failedOver).setStatus target.id .healthy
  | none => pure ()

def executeFailover (serviceName failedInstanceId : String)
    (healthyInstances : List ServiceInstance) :
    Failover (Except DiscoveryError FailoverRecord) := do
  if healthyInstances.isEmpty then
    pure (.error (.noHealthyInstances serviceName))
  else
    let config ← look .work fun _ manager => manager.config
    let target := selectTarget config healthyInstances
    let record ← look .work fun input _ =>
      conclude (.new input.id serviceName failedInstanceId (input.clock 0)) (input.clock 1) target
    publishTarget failedInstanceId target
    within .records .write do
      modify .work fun _ manager => { manager with records := manager.records ++ [record] }
    pure (.ok record)

def recoverService (instanceId : String) : Failover Bool :=
  within .serviceStatus .write do
    let status ← look .work fun _ manager => manager.serviceStatus.lookup instanceId
    if status.isSome then
      modify .updateInstance fun _ manager => manager.setStatus instanceId .healthy
      within .failures .write do
        modify .work fun input manager =>
          { manager with failures := closeFailures manager.failures instanceId input.clock }
      pure true
    else
      pure false

def getServiceStatus (instanceId : String) : Failover (Option FailoverStatus) :=
  within .serviceStatus .read do
    look .work fun _ manager => manager.serviceStatus.lookup instanceId

def getRecord (recordId : String) : Failover (Option FailoverRecord) :=
  within .records .read do
    look .work fun _ manager => manager.records.find? fun record => record.id = recordId

def listRecords : Failover (List FailoverRecord) :=
  within .records .read do
    look .work fun _ manager => manager.records

def listFailures : Failover (List FailureRecord) :=
  within .failures .read do
    look .work fun _ manager => manager.failures

def stats : Failover FailoverStats :=
  within .records .read do
    within .failures .read do
      within .serviceStatus .read do
        look .work fun _ manager => manager.statistics

end Failover

inductive FailoverRuns : Failover Unit → Prop
  | detectFailure (failed : ServiceInstance) (failureType : FailureType) (description : String) :
      FailoverRuns (Failover.detectFailure failed failureType description).discard
  | executeFailover (serviceName failedInstanceId : String)
      (healthyInstances : List ServiceInstance) :
      FailoverRuns (Failover.executeFailover serviceName failedInstanceId healthyInstances).discard
  | recoverService (instanceId : String) : FailoverRuns (Failover.recoverService instanceId).discard
  | getServiceStatus (instanceId : String) :
      FailoverRuns (Failover.getServiceStatus instanceId).discard
  | getRecord (recordId : String) : FailoverRuns (Failover.getRecord recordId).discard
  | listRecords : FailoverRuns Failover.listRecords.discard
  | listFailures : FailoverRuns Failover.listFailures.discard
  | stats : FailoverRuns Failover.stats.discard

/-! ## The stages between two locks -/

inductive FailoverStage
  | idle
  /-- Has set a status and has yet to ask for `failures`. -/
  | updating
  /-- Has taken `failures` on top of `records` and has yet to ask for `service_status`. -/
  | counting
deriving DecidableEq, Repr

abbrev FailoverHolding := Holding FailoverLock FailoverStage

namespace FailoverStage

def advance (holding : FailoverHolding) : LockNote FailoverLock FailoverNote → FailoverStage
  | .work .updateInstance => .updating
  | .acquire .failures .write => .idle
  | .acquire .failures .read =>
    if (.records, .read) ∈ holding.locks then .counting else holding.stage
  | .acquire .serviceStatus .read => .idle
  | _ => holding.stage

def rival : FailoverStage → FailoverStage → Bool
  | .updating, .counting => true
  | .counting, .updating => true
  | _, _ => false

end FailoverStage

inductive FailoverWaits : FailoverHolding → FailoverLock → Prop
  | first (stage : FailoverStage) (wanted : FailoverLock) : FailoverWaits ⟨[], stage⟩ wanted
  | update : FailoverWaits ⟨[(.serviceStatus, .write)], .updating⟩ .failures
  | count (stage : FailoverStage) : FailoverWaits ⟨[(.records, .read)], stage⟩ .failures
  | total : FailoverWaits ⟨[(.failures, .read), (.records, .read)], .counting⟩ .serviceStatus

/-- Updates and statistics keep apart between their locks. -/
def failoverPlan : LockPlan FailoverLock FailoverNote FailoverStage where
  idle := .idle
  advance := FailoverStage.advance
  rival := FailoverStage.rival
  Waits := FailoverWaits
  symm stage other := by cases stage <;> cases other <;> rfl
  irrefl stage := by cases stage <;> rfl
  calm stage := by cases stage <;> rfl

abbrev FailoverPool :=
  LockPlan.Pools FailoverManager FailoverLock FailoverInput FailoverNote FailoverStage

/-- All interleavings of operations on a new manager. -/
def failovers (config : FailoverConfig) :
    System FailoverPool
      (PoolLabel (Locked FailoverManager FailoverLock) FailoverInput
        (LockNote FailoverLock FailoverNote) Unit) :=
  failoverPlan.system FailoverRuns fun manager => manager = .new config

/-! ## No deadlock -/

namespace Failover

open LockPlan

theorem tracks_look {before : FailoverHolding} {α : Type}
    (value : FailoverInput → FailoverManager → α) :
    failoverPlan.Tracks (LockProgram.look .work value : Failover α) before before :=
  Tracks.look _ _

theorem tracks_modify {before : FailoverHolding}
    (change : FailoverInput → FailoverManager → FailoverManager) :
    failoverPlan.Tracks (LockProgram.modify .work change : Failover Unit) before before :=
  Tracks.modify _ _

/-- A thread that takes one lock and drops it again. -/
theorem tracks_within {lock : FailoverLock} {mode : Mode} {α : Type} {inner : Failover α}
    (body : failoverPlan.Tracks inner ⟨[(lock, mode)], .idle⟩ ⟨[(lock, mode)], .idle⟩) :
    failoverPlan.Tracks (LockProgram.within lock mode inner) failoverPlan.nothing
      failoverPlan.nothing := by
  have taken : failoverPlan.see failoverPlan.nothing (.acquire lock mode) =
      ⟨[(lock, mode)], .idle⟩ := by
    cases lock <;> cases mode <;> rfl
  have dropped : failoverPlan.see ⟨[(lock, mode)], .idle⟩ (.release lock mode) =
      failoverPlan.nothing := by
    cases lock <;> cases mode <;> rfl
  have entered : failoverPlan.Tracks inner (failoverPlan.see failoverPlan.nothing
      (.acquire lock mode)) ⟨[(lock, mode)], .idle⟩ := by
    rw [taken]
    exact body
  have tracks := Tracks.within (FailoverWaits.first .idle lock) entered
  rw [dropped] at tracks
  exact tracks

/-- The failures are changed by a thread that has set a status. -/
theorem tracks_update (instanceId : String) (status : FailoverStatus)
    (change : FailoverInput → FailoverManager → FailoverManager) :
    failoverPlan.Tracks (do
        LockProgram.modify .updateInstance fun _ manager => manager.setStatus instanceId status
        LockProgram.within .failures .write (LockProgram.modify .work change) : Failover Unit)
      ⟨[(.serviceStatus, .write)], .idle⟩ ⟨[(.serviceStatus, .write)], .idle⟩ :=
  (Tracks.modify _ _).bind fun _ => Tracks.within FailoverWaits.update (tracks_modify _)

theorem tracks_publishTarget (failedInstanceId : String) (target : Option ServiceInstance) :
    failoverPlan.Tracks (publishTarget failedInstanceId target) failoverPlan.nothing
      failoverPlan.nothing := by
  cases target with
  | none => exact Tracks.pure _
  | some target => exact tracks_within (tracks_modify _)

theorem tracks_stats : failoverPlan.Tracks stats failoverPlan.nothing failoverPlan.nothing :=
  Tracks.within (FailoverWaits.first .idle .records) <|
    Tracks.within (FailoverWaits.count .idle) (Tracks.within FailoverWaits.total (tracks_look _))

theorem follows (program : Failover Unit) (runs : FailoverRuns program) :
    failoverPlan.Tracks program failoverPlan.nothing failoverPlan.nothing := by
  cases runs with
  | detectFailure failed =>
    refine Tracks.discard ((tracks_look _).bind fun record => ?_)
    exact (tracks_within (tracks_update failed.id _ _)).bind fun _ => .pure _
  | executeFailover serviceName failedInstanceId healthyInstances =>
    refine Tracks.discard ?_
    rw [Failover.executeFailover]
    split
    · exact .pure _
    · refine (tracks_look _).bind fun config => (tracks_look _).bind fun record => ?_
      refine (tracks_publishTarget _ _).bind fun _ => ?_
      exact (tracks_within (tracks_modify _)).bind fun _ => .pure _
  | recoverService instanceId =>
    refine Tracks.discard (tracks_within ((tracks_look _).bind fun status => ?_))
    split
    · exact (tracks_update instanceId _ _).bind fun _ => .pure _
    · exact .pure _
  | getServiceStatus => exact (tracks_within (tracks_look _)).discard
  | getRecord => exact (tracks_within (tracks_look _)).discard
  | listRecords => exact (tracks_within (tracks_look _)).discard
  | listFailures => exact (tracks_within (tracks_look _)).discard
  | stats => exact tracks_stats.discard

end Failover

/-- The order of the locks while some thread updates, and while none does. -/
def failoverRank (updating : Bool) : FailoverLock → Nat
  | .records => 0
  | .serviceStatus => if updating then 1 else 2
  | .failures => if updating then 2 else 1

/-- No set of operations waits for each other's locks. -/
theorem failovers_not_deadlocked {config : FailoverConfig} {s : FailoverPool}
    (reached : ((failovers config).restrict failoverPlan.KeepsApart).Reachable s)
    (members : Set Nat) : ¬ Deadlocked (LockPlan.waitsFor s) (LockPlan.holds s) members := by
  have orderly := LockPlan.Orderly.of_reachable Failover.follows reached
  let updating := s.threads.any fun thread => thread.seen.stage = .updating
  refine LockPlan.not_deadlocked orderly (failoverRank updating) 2 ?_ ?_ members
  · intro lock
    cases lock <;> cases updating <;> decide
  · intro thread present wanted waits held member
    obtain ⟨program, seen⟩ := thread
    cases waits with
    | first => cases member
    | update =>
      have updates : updating = true := List.any_eq_true.mpr ⟨_, present, rfl⟩
      cases List.mem_singleton.mp member
      rw [updates]
      decide
    | count =>
      cases List.mem_singleton.mp member
      cases updating <;> decide
    | total =>
      have quiet : updating = false := by
        refine List.any_eq_false.mpr ?_
        intro other known updates
        have apart := orderly.apart _ present other known
        rw [of_decide_eq_true updates] at apart
        cases apart
      rw [quiet]
      simp only [List.mem_cons, List.not_mem_nil, or_false] at member
      obtain rfl | rfl := member <;> decide

/-! ### A failure is detected while statistics are read -/

def sampleInput : FailoverInput := ⟨"record-1", fun _ => 10⟩

/-- A failure is reported and the statistics are asked for; some actions of the first and then
some of the second. -/
def sampleFailovers (detecting counting : Nat) :
    List (Pool.Move FailoverRuns fun _ _ => False) :=
  [.spawn _ (.detectFailure ⟨"node-1", "hub"⟩ .connectionTimeout "no answer"), .spawn _ .stats] ++
    Pool.running (List.replicate detecting (0, sampleInput) ++
      List.replicate counting (1, sampleInput))

theorem failovers_reachable
    {guard : FailoverPool → PoolLabel (Locked FailoverManager FailoverLock) FailoverInput
      (LockNote FailoverLock FailoverNote) Unit → Prop} :
    ((failovers ⟨.automatic⟩).restrict guard).Reachable
      ⟨⟨.new ⟨.automatic⟩, fun _ => .free⟩, []⟩ := .init ⟨rfl, rfl, rfl⟩

theorem failovers_not_deadlocked_sample :
    ∃ s : FailoverPool, ((failovers ⟨.automatic⟩).restrict failoverPlan.KeepsApart).Reachable s ∧
      LockPlan.waitsFor s 1 = some (.failures, .read) ∧
      LockPlan.holds s 0 = [(.failures, .write), (.serviceStatus, .write)] ∧
      ¬ Deadlocked (LockPlan.waitsFor s) (LockPlan.holds s) {0, 1} := by
  obtain ⟨s, reached, waits, held⟩ := (failoverPlan.apartPlayer FailoverRuns _).exists_reachable
    failovers_reachable (sampleFailovers 4 1)
    (fun s : FailoverPool => LockPlan.waitsFor s 1 = some (.failures, .read) ∧
      LockPlan.holds s 0 = [(.failures, .write), (.serviceStatus, .write)]) (by decide)
  exact ⟨s, reached, waits, held, failovers_not_deadlocked reached {0, 1}⟩

/-- `detect_failure` and `stats` wait for each other. -/
theorem failovers_deadlocked :
    ∃ s, (failovers ⟨.automatic⟩).Reachable s ∧
      Deadlocked (LockPlan.waitsFor s) (LockPlan.holds s) {0, 1} := by
  obtain ⟨s, reached, tied⟩ := (failoverPlan.player FailoverRuns _).any.exists_reachable
    failovers_reachable (sampleFailovers 3 2)
    (fun s : FailoverPool => entangled (LockPlan.waitsFor s) (LockPlan.holds s) [0, 1] = true)
    (by decide)
  exact ⟨s, reached.of_restrict, deadlocked_of_entangled (by simp) tied⟩

end UHorse.Discovery
