import Mathlib.Algebra.GroupWithZero.Nat
import UHorse.Lib.HashMap
import UHorse.Lib.System
import UHorse.Protocol.Types

/-!
# Quotas of tenants

A tenant has the quotas of its plan and one record of its use, to which messages are added from the
day the tenant is created on. The record has the date of its creation, which no check looks at.

Counters of 64 bits wrap around. Dates are counted in days.
-/

namespace UHorse.Gateway

open UHorse.Lib UHorse.Protocol

abbrev TenantId := String

inductive TenantPlan
  | free
  | pro
  | enterprise
deriving DecidableEq

structure ResourceQuota where
  maxAgents : UInt32
  maxSkills : UInt32
  messagesPerDay : UInt32
  storageBytes : UInt64
  requestsPerMinute : UInt32
deriving DecidableEq

def ResourceQuota.forPlan : TenantPlan → ResourceQuota
  | .free => ⟨3, 10, 100, 100 * 1024 * 1024, 30⟩
  | .pro => ⟨20, 100, 10000, 10 * 1024 * 1024 * 1024, 300⟩
  | .enterprise => ⟨1000, 10000, 0xFFFFFFFF, 0xFFFFFFFFFFFFFFFF, 10000⟩

structure Tenant where
  id : TenantId
  name : String
  plan : TenantPlan
  quota : ResourceQuota
  enabled : Bool
  createdAt : DateTime
  updatedAt : DateTime

def Tenant.new (id : TenantId) (name : String) (plan : TenantPlan) (now : DateTime) : Tenant :=
  ⟨id, name, plan, .forPlan plan, true, now, now⟩

/-- The day of a time. -/
def dayOf (now : DateTime) : Int := now / (24 * 60 * 60 * 1000000000)

structure UsageRecord where
  tenantId : TenantId
  date : Int
  agentsCount : UInt32
  skillsCount : UInt32
  messagesCount : UInt64
  requestsCount : UInt64
  storageUsed : UInt64
  updatedAt : DateTime

def UsageRecord.new (tenantId : TenantId) (now : DateTime) : UsageRecord :=
  ⟨tenantId, dayOf now, 0, 0, 0, 0, 0, now⟩

inductive QuotaCheck
  | allowed
  | exceeded (resource : String) (current limit : UInt64)
deriving DecidableEq

def QuotaCheck.isExceeded : QuotaCheck → Bool
  | allowed => false
  | exceeded _ _ _ => true

structure TenantManager where
  tenants : HashMap TenantId Tenant
  usage : HashMap TenantId UsageRecord

namespace TenantManager

def new : TenantManager := ⟨∅, ∅⟩

/-- `id` is the identifier that is drawn. -/
def createTenant (manager : TenantManager) (id : TenantId) (name : String) (plan : TenantPlan)
    (now : DateTime) : Tenant × TenantManager :=
  let tenant := Tenant.new id name plan now
  (tenant, ⟨manager.tenants.insert id tenant, manager.usage.insert id (.new id now)⟩)

def updatePlan (manager : TenantManager) (id : TenantId) (plan : TenantPlan) (now : DateTime) :
    Option Tenant × TenantManager :=
  match manager.tenants.lookup id with
  | some tenant =>
    let tenant := { tenant with plan := plan, quota := .forPlan plan, updatedAt := now }
    (some tenant, { manager with tenants := manager.tenants.insert id tenant })
  | none => (none, manager)

/-- The check of one resource. -/
def checkResource (resource : String) (current limit : UInt64) : QuotaCheck :=
  if current ≥ limit then .exceeded resource current limit else .allowed

def checkQuota (manager : TenantManager) (tenantId : TenantId) (resource : String) : QuotaCheck :=
  match manager.tenants.lookup tenantId with
  | none => .exceeded "tenant" 0 0
  | some tenant =>
    let record := manager.usage.lookup tenantId
    if resource = "agents" then
      checkResource "agents" (record.elim 0 fun r => r.agentsCount.toUInt64)
        tenant.quota.maxAgents.toUInt64
    else if resource = "skills" then
      checkResource "skills" (record.elim 0 fun r => r.skillsCount.toUInt64)
        tenant.quota.maxSkills.toUInt64
    else if resource = "messages" then
      checkResource "messages" (record.elim 0 UsageRecord.messagesCount)
        tenant.quota.messagesPerDay.toUInt64
    else if resource = "storage" then
      checkResource "storage" (record.elim 0 UsageRecord.storageUsed) tenant.quota.storageBytes
    else .allowed

/-- A record is created if it is missing. -/
def incrementMessages (manager : TenantManager) (tenantId : TenantId) (count : UInt64)
    (now : DateTime) : TenantManager :=
  let record := (manager.usage.lookup tenantId).getD (.new tenantId now)
  let record := { record with messagesCount := record.messagesCount + count, updatedAt := now }
  { manager with usage := manager.usage.insert tenantId record }

end TenantManager

/-! ## Runs -/

inductive TenantCall
  | createTenant (id : TenantId) (name : String) (plan : TenantPlan) (now : DateTime)
  | updatePlan (id : TenantId) (plan : TenantPlan) (now : DateTime)
  | incrementMessages (id : TenantId) (count : UInt64) (now : DateTime)
  | checkQuota (id : TenantId) (resource : String) (now : DateTime)

/-- The messages that were counted, each count with its time. -/
abbrev MessageLog := List (DateTime × UInt64)

namespace MessageLog

def total (log : MessageLog) : Nat := (log.map fun counted => counted.2.toNat).sum

/-- The messages of one day. -/
def on (log : MessageLog) (day : Int) : Nat :=
  total (log.filter fun counted => dayOf counted.1 = day)

end MessageLog

/-- The manager, the plan each tenant has, and the messages counted for it since it was created. -/
structure TenantRun where
  manager : TenantManager
  plans : TenantId → Option TenantPlan
  messages : TenantId → MessageLog

namespace TenantRun

def start : TenantRun := ⟨.new, fun _ => none, fun _ => []⟩

def after (run : TenantRun) : TenantCall → TenantRun
  | .createTenant id name plan now =>
    ⟨(run.manager.createTenant id name plan now).2, Function.update run.plans id (some plan),
      Function.update run.messages id []⟩
  | .updatePlan id plan now =>
    { run with
      manager := (run.manager.updatePlan id plan now).2
      plans := Function.update run.plans id ((run.plans id).map fun _ => plan) }
  | .incrementMessages id count now =>
    { run with
      manager := run.manager.incrementMessages id count now
      messages := Function.update run.messages id (run.messages id ++ [(now, count)]) }
  | .checkQuota _ _ _ => run

end TenantRun

/-- A check of the messages exceeds the quota of the tenant's plan just when the messages of the day
have reached it. -/
def TenantCall.MeetsDaily (run : TenantRun) (call : TenantCall) : Prop :=
  ∀ id now plan, call = .checkQuota id "messages" now → run.plans id = some plan →
    ((run.manager.checkQuota id "messages").isExceeded = true ↔
      (ResourceQuota.forPlan plan).messagesPerDay.toNat ≤ (run.messages id).on (dayOf now))

/-- The messages since the tenant was created, of which 64 bits are counted, reach the quota just
when those of the day do. -/
def TenantCall.Alike (run : TenantRun) (call : TenantCall) : Prop :=
  ∀ id now plan, call = .checkQuota id "messages" now → run.plans id = some plan →
    ((ResourceQuota.forPlan plan).messagesPerDay.toNat ≤ (run.messages id).total % 2 ^ 64 ↔
      (ResourceQuota.forPlan plan).messagesPerDay.toNat ≤ (run.messages id).on (dayOf now))

/-! ## What the records keep -/

namespace TenantRun

/-- A tenant has the quotas of its plan, and its record counts the messages. -/
structure Kept (run : TenantRun) : Prop where
  quotas : ∀ id, (run.manager.tenants.lookup id).map Tenant.quota =
    (run.plans id).map ResourceQuota.forPlan
  counted : ∀ id, (run.manager.usage.lookup id).elim 0 UsageRecord.messagesCount =
    UInt64.ofNat (run.messages id).total

theorem kept_start : start.Kept := by
  constructor
  · intro id
    rw [start, TenantManager.new, Finmap.lookup_empty]
    rfl
  · intro id
    rw [start, TenantManager.new, Finmap.lookup_empty]
    rfl

variable {run : TenantRun}

theorem Kept.createTenant (kept : run.Kept) (id : TenantId) (name : String) (plan : TenantPlan)
    (now : DateTime) : (run.after (.createTenant id name plan now)).Kept := by
  constructor
  · intro other
    show ((run.manager.tenants.insert id _).lookup other).map _ =
      (Function.update run.plans id (some plan) other).map _
    rw [HashMap.lookup_insert_ite, Function.update_apply]
    split
    · rfl
    · exact kept.quotas other
  · intro other
    show ((run.manager.usage.insert id _).lookup other).elim _ _ =
      UInt64.ofNat (Function.update run.messages id [] other).total
    rw [HashMap.lookup_insert_ite, Function.update_apply]
    split
    · rfl
    · exact kept.counted other

theorem Kept.updatePlan (kept : run.Kept) (id : TenantId) (plan : TenantPlan) (now : DateTime) :
    (run.after (.updatePlan id plan now)).Kept := by
  have here := kept.quotas id
  rw [after, TenantManager.updatePlan]
  cases found : run.manager.tenants.lookup id with
  | none =>
    rw [found, Option.map_none] at here
    have unplanned : run.plans id = none := Option.map_eq_none_iff.mp here.symm
    refine ⟨fun other => ?_, kept.counted⟩
    show (run.manager.tenants.lookup other).map _ = (Function.update run.plans id _ other).map _
    rw [unplanned, Option.map_none, ← unplanned, Function.update_eq_self]
    exact kept.quotas other
  | some tenant =>
    rw [found, Option.map_some] at here
    obtain ⟨old, planned, -⟩ := Option.map_eq_some_iff.mp here.symm
    refine ⟨fun other => ?_, kept.counted⟩
    show ((run.manager.tenants.insert id _).lookup other).map _ =
      (Function.update run.plans id _ other).map _
    rw [HashMap.lookup_insert_ite, Function.update_apply, planned]
    split
    · rfl
    · exact kept.quotas other

theorem Kept.incrementMessages (kept : run.Kept) (id : TenantId) (count : UInt64)
    (now : DateTime) : (run.after (.incrementMessages id count now)).Kept := by
  refine ⟨kept.quotas, fun other => ?_⟩
  show ((run.manager.usage.insert id _).lookup other).elim _ _ =
    UInt64.ofNat (Function.update run.messages id _ other).total
  rw [HashMap.lookup_insert_ite, Function.update_apply]
  split
  · have before : ((run.manager.usage.lookup id).getD (.new id now)).messagesCount =
        .ofNat (run.messages id).total := by
      rw [← kept.counted id]
      cases run.manager.usage.lookup id <;> rfl
    rw [MessageLog.total, List.map_append, List.sum_append, UInt64.ofNat_add]
    simp [before, MessageLog.total]
  · exact kept.counted other

theorem Kept.after (kept : run.Kept) (call : TenantCall) : (run.after call).Kept := by
  cases call with
  | createTenant id name plan now => exact kept.createTenant id name plan now
  | updatePlan id plan now => exact kept.updatePlan id plan now
  | incrementMessages id count now => exact kept.incrementMessages id count now
  | checkQuota id resource now => exact kept

/-- A check counts the messages since the tenant was created. -/
theorem Kept.isExceeded_iff (kept : run.Kept) {id : TenantId} {plan : TenantPlan}
    (planned : run.plans id = some plan) :
    (run.manager.checkQuota id "messages").isExceeded = true ↔
      (ResourceQuota.forPlan plan).messagesPerDay.toNat ≤ (run.messages id).total % 2 ^ 64 := by
  have quotas := kept.quotas id
  rw [planned, Option.map_some] at quotas
  obtain ⟨tenant, found, quota⟩ := Option.map_eq_some_iff.mp quotas
  rw [TenantManager.checkQuota, found]
  dsimp only
  rw [if_neg (by decide), if_neg (by decide), if_pos rfl, kept.counted id, quota,
    TenantManager.checkResource]
  split
  · next reached =>
      rw [ge_iff_le, UInt64.le_iff_toNat_le] at reached
      simpa [QuotaCheck.isExceeded] using reached
  · next below =>
      rw [ge_iff_le, UInt64.le_iff_toNat_le] at below
      simpa [QuotaCheck.isExceeded] using below

theorem Kept.meetsDaily_iff (kept : run.Kept) (call : TenantCall) :
    call.MeetsDaily run ↔ call.Alike run := by
  constructor
  · intro meets id now plan same planned
    rw [← kept.isExceeded_iff planned]
    exact meets id now plan same planned
  · intro alike id now plan same planned
    rw [kept.isExceeded_iff planned]
    exact alike id now plan same planned

end TenantRun

/-- The daily quota of messages is exact all along a run just when, at each check, the messages
counted since the tenant was created reach the quota as those of the day do. -/
theorem daily_quota_iff (calls : List TenantCall) :
    Along TenantRun.after (fun run call => call.MeetsDaily run) .start calls ↔
      Along TenantRun.after (fun run call => call.Alike run) .start calls :=
  along_congr (fun _ call kept _ => kept.after call) (fun _ call kept => kept.meetsDaily_iff call)
    TenantRun.kept_start

/-- The hundred messages of one day use up the quota of the next day. -/
theorem daily_quota_carries :
    ¬ Along TenantRun.after (fun run call => call.MeetsDaily run) .start
      [.createTenant "tenant" "Test" .free 0, .incrementMessages "tenant" 100 0,
        .checkQuota "tenant" "messages" 86400000000000] := by
  rintro ⟨-, -, meets, -⟩
  have exact_ := meets "tenant" 86400000000000 .free rfl rfl
  revert exact_
  decide

end UHorse.Gateway
