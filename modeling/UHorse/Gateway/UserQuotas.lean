import UHorse.Gateway.GlobalRateLimiter
import UHorse.Lib.HashMap
import UHorse.Lib.System

/-!
# Quotas of users

The limiter keeps a record for each key, with the type that was set for the user and with the use
of the current window. Each call is one section under the lock of the records. A clean-up removes
the records of windows that are long over, and with them the types that were set.
-/

namespace UHorse.Gateway

open UHorse.Lib

structure UserRateLimitConfig where
  base : RateLimitConfig
  defaultQuota : UInt64
  vipQuota : UInt64
  enterpriseQuota : UInt64

structure RateLimitKey where
  tenantId : String
  userId : String
deriving DecidableEq

inductive UserType
  | default
  | vip
  | enterprise
deriving DecidableEq

def UserType.quota (config : UserRateLimitConfig) : UserType → UInt64
  | default => config.defaultQuota
  | vip => config.vipQuota
  | enterprise => config.enterpriseQuota

structure UserQuota where
  userType : UserType
  quota : UInt64
  currentUsage : UInt64
  windowStart : Instant
deriving DecidableEq

abbrev UserQuotas := HashMap RateLimitKey UserQuota

namespace UserRateLimiter

variable (config : UserRateLimitConfig)

/-- `Duration::from_secs` of the window size. -/
def windowDuration : Nat := config.base.windowSize.toNat * 1000000000

def fresh (userType : UserType) (now : Instant) : UserQuota :=
  ⟨userType, userType.quota config, 0, now⟩

/-- The record a check works on: it is created if it is missing, and its window may start anew. -/
def currentQuota (quotas : UserQuotas) (key : RateLimitKey) (now : Instant) : UserQuota :=
  let quota := (quotas.lookup key).getD (fresh config .default now)
  if windowDuration config ≤ now - quota.windowStart then
    { quota with windowStart := now, currentUsage := 0 }
  else quota

def resetAfter (quota : UserQuota) (now : Instant) : UInt64 :=
  .ofNat ((windowDuration config - (now - quota.windowStart)) / 1000000000)

/-- An addition that is checked for an overflow. -/
def checkedAdd (x y : UInt64) : Option UInt64 :=
  if x.toNat + y.toNat < UInt64.size then some (x + y) else none

/-- A subtraction that is checked for an underflow. -/
def checkedSub (x y : UInt64) : Option UInt64 := if y ≤ x then some (x - y) else none

/-- The result and the records behind the check; `none` is a panic of its arithmetic. -/
def check (quotas : UserQuotas) (key : RateLimitKey) (now : Instant) :
    Option (RateLimitResult × UserQuotas) :=
  if config.base.enabled = false then some (.allowed 0xFFFFFFFFFFFFFFFF 0, quotas)
  else
    let quota := currentQuota config quotas key now
    if quota.currentUsage ≥ quota.quota then
      some (.denied (max (resetAfter config quota now) 1) quota.quota, quotas.insert key quota)
    else do
      let currentUsage ← checkedAdd quota.currentUsage 1
      let remaining ← checkedSub quota.quota currentUsage
      some (.allowed remaining (resetAfter config quota now),
        quotas.insert key { quota with currentUsage := currentUsage })

def setUserType (quotas : UserQuotas) (key : RateLimitKey) (userType : UserType) (now : Instant) :
    UserQuotas :=
  match quotas.lookup key with
  | some quota =>
    quotas.insert key { quota with userType := userType, quota := userType.quota config }
  | none => quotas.insert key (fresh config userType now)

def reset (quotas : UserQuotas) (key : RateLimitKey) (now : Instant) : Bool × UserQuotas :=
  match quotas.lookup key with
  | some quota => (true, quotas.insert key { quota with currentUsage := 0, windowStart := now })
  | none => (false, quotas)

/-- Where twice the window is no duration any more, the first record makes the call panic. -/
def cleanupExpired (quotas : UserQuotas) (now : Instant) : UserQuotas :=
  if 2 * config.base.windowSize.toNat < UInt64.size then
    quotas.retain fun quota => now - quota.windowStart < 2 * windowDuration config
  else quotas

end UserRateLimiter

/-! ## Runs -/

inductive QuotaCall
  | check (key : RateLimitKey) (now : Instant)
  | setUserType (key : RateLimitKey) (userType : UserType) (now : Instant)
  | reset (key : RateLimitKey) (now : Instant)
  | cleanupExpired (now : Instant)

/-- What is to hold of a key: the type that was set last, how many requests were allowed since a
window started or was reset, and the largest quota that was in force since then. -/
structure KeyLedger where
  userType : UserType
  allowed : Nat
  largest : Nat

namespace KeyLedger

variable (config : UserRateLimitConfig)

/-- A window starts. -/
def starting (userType : UserType) : KeyLedger := ⟨userType, 0, (userType.quota config).toNat⟩

/-- Another type is set in the window. -/
def retyped (ledger : KeyLedger) (userType : UserType) : KeyLedger :=
  ⟨userType, ledger.allowed, max ledger.largest (userType.quota config).toNat⟩

def counting (ledger : KeyLedger) (result : RateLimitResult) : KeyLedger :=
  match result with
  | .allowed _ _ => { ledger with allowed := ledger.allowed + 1 }
  | .denied _ _ => ledger

end KeyLedger

/-- The records of the limiter, and a ledger for each key. -/
structure QuotaRun where
  quotas : UserQuotas
  ledger : RateLimitKey → KeyLedger

namespace QuotaRun

variable (config : UserRateLimitConfig)

def start : QuotaRun := ⟨∅, fun _ => .starting config .default⟩

/-- A check of the key starts a window. -/
def Starts (run : QuotaRun) (key : RateLimitKey) (now : Instant) : Prop :=
  ∀ quota, run.quotas.lookup key = some quota →
    UserRateLimiter.windowDuration config ≤ now - quota.windowStart

instance (run : QuotaRun) (key : RateLimitKey) (now : Instant) :
    Decidable (run.Starts config key now) :=
  match found : run.quotas.lookup key with
  | none => .isTrue fun quota other => by simp [found] at other
  | some quota =>
    if late : UserRateLimiter.windowDuration config ≤ now - quota.windowStart then
      .isTrue fun other same => by
        cases found.symm.trans same
        exact late
    else .isFalse fun starts => late (starts quota found)

/-- The records and the ledgers behind a call. A reset is one of a record that is there. -/
def after (run : QuotaRun) : QuotaCall → QuotaRun
  | .check key now =>
    match UserRateLimiter.check config run.quotas key now with
    | none => run
    | some (result, quotas) =>
      let ledger := run.ledger key
      let window :=
        if run.Starts config key now then .starting config ledger.userType else ledger
      ⟨quotas, Function.update run.ledger key (window.counting result)⟩
  | .setUserType key userType now =>
    ⟨UserRateLimiter.setUserType config run.quotas key userType now,
      Function.update run.ledger key
        (if key ∈ run.quotas then (run.ledger key).retyped config userType
          else .starting config userType)⟩
  | .reset key now =>
    ⟨(UserRateLimiter.reset run.quotas key now).2,
      Function.update run.ledger key
        (if key ∈ run.quotas then .starting config (run.ledger key).userType
          else run.ledger key)⟩
  | .cleanupExpired now => ⟨UserRateLimiter.cleanupExpired config run.quotas now, run.ledger⟩

end QuotaRun

/-- The record of a key, or the one a check would create, has the type that was set last, and while
the limiter is switched on, no more was allowed than the largest quota. -/
structure KeyLedger.InForce (config : UserRateLimitConfig) (record : Option UserQuota)
    (ledger : KeyLedger) : Prop where
  typed : (record.map UserQuota.userType).getD .default = ledger.userType
  quota : (record.map UserQuota.quota).getD config.defaultQuota = ledger.userType.quota config
  bounded : config.base.enabled = true → ledger.allowed ≤ ledger.largest

/-- The quotas are in force behind the call, and its arithmetic neither overflows nor
underflows. -/
structure QuotaCall.MeetsQuotas (config : UserRateLimitConfig) (run : QuotaRun)
    (call : QuotaCall) : Prop where
  inForce : ∀ key, ((run.after config call).ledger key).InForce config
    ((run.after config call).quotas.lookup key)
  noPanic : ∀ key now, call = .check key now →
    ∃ behind, UserRateLimiter.check config run.quotas key now = some behind

/-- The call cleans up no record of a user whose type is another one than the default. -/
def QuotaCall.Careful (config : UserRateLimitConfig) (run : QuotaRun) (call : QuotaCall) : Prop :=
  ∀ now, call = .cleanupExpired now → 2 * config.base.windowSize.toNat < UInt64.size →
    ∀ key quota, run.quotas.lookup key = some quota →
      2 * UserRateLimiter.windowDuration config ≤ now - quota.windowStart →
      quota.userType = .default

/-! ## What the calls do -/

/-- The ledger of a key is kept by its record. -/
structure KeyLedger.Kept (config : UserRateLimitConfig) (record : Option UserQuota)
    (ledger : KeyLedger) : Prop extends ledger.InForce config record where
  counted : config.base.enabled = true → ∀ quota, record = some quota →
    ledger.allowed = quota.currentUsage.toNat
  covered : (ledger.userType.quota config).toNat ≤ ledger.largest

namespace KeyLedger

variable {config : UserRateLimitConfig} {record : Option UserQuota} {ledger : KeyLedger}
  {quota : UserQuota}

theorem kept_none : (starting config .default).Kept config none := by
  refine ⟨⟨rfl, rfl, fun _ => Nat.zero_le _⟩, ?_, Nat.le_refl _⟩
  intro _ quota other
  cases other

/-- A window starts with nothing used. -/
theorem kept_starting (quotas : quota.quota = quota.userType.quota config)
    (unused : quota.currentUsage = 0) :
    (starting config quota.userType).Kept config (some quota) := by
  refine ⟨⟨rfl, quotas, fun _ => Nat.zero_le _⟩, ?_, Nat.le_refl _⟩
  rintro _ _ ⟨⟩
  rw [unused]
  rfl

theorem Kept.retyped (kept : ledger.Kept config (some quota)) (userType : UserType) :
    (ledger.retyped config userType).Kept config
      (some { quota with userType := userType, quota := userType.quota config }) := by
  refine ⟨⟨rfl, rfl, fun enabled => ?_⟩, ?_, Nat.le_max_right _ _⟩
  · exact (kept.bounded enabled).trans (Nat.le_max_left _ _)
  · rintro enabled _ ⟨⟩
    exact kept.counted enabled quota rfl

/-- A request that is allowed below the quota is counted. -/
theorem Kept.counting (kept : ledger.Kept config (some quota)) {usage : UInt64}
    (below : quota.currentUsage < quota.quota)
    (next : usage.toNat = quota.currentUsage.toNat + 1) (remaining resetAfter : UInt64) :
    (ledger.counting (.allowed remaining resetAfter)).Kept config
      (some { quota with currentUsage := usage }) := by
  refine ⟨⟨kept.typed, kept.quota, fun enabled => ?_⟩, ?_, kept.covered⟩
  · have counted := kept.counted enabled quota rfl
    have covered := kept.covered
    have same : quota.quota = ledger.userType.quota config := kept.quota
    rw [UInt64.lt_iff_toNat_lt, same] at below
    show ledger.allowed + 1 ≤ ledger.largest
    omega
  · rintro enabled _ ⟨⟩
    show ledger.allowed + 1 = usage.toNat
    rw [kept.counted enabled quota rfl, next]

/-- What is allowed while the limiter is switched off is under no quota. -/
theorem Kept.switchedOff (kept : ledger.Kept config record) (off : config.base.enabled = false)
    (starts : Prop) [Decidable starts] (remaining resetAfter : UInt64) :
    ((if starts then starting config ledger.userType else ledger).counting
      (.allowed remaining resetAfter)).Kept config record := by
  have never : config.base.enabled ≠ true := by simp [off]
  split
  · exact ⟨⟨kept.typed, kept.quota, fun on => absurd on never⟩, fun on => absurd on never,
      Nat.le_refl _⟩
  · exact ⟨⟨kept.typed, kept.quota, fun on => absurd on never⟩, fun on => absurd on never,
      kept.covered⟩

/-- A record of the default type is created again as it was. -/
theorem Kept.removed (kept : ledger.Kept config (some quota))
    (default_ : quota.userType = .default) : ledger.Kept config none := by
  have typed : UserType.default = ledger.userType := default_.symm.trans kept.typed
  refine ⟨⟨typed, ?_, kept.bounded⟩, ?_, kept.covered⟩
  · rw [← typed]
    rfl
  · intro _ quota other
    cases other

end KeyLedger

namespace QuotaRun

variable {config : UserRateLimitConfig} {run : QuotaRun}

/-- Every ledger is kept by the record of its key. -/
def Kept (config : UserRateLimitConfig) (run : QuotaRun) : Prop :=
  ∀ key, (run.ledger key).Kept config (run.quotas.lookup key)

/-- A call on one key leaves the others as they are. -/
theorem Kept.update (kept : run.Kept config) {key : RateLimitKey} {quotas : UserQuotas}
    {ledger : KeyLedger} (others : ∀ other, other ≠ key → quotas.lookup other =
      run.quotas.lookup other) (here : ledger.Kept config (quotas.lookup key)) :
    Kept config ⟨quotas, Function.update run.ledger key ledger⟩ := by
  intro other
  by_cases same : other = key
  · subst same
    show (Function.update run.ledger other ledger other).Kept config _
    rw [Function.update_self]
    exact here
  · show (Function.update run.ledger key ledger other).Kept config (quotas.lookup other)
    rw [Function.update_of_ne same, others other same]
    exact kept other

theorem kept_start : (start config).Kept config := by
  intro key
  show (KeyLedger.starting config .default).Kept config _
  rw [start, Finmap.lookup_empty]
  exact KeyLedger.kept_none

/-- The record a check works on keeps the ledger, with the window that may have started. -/
theorem Kept.currentQuota (kept : run.Kept config) (key : RateLimitKey) (now : Instant) :
    (if run.Starts config key now then .starting config (run.ledger key).userType
      else run.ledger key).Kept config
      (some (UserRateLimiter.currentQuota config run.quotas key now)) := by
  have here := kept key
  rw [UserRateLimiter.currentQuota]
  cases found : run.quotas.lookup key with
  | none =>
    rw [found] at here
    have starts : run.Starts config key now := fun quota other => by
      rw [found] at other
      cases other
    rw [if_pos starts, ← here.typed, Option.getD_none]
    split
    · exact KeyLedger.kept_starting rfl rfl
    · exact KeyLedger.kept_starting rfl rfl
  | some quota =>
    rw [found] at here
    have starts : run.Starts config key now ↔
        UserRateLimiter.windowDuration config ≤ now - quota.windowStart := by
      simp [Starts, found]
    have quotas : quota.quota = (run.ledger key).userType.quota config := here.quota
    have typed : quota.userType = (run.ledger key).userType := here.typed
    simp only [starts, Option.getD_some]
    split
    · rw [← typed]
      refine KeyLedger.kept_starting ?_ rfl
      rw [quotas, ← typed]
    · exact here

theorem checkedAdd_eq_some {x y : UInt64} (fits : x.toNat + y.toNat < UInt64.size) :
    ∃ sum, UserRateLimiter.checkedAdd x y = some sum ∧ sum.toNat = x.toNat + y.toNat := by
  refine ⟨x + y, if_pos fits, ?_⟩
  rw [UInt64.toNat_add]
  exact Nat.mod_eq_of_lt fits

variable {quotas : UserQuotas} {key : RateLimitKey} {now : Instant} {quota : UserQuota}

theorem check_disabled (disabled : config.base.enabled = false) :
    UserRateLimiter.check config quotas key now =
      some (.allowed 0xFFFFFFFFFFFFFFFF 0, quotas) := by
  rw [UserRateLimiter.check, if_pos disabled]

theorem check_denied (enabled : config.base.enabled = true)
    (current : UserRateLimiter.currentQuota config quotas key now = quota)
    (used : quota.quota ≤ quota.currentUsage) :
    UserRateLimiter.check config quotas key now =
      some (.denied (max (UserRateLimiter.resetAfter config quota now) 1) quota.quota,
        quotas.insert key quota) := by
  rw [UserRateLimiter.check, if_neg (by simp [enabled]), current]
  exact if_pos used

/-- Below the quota, neither the sum nor the difference leaves its range. -/
theorem exists_check_allowed (enabled : config.base.enabled = true)
    (current : UserRateLimiter.currentQuota config quotas key now = quota)
    (below : quota.currentUsage < quota.quota) :
    ∃ usage remaining resetAfter, usage.toNat = quota.currentUsage.toNat + 1 ∧
      UserRateLimiter.check config quotas key now = some (.allowed remaining resetAfter,
        quotas.insert key { quota with currentUsage := usage }) := by
  have room := UInt64.lt_iff_toNat_lt.mp below
  have fits : quota.currentUsage.toNat + (1 : UInt64).toNat < UInt64.size := by
    have bound := quota.quota.toNat_lt_size
    show quota.currentUsage.toNat + 1 < UInt64.size
    omega
  obtain ⟨usage, added, next⟩ := checkedAdd_eq_some fits
  have within : usage ≤ quota.quota := by
    rw [UInt64.le_iff_toNat_le, next]
    exact room
  refine ⟨usage, quota.quota - usage, UserRateLimiter.resetAfter config quota now, next, ?_⟩
  rw [UserRateLimiter.check, if_neg (by simp [enabled]), current]
  dsimp only
  rw [if_neg (UInt64.not_le.mpr below), added, Option.bind_eq_bind, Option.bind_some,
    UserRateLimiter.checkedSub, if_pos within]
  rfl

theorem exists_check (config : UserRateLimitConfig) (quotas : UserQuotas) (key : RateLimitKey)
    (now : Instant) : ∃ behind, UserRateLimiter.check config quotas key now = some behind := by
  cases enabled : config.base.enabled with
  | false => exact ⟨_, check_disabled enabled⟩
  | true =>
    by_cases used : (UserRateLimiter.currentQuota config quotas key now).quota ≤
        (UserRateLimiter.currentQuota config quotas key now).currentUsage
    · exact ⟨_, check_denied enabled rfl used⟩
    · obtain ⟨usage, remaining, resetAfter, -, checked⟩ :=
        exists_check_allowed enabled rfl (UInt64.not_le.mp used)
      exact ⟨_, checked⟩

theorem Kept.check (kept : run.Kept config) (key : RateLimitKey) (now : Instant) :
    (run.after config (.check key now)).Kept config := by
  have current := kept.currentQuota key now
  cases enabled : config.base.enabled with
  | false =>
    rw [after, check_disabled enabled]
    exact kept.update (fun _ _ => rfl) ((kept key).switchedOff enabled _ _ _)
  | true =>
    by_cases used : (UserRateLimiter.currentQuota config run.quotas key now).quota ≤
        (UserRateLimiter.currentQuota config run.quotas key now).currentUsage
    · rw [after, check_denied enabled rfl used]
      refine kept.update (fun _ other => Finmap.lookup_insert_of_ne _ other) ?_
      rw [Finmap.lookup_insert]
      exact current
    · have below := UInt64.not_le.mp used
      obtain ⟨usage, remaining, resetAfter, next, checked⟩ :=
        exists_check_allowed enabled rfl below
      rw [after, checked]
      refine kept.update (fun _ other => Finmap.lookup_insert_of_ne _ other) ?_
      rw [Finmap.lookup_insert]
      exact current.counting below next remaining resetAfter

theorem Kept.setUserType (kept : run.Kept config) (key : RateLimitKey) (userType : UserType)
    (now : Instant) : (run.after config (.setUserType key userType now)).Kept config := by
  have here := kept key
  rw [after, UserRateLimiter.setUserType]
  cases found : run.quotas.lookup key with
  | none =>
    rw [if_neg (Finmap.lookup_eq_none.mp found)]
    refine kept.update (fun _ other => Finmap.lookup_insert_of_ne _ other) ?_
    rw [Finmap.lookup_insert]
    exact KeyLedger.kept_starting rfl rfl
  | some quota =>
    rw [found] at here
    rw [if_pos (HashMap.mem_of_lookup found)]
    refine kept.update (fun _ other => Finmap.lookup_insert_of_ne _ other) ?_
    rw [Finmap.lookup_insert]
    exact here.retyped userType

theorem Kept.reset (kept : run.Kept config) (key : RateLimitKey) (now : Instant) :
    (run.after config (.reset key now)).Kept config := by
  have here := kept key
  rw [after, UserRateLimiter.reset]
  cases found : run.quotas.lookup key with
  | none =>
    rw [if_neg (Finmap.lookup_eq_none.mp found)]
    exact kept.update (fun _ _ => rfl) here
  | some quota =>
    rw [found] at here
    have quotas : quota.quota = (run.ledger key).userType.quota config := here.quota
    have typed : quota.userType = (run.ledger key).userType := here.typed
    rw [if_pos (HashMap.mem_of_lookup found), ← typed]
    refine kept.update (fun _ other => Finmap.lookup_insert_of_ne _ other) ?_
    rw [Finmap.lookup_insert]
    refine KeyLedger.kept_starting ?_ rfl
    rw [quotas, ← typed]

/-- A clean-up keeps the ledgers if all records it removes are of the default type. -/
theorem Kept.cleanupExpired (kept : run.Kept config) (now : Instant)
    (careful : (QuotaCall.cleanupExpired now).Careful config run) :
    (run.after config (.cleanupExpired now)).Kept config := by
  intro key
  have here := kept key
  show (run.ledger key).Kept config
    ((UserRateLimiter.cleanupExpired config run.quotas now).lookup key)
  rw [UserRateLimiter.cleanupExpired]
  split
  · next fits =>
      rw [HashMap.lookup_retain]
      cases found : run.quotas.lookup key with
      | none =>
        rw [found] at here
        exact here
      | some quota =>
        rw [found] at here
        rw [Option.filter_some]
        split
        · exact here
        · next old =>
            have late : 2 * UserRateLimiter.windowDuration config ≤ now - quota.windowStart := by
              simpa using old
            exact here.removed (careful now rfl fits key quota found late)
  · exact here

/-- A record that a clean-up removes was of the default type, if its type is still in force. -/
theorem Kept.careful_of_meets (kept : run.Kept config) {call : QuotaCall}
    (meets : call.MeetsQuotas config run) : call.Careful config run := by
  rintro now rfl fits key quota found late
  have typed : quota.userType = (run.ledger key).userType := by
    have here := (kept key).typed
    rw [found] at here
    exact here
  have removed : (run.after config (.cleanupExpired now)).quotas.lookup key = none := by
    show (UserRateLimiter.cleanupExpired config run.quotas now).lookup key = none
    rw [UserRateLimiter.cleanupExpired, if_pos fits, HashMap.lookup_retain, found,
      Option.filter_some]
    exact if_neg (by simpa using late)
  have behind := (meets.inForce key).typed
  rw [removed] at behind
  exact typed.trans behind.symm

theorem Kept.after (kept : run.Kept config) {call : QuotaCall} (careful : call.Careful config run) :
    (run.after config call).Kept config := by
  cases call with
  | check key now => exact kept.check key now
  | setUserType key userType now => exact kept.setUserType key userType now
  | reset key now => exact kept.reset key now
  | cleanupExpired now => exact kept.cleanupExpired now careful

theorem Kept.meetsQuotas_iff (kept : run.Kept config) (call : QuotaCall) :
    call.MeetsQuotas config run ↔ call.Careful config run := by
  refine ⟨kept.careful_of_meets, fun careful => ⟨fun key => (kept.after careful key).toInForce, ?_⟩⟩
  rintro key now -
  exact exists_check config run.quotas key now

end QuotaRun

/-- The quotas are in force all along a run just when its clean-ups remove no record of a user
whose type is another one than the default. -/
theorem quotas_in_force_iff (config : UserRateLimitConfig) (calls : List QuotaCall) :
    Along (QuotaRun.after config) (fun run call => call.MeetsQuotas config run) (.start config)
        calls ↔
      Along (QuotaRun.after config) (fun run call => call.Careful config run) (.start config)
        calls :=
  along_congr (fun _ _ kept meets => kept.after (kept.careful_of_meets meets))
    (fun _ call kept => kept.meetsQuotas_iff call) QuotaRun.kept_start

/-- A user who was made a VIP is an ordinary user again after a clean-up two windows later. -/
theorem quotas_not_in_force :
    ¬ Along (QuotaRun.after ⟨⟨60, 10, true⟩, 100, 1000, 10000⟩)
      (fun run call => call.MeetsQuotas ⟨⟨60, 10, true⟩, 100, 1000, 10000⟩ run)
      (.start ⟨⟨60, 10, true⟩, 100, 1000, 10000⟩)
      [.setUserType ⟨"tenant", "user"⟩ .vip 0, .cleanupExpired 120000000000] := by
  rintro ⟨-, meets, -⟩
  have typed := (meets.inForce ⟨"tenant", "user"⟩).typed
  revert typed
  decide

end UHorse.Gateway
