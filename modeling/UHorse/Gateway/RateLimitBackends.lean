import UHorse.Gateway.GlobalRateLimiter
import UHorse.Lib.HashMap
import UHorse.Lib.Numerals
import UHorse.Lib.System

/-!
# The backends of the distributed rate limiter

The limiter counts the requests of a key in a backend and asks it for the time of the window. In
memory that is the time that has passed, in Redis the time that is left.

Of Redis the commands `INCR`, `EXPIRE` and `TTL` are modelled, each of which may fail before or
after it has taken effect. How Redis counts the seconds of a time is a parameter.
-/

namespace UHorse.Gateway

open UHorse.Lib

structure DistributedConfig where
  base : RateLimitConfig
  keyPrefix : String

/-! ## The limiter -/

/-- What becomes of a command: it is answered, it is not run, or its answer is lost. -/
inductive Fate
  | answered
  | refused
  | lost
deriving DecidableEq

/-- When the commands of a check reach the backend, and what becomes of them. -/
structure Exchange where
  countedAt : Nat
  startedAt : Nat
  readAt : Nat
  incr : Fate
  expire : Fate
  ttl : Fate

/-- `none` is an error of the backend, which the limiter does not look at. -/
structure RateLimitBackend (Store : Type) where
  increment : Store → String → UInt64 → Exchange → Option UInt64 × Store
  ttl : Store → String → Exchange → Option Nat

namespace DistributedRateLimiter

variable {Store : Type} (config : DistributedConfig) (backend : RateLimitBackend Store)

def fullKey (key : String) : String := config.keyPrefix ++ key

/-- The window less what the backend says. -/
def windowLess (store : Store) (key : String) (exchange : Exchange) : UInt64 :=
  .ofNat (config.base.windowSize.toNat - (backend.ttl store key exchange).getD 0)

def check (store : Store) (key : String) (exchange : Exchange) : RateLimitResult × Store :=
  if config.base.enabled = false then (.allowed 0xFFFFFFFFFFFFFFFF 0, store)
  else
    match backend.increment store (fullKey config key) config.base.windowSize exchange with
    | (none, store) => (.allowed 0xFFFFFFFFFFFFFFFF 0, store)
    | (some count, store) =>
      let left := windowLess config backend store (fullKey config key) exchange
      if config.base.maxRequests < count then
        (.denied (max left 1) config.base.maxRequests, store)
      else (.allowed (config.base.maxRequests - count) left, store)

end DistributedRateLimiter

/-- `Duration::from_secs`, in nanoseconds. -/
def nanos (seconds : UInt64) : Nat := seconds.toNat * 1000000000

/-! ## In memory -/

/-- The count of a key, and when it was created. -/
abbrev MemoryCounters := HashMap String (UInt64 × Nat)

namespace MemoryBackend

/-- The counter an increment works on. -/
def counter (counters : MemoryCounters) (key : String) (windowSecs : UInt64) (now : Nat) :
    UInt64 × Nat :=
  let found := (counters.lookup key).getD (0, now)
  if nanos windowSecs ≤ now - found.2 then (0, now) else found

def increment (counters : MemoryCounters) (key : String) (windowSecs : UInt64)
    (exchange : Exchange) : Option UInt64 × MemoryCounters :=
  let found := counter counters key windowSecs exchange.countedAt
  (some (found.1 + 1), counters.insert key (found.1 + 1, found.2))

/-- The time that has passed. -/
def ttl (counters : MemoryCounters) (key : String) (exchange : Exchange) : Option Nat :=
  match counters.lookup key with
  | some (_, createdAt) => some ((exchange.readAt - createdAt) / 1000000000)
  | none => some 0

def backend : RateLimitBackend MemoryCounters := ⟨increment, ttl⟩

end MemoryBackend

/-! ## In Redis -/

structure RedisEntry where
  count : Nat
  expiry : Option Nat

abbrev RedisStore := HashMap String RedisEntry

namespace RedisBackend

/-- An entry is there until it expires. -/
def live (store : RedisStore) (key : String) (now : Nat) : Option RedisEntry :=
  (store.lookup key).filter fun entry => entry.expiry.all fun expiry => now < expiry

/-- The count of a key, which is zero for a key that is not there. -/
def counted (store : RedisStore) (key : String) (now : Nat) : Nat :=
  ((live store key now).map RedisEntry.count).getD 0

/-- The largest number `INCR` can store. -/
def maxCount : Nat := 9223372036854775807

/-- `INCR` keeps the expiry, and fails on the largest number. -/
def incr (store : RedisStore) (key : String) (now : Nat) (fate : Fate) :
    Option UInt64 × RedisStore :=
  if fate = .refused ∨ counted store key now = maxCount then (none, store)
  else
    (if fate = .answered then some (.ofNat (counted store key now + 1)) else none,
      store.insert key
        ⟨counted store key now + 1, (live store key now).bind RedisEntry.expiry⟩)

/-- Whether `EXPIRE` is answered, and the store behind it. -/
def expire (store : RedisStore) (key : String) (windowSecs : UInt64) (now : Nat)
    (fate : Fate) : Bool × RedisStore :=
  if fate = .refused then (false, store)
  else
    (fate = .answered,
      match live store key now with
      | some entry => store.insert key { entry with expiry := some (now + nanos windowSecs) }
      | none => store)

def increment (store : RedisStore) (key : String) (windowSecs : UInt64) (exchange : Exchange) :
    Option UInt64 × RedisStore :=
  match incr store key exchange.countedAt exchange.incr with
  | (none, store) => (none, store)
  | (some count, store) =>
    if count = 1 then
      let (answered, store) := expire store key windowSecs exchange.startedAt exchange.expire
      (if answered then some count else none, store)
    else (some count, store)

/-- The reply is -2 for a key that is not there and -1 for one that does not expire. -/
def ttlReply (toSeconds : Nat → Nat) (store : RedisStore) (key : String) (now : Nat) : Int :=
  match live store key now with
  | none => -2
  | some entry =>
    match entry.expiry with
    | none => -1
    | some expiry => toSeconds (expiry - now)

/-- The time that is left. -/
def ttl (toSeconds : Nat → Nat) (store : RedisStore) (key : String) (exchange : Exchange) :
    Option Nat :=
  if exchange.ttl = .answered then
    some (max (ttlReply toSeconds store key exchange.readAt) 0).toNat
  else none

def backend (toSeconds : Nat → Nat) : RateLimitBackend RedisStore := ⟨increment, ttl toSeconds⟩

end RedisBackend

/-! ## Runs -/

/-- A check of a key, with the time that passes before each of its commands. -/
structure CheckCall where
  key : String
  pause : Nat
  toStart : Nat
  toRead : Nat
  incr : Fate := .answered
  expire : Fate := .answered
  ttl : Fate := .answered

def CheckCall.exchange (call : CheckCall) (now : Nat) : Exchange where
  countedAt := now + call.pause
  startedAt := now + call.pause + call.toStart
  readAt := now + call.pause + call.toStart + call.toRead
  incr := call.incr
  expire := call.expire
  ttl := call.ttl

/-- What a backend has stored, the time, and when the window of each key ends. -/
structure DistributedRun (Store : Type) where
  store : Store
  now : Nat
  ends : String → Nat

/-- A backend, with the time from which the window is counted that an increment opens, if it counts
at all, and with how it counts the seconds that are left. -/
structure WindowedBackend (Store : Type) where
  backend : RateLimitBackend Store
  opensAt : Exchange → Option Nat
  seconds : Nat → Nat

def MemoryBackend.windowed : WindowedBackend MemoryCounters where
  backend := backend
  opensAt exchange := some exchange.countedAt
  seconds left := (left + 999999999) / 1000000000

def RedisBackend.windowed (toSeconds : Nat → Nat) : WindowedBackend RedisStore where
  backend := backend toSeconds
  opensAt exchange := if exchange.incr = .refused then none else some exchange.startedAt
  seconds left := if left = 0 then 0 else toSeconds left

namespace DistributedRun

variable {Store : Type} (config : DistributedConfig) (windowed : WindowedBackend Store)

def start (store : Store) : DistributedRun Store := ⟨store, 0, fun _ => 0⟩

/-- When the window of the key ends behind a check: a window that is over is followed by a new one
as soon as a request is counted. -/
def endsAfter (run : DistributedRun Store) (key : String) (exchange : Exchange) : Nat :=
  if config.base.enabled = true ∧ run.ends key ≤ exchange.countedAt then
    ((windowed.opensAt exchange).map fun opened => opened + nanos config.base.windowSize).getD
      (run.ends key)
  else run.ends key

def after (run : DistributedRun Store) (call : CheckCall) : DistributedRun Store :=
  let exchange := call.exchange run.now
  let key := DistributedRateLimiter.fullKey config call.key
  ⟨(DistributedRateLimiter.check config windowed.backend run.store call.key exchange).2,
    exchange.readAt, Function.update run.ends key (run.endsAfter config windowed key exchange)⟩

end DistributedRun

section Contract

variable {Store : Type} (config : DistributedConfig) (windowed : WindowedBackend Store)
  (run : DistributedRun Store) (call : CheckCall)

def CheckCall.result : RateLimitResult :=
  (DistributedRateLimiter.check config windowed.backend run.store call.key
    (call.exchange run.now)).1

/-- When the window of the key ends behind the check. -/
def CheckCall.windowEnd : Nat :=
  run.endsAfter config windowed (DistributedRateLimiter.fullKey config call.key)
    (call.exchange run.now)

/-- The seconds that are left of it when the backend is asked. -/
def CheckCall.secondsLeft : Nat :=
  windowed.seconds (call.windowEnd config windowed run - (call.exchange run.now).readAt)

/-- A check behind the end of the window is allowed, unless no request ever is. -/
def CheckCall.Readmits : Prop :=
  run.ends (DistributedRateLimiter.fullKey config call.key) ≤ (call.exchange run.now).countedAt →
    config.base.maxRequests ≠ 0 → ∃ remaining resetAfter,
      call.result config windowed run = .allowed remaining resetAfter

/-- The check tells the time that is left of the window, and admits the key again behind it. -/
structure CheckCall.Meets : Prop where
  resetAfter : ∀ remaining resetAfter,
    call.result config windowed run = .allowed remaining resetAfter →
    resetAfter.toNat = call.secondsLeft config windowed run
  retryAfter : ∀ retryAfter limit,
    call.result config windowed run = .denied retryAfter limit →
    retryAfter.toNat = call.secondsLeft config windowed run
  readmits : call.Readmits config windowed run

end Contract

variable {Store : Type} {config : DistributedConfig}

theorem toNat_windowLess (config : DistributedConfig) (backend : RateLimitBackend Store)
    (store : Store) (key : String) (exchange : Exchange) :
    (DistributedRateLimiter.windowLess config backend store key exchange).toNat =
      config.base.windowSize.toNat - (backend.ttl store key exchange).getD 0 := by
  have bound := config.base.windowSize.toNat_lt_size
  exact UInt64.toNat_ofNat_of_lt' (by omega)

theorem check_disabled (off : config.base.enabled = false) (backend : RateLimitBackend Store)
    (store : Store) (key : String) (exchange : Exchange) :
    DistributedRateLimiter.check config backend store key exchange =
      (.allowed 0xFFFFFFFFFFFFFFFF 0, store) := by
  rw [DistributedRateLimiter.check, if_pos off]

theorem endsAfter_disabled (off : config.base.enabled = false) (windowed : WindowedBackend Store)
    (run : DistributedRun Store) (key : String) (exchange : Exchange) :
    run.endsAfter config windowed key exchange = run.ends key := by
  rw [DistributedRun.endsAfter, if_neg (by simp [off])]

/-- A limiter that is switched off allows everything and has no windows. -/
theorem CheckCall.meets_disabled (off : config.base.enabled = false)
    (windowed : WindowedBackend Store) (run : DistributedRun Store) (call : CheckCall)
    (ended : ∀ key, run.ends key = 0) (nothing : windowed.seconds 0 = 0) :
    call.Meets config windowed run := by
  have result : call.result config windowed run = .allowed 0xFFFFFFFFFFFFFFFF 0 := by
    rw [CheckCall.result, check_disabled off]
  refine ⟨fun remaining resetAfter same => ?_, fun retryAfter limit same => ?_,
    fun _ _ => ⟨_, _, result⟩⟩
  · cases result.symm.trans same
    rw [CheckCall.secondsLeft, CheckCall.windowEnd, endsAfter_disabled off, ended, Nat.zero_sub,
      nothing]
    rfl
  · cases result.symm.trans same

theorem CheckCall.exchange_le (call : CheckCall) (now : Nat) :
    now ≤ (call.exchange now).countedAt ∧
      (call.exchange now).countedAt ≤ (call.exchange now).startedAt ∧
      (call.exchange now).startedAt ≤ (call.exchange now).readAt :=
  ⟨Nat.le_add_right _ _, Nat.le_add_right _ _, Nat.le_add_right _ _⟩

/-- The wait of a request that is denied is what is left, if there is something left. -/
theorem toNat_wait {wait : UInt64} {left : Nat} (told : wait.toNat = left) (some_ : left ≠ 0) :
    (max wait 1).toNat = left := by
  rw [Numerals.toNat_max, told]
  exact Nat.max_eq_left (Nat.pos_of_ne_zero some_)

theorem eq_zero_of_lt_one {limit : UInt64} (below : limit < 1) : limit = 0 := by
  have small := UInt64.lt_iff_toNat_lt.mp below
  exact UInt64.toNat_inj.mp (Nat.lt_one_iff.mp small)

section Enabled

variable {Store : Type} {config : DistributedConfig} {windowed : WindowedBackend Store}
  {run : DistributedRun Store} {call : CheckCall} {behind : Store} {count : UInt64}

/-- A check whose increment fails is allowed. -/
theorem check_of_none (enabled : config.base.enabled = true)
    (failed : windowed.backend.increment run.store (DistributedRateLimiter.fullKey config call.key)
      config.base.windowSize (call.exchange run.now) = (none, behind)) :
    DistributedRateLimiter.check config windowed.backend run.store call.key
      (call.exchange run.now) = (.allowed 0xFFFFFFFFFFFFFFFF 0, behind) := by
  rw [DistributedRateLimiter.check, if_neg (by simp [enabled]), failed]

/-- A check whose increment is answered depends on the count. -/
theorem check_of_some (enabled : config.base.enabled = true)
    (counted : windowed.backend.increment run.store (DistributedRateLimiter.fullKey config call.key)
      config.base.windowSize (call.exchange run.now) = (some count, behind)) :
    DistributedRateLimiter.check config windowed.backend run.store call.key
        (call.exchange run.now) =
      if config.base.maxRequests < count then
        (.denied (max (DistributedRateLimiter.windowLess config windowed.backend behind
            (DistributedRateLimiter.fullKey config call.key) (call.exchange run.now)) 1)
          config.base.maxRequests, behind)
      else
        (.allowed (config.base.maxRequests - count)
          (DistributedRateLimiter.windowLess config windowed.backend behind
            (DistributedRateLimiter.fullKey config call.key) (call.exchange run.now)), behind) := by
  rw [DistributedRateLimiter.check, if_neg (by simp [enabled]), counted]

theorem check_snd (enabled : config.base.enabled = true) :
    (DistributedRateLimiter.check config windowed.backend run.store call.key
      (call.exchange run.now)).2 =
      (windowed.backend.increment run.store (DistributedRateLimiter.fullKey config call.key)
        config.base.windowSize (call.exchange run.now)).2 := by
  cases counted : windowed.backend.increment run.store
      (DistributedRateLimiter.fullKey config call.key) config.base.windowSize
      (call.exchange run.now) with
  | mk reply behind =>
    cases reply with
    | none => rw [check_of_none enabled counted]
    | some count =>
      rw [check_of_some enabled counted]
      split <;> rfl

/-- Behind the end of a window, the first request is counted as one. -/
theorem readmits_of_one (enabled : config.base.enabled = true)
    (counted : windowed.backend.increment run.store (DistributedRateLimiter.fullKey config call.key)
      config.base.windowSize (call.exchange run.now) = (some count, behind))
    (one : run.ends (DistributedRateLimiter.fullKey config call.key) ≤
      (call.exchange run.now).countedAt → count = 1) :
    call.Readmits config windowed run := by
  intro ended some_
  have below : ¬ config.base.maxRequests < count := by
    rw [one ended]
    exact fun below => some_ (eq_zero_of_lt_one below)
  rw [CheckCall.result, check_of_some enabled counted, if_neg below]
  exact ⟨_, _, rfl⟩

/-- The contract is met where the backend tells the time that is left, if there is any left for a
request that is denied. -/
theorem CheckCall.meets_of_some (enabled : config.base.enabled = true)
    (counted : windowed.backend.increment run.store (DistributedRateLimiter.fullKey config call.key)
      config.base.windowSize (call.exchange run.now) = (some count, behind))
    (told : (DistributedRateLimiter.windowLess config windowed.backend behind
      (DistributedRateLimiter.fullKey config call.key) (call.exchange run.now)).toNat =
        call.secondsLeft config windowed run)
    (waits : config.base.maxRequests < count → call.secondsLeft config windowed run ≠ 0)
    (readmits : call.Readmits config windowed run) : call.Meets config windowed run := by
  have checked := check_of_some enabled counted
  by_cases above : config.base.maxRequests < count
  · rw [if_pos above] at checked
    have result := congrArg Prod.fst checked
    refine ⟨fun remaining resetAfter same => ?_, fun retryAfter limit same => ?_, readmits⟩
    · cases result.symm.trans same
    · cases result.symm.trans same
      exact toNat_wait told (waits above)
  · rw [if_neg above] at checked
    have result := congrArg Prod.fst checked
    refine ⟨fun remaining resetAfter same => ?_, fun retryAfter limit same => ?_, readmits⟩
    · cases result.symm.trans same
      exact told
    · cases result.symm.trans same

end Enabled

/-! ## The contract in memory -/

namespace MemoryBackend

variable (config : DistributedConfig)

/-- A request that is denied is told the time before the window is over. -/
def Timely (run : DistributedRun MemoryCounters) (call : CheckCall) : Prop :=
  config.base.enabled = true →
    config.base.maxRequests < (counter run.store (DistributedRateLimiter.fullKey config call.key)
      config.base.windowSize (call.exchange run.now).countedAt).1 + 1 →
    (call.exchange run.now).readAt < call.windowEnd config windowed run

/-- Each window ends its size after the counter was created. -/
structure Kept (run : DistributedRun MemoryCounters) : Prop where
  missing : ∀ key, run.store.lookup key = none → run.ends key = 0
  stored : ∀ key count createdAt, run.store.lookup key = some (count, createdAt) →
    run.ends key = createdAt + nanos config.base.windowSize ∧ createdAt ≤ run.now
  off : config.base.enabled = false → ∀ key, run.ends key = 0

variable {config : DistributedConfig} {run : DistributedRun MemoryCounters}

theorem kept_start : Kept config (DistributedRun.start ∅) := by
  refine ⟨fun _ _ => rfl, fun key count createdAt found => ?_, fun _ _ => rfl⟩
  cases found

/-- The counter belongs to the window behind the check, and starts anew with it. -/
theorem Kept.counter (kept : Kept config run) (enabled : config.base.enabled = true) (key : String)
    (exchange : Exchange) (later : run.now ≤ exchange.countedAt) :
    run.endsAfter config windowed key exchange =
        (MemoryBackend.counter run.store key config.base.windowSize exchange.countedAt).2 +
          nanos config.base.windowSize ∧
      (MemoryBackend.counter run.store key config.base.windowSize exchange.countedAt).2 ≤
        exchange.countedAt ∧
      (run.ends key ≤ exchange.countedAt →
        (MemoryBackend.counter run.store key config.base.windowSize exchange.countedAt).1 = 0) := by
  have opens : run.endsAfter config windowed key exchange =
      if run.ends key ≤ exchange.countedAt then
        exchange.countedAt + nanos config.base.windowSize else run.ends key := by
    have opened : windowed.opensAt exchange = some exchange.countedAt := rfl
    rw [DistributedRun.endsAfter, opened, Option.map_some, Option.getD_some]
    simp [enabled]
  rw [opens, MemoryBackend.counter]
  cases found : run.store.lookup key with
  | none =>
    have ended := kept.missing key found
    simp [ended]
  | some entry =>
    obtain ⟨count, createdAt⟩ := entry
    obtain ⟨ends, created⟩ := kept.stored key count createdAt found
    simp only [Option.getD_some]
    by_cases passed : nanos config.base.windowSize ≤ exchange.countedAt - createdAt
    · have ended : run.ends key ≤ exchange.countedAt := by omega
      simp [passed, ended]
    · have open_ : ¬ run.ends key ≤ exchange.countedAt := by omega
      rw [if_neg passed, if_neg open_]
      omega

/-- What is left of a window, in seconds that are rounded up. -/
theorem window_less (size createdAt readAt : Nat) (created : createdAt ≤ readAt) :
    size - (readAt - createdAt) / 1000000000 =
      (createdAt + size * 1000000000 - readAt + 999999999) / 1000000000 := by
  omega

/-- The time is told from the counter behind the increment. -/
theorem toNat_windowLess_insert (counters : MemoryCounters) (key : String) (count : UInt64)
    (createdAt : Nat) (exchange : Exchange) (created : createdAt ≤ exchange.readAt) :
    (DistributedRateLimiter.windowLess config backend (counters.insert key (count, createdAt)) key
      exchange).toNat =
      windowed.seconds (createdAt + nanos config.base.windowSize - exchange.readAt) := by
  have told : backend.ttl (counters.insert key (count, createdAt)) key exchange =
      some ((exchange.readAt - createdAt) / 1000000000) := by
    show ttl _ _ _ = _
    rw [ttl, Finmap.lookup_insert]
  rw [toNat_windowLess, told, Option.getD_some, window_less _ _ _ created]
  rfl

theorem increment_eq {store : MemoryCounters} {key : String} {windowSecs : UInt64}
    {exchange : Exchange} {count : UInt64} {createdAt : Nat}
    (found : counter store key windowSecs exchange.countedAt = (count, createdAt)) :
    windowed.backend.increment store key windowSecs exchange =
      (some (count + 1), store.insert key (count + 1, createdAt)) := by
  show increment _ _ _ _ = _
  rw [increment, found]

theorem Kept.meets (kept : Kept config run) (call : CheckCall) (timely : Timely config run call) :
    call.Meets config windowed run := by
  cases enabled : config.base.enabled with
  | false => exact call.meets_disabled enabled windowed run (kept.off enabled) rfl
  | true =>
    obtain ⟨before, opened, read⟩ := call.exchange_le run.now
    obtain ⟨ends, created, anew⟩ := kept.counter enabled
      (DistributedRateLimiter.fullKey config call.key) (call.exchange run.now) before
    have soon := timely enabled
    cases found : MemoryBackend.counter run.store
        (DistributedRateLimiter.fullKey config call.key) config.base.windowSize
        (call.exchange run.now).countedAt with
    | mk count createdAt =>
      rw [found] at ends created anew soon
      dsimp only at ends created anew soon
      have left : call.secondsLeft config windowed run = windowed.seconds
          (createdAt + nanos config.base.windowSize - (call.exchange run.now).readAt) := by
        rw [CheckCall.secondsLeft, CheckCall.windowEnd, ends]
      refine CheckCall.meets_of_some enabled (increment_eq found) ?_ (fun above => ?_) ?_
      · rw [left]
        exact toNat_windowLess_insert _ _ _ _ _ (created.trans (opened.trans read))
      · have remains := soon above
        rw [CheckCall.windowEnd] at remains
        rw [left]
        show (_ + 999999999) / 1000000000 ≠ 0
        omega
      · refine readmits_of_one enabled (increment_eq found) fun ended => ?_
        rw [anew ended]
        rfl

theorem Kept.after (kept : Kept config run) (call : CheckCall) :
    Kept config (run.after config windowed call) := by
  obtain ⟨before, opened, read⟩ := call.exchange_le run.now
  cases enabled : config.base.enabled with
  | false =>
    have same : run.after config windowed call =
        ⟨run.store, (call.exchange run.now).readAt, run.ends⟩ := by
      rw [DistributedRun.after, check_disabled enabled]
      rw [endsAfter_disabled enabled, Function.update_eq_self]
    rw [same]
    refine ⟨kept.missing, fun key count createdAt found => ?_, fun _ => kept.off enabled⟩
    obtain ⟨ends, created⟩ := kept.stored key count createdAt found
    exact ⟨ends, created.trans (before.trans (opened.trans read))⟩
  | true =>
    obtain ⟨ends, created, -⟩ := kept.counter enabled
      (DistributedRateLimiter.fullKey config call.key) (call.exchange run.now) before
    cases found : MemoryBackend.counter run.store
        (DistributedRateLimiter.fullKey config call.key) config.base.windowSize
        (call.exchange run.now).countedAt with
    | mk count createdAt =>
      rw [found] at ends created
      have behind : run.after config windowed call = ⟨run.store.insert
          (DistributedRateLimiter.fullKey config call.key) (count + 1, createdAt),
          (call.exchange run.now).readAt,
          Function.update run.ends (DistributedRateLimiter.fullKey config call.key)
            (createdAt + nanos config.base.windowSize)⟩ := by
        rw [DistributedRun.after, check_snd enabled, increment_eq found, ends]
      rw [behind]
      constructor
      · intro key missing
        rw [HashMap.lookup_insert_ite] at missing
        split at missing
        · cases missing
        · next other =>
            show Function.update _ _ _ key = 0
            rw [Function.update_of_ne other, kept.missing key missing]
      · intro key count' createdAt' stored
        rw [HashMap.lookup_insert_ite] at stored
        split at stored
        · next same =>
            cases stored
            rw [same]
            exact ⟨Function.update_self .., created.trans (opened.trans read)⟩
        · next other =>
            obtain ⟨ends', created'⟩ := kept.stored key count' createdAt' stored
            refine ⟨?_, created'.trans (before.trans (opened.trans read))⟩
            rw [← ends']
            exact Function.update_of_ne other ..
      · intro off
        rw [enabled] at off
        cases off

end MemoryBackend

/-! ## The contract in Redis -/

namespace RedisBackend

section Conditions

variable (toSeconds : Nat → Nat) (config : DistributedConfig) (run : DistributedRun RedisStore)
  (call : CheckCall)

/-- The `INCR` that creates a key is answered if it is run, and `EXPIRE` is run behind it. -/
def Expiring : Prop :=
  config.base.enabled = true → run.ends (DistributedRateLimiter.fullKey config call.key) ≤
    (call.exchange run.now).countedAt →
    call.incr ≠ .lost ∧ (call.incr = .answered → call.expire ≠ .refused)

/-- All commands are answered while just half of the window is left, and there is something left
for a request that is denied. -/
structure Halfway : Prop where
  incr : call.incr = .answered
  expire : run.ends (DistributedRateLimiter.fullKey config call.key) ≤
    (call.exchange run.now).countedAt → call.expire = .answered
  ttl : call.ttl = .answered
  countable : counted run.store (DistributedRateLimiter.fullKey config call.key)
    (call.exchange run.now).countedAt ≠ maxCount
  half : 2 * call.secondsLeft config (windowed toSeconds) run = config.base.windowSize.toNat
  waits : config.base.maxRequests < .ofNat (counted run.store
      (DistributedRateLimiter.fullKey config call.key) (call.exchange run.now).countedAt + 1) →
    call.secondsLeft config (windowed toSeconds) run ≠ 0

end Conditions

variable {toSeconds : Nat → Nat} {config : DistributedConfig} {run : DistributedRun RedisStore}

/-- Each key expires at the end of its window. -/
structure Settled (config : DistributedConfig) (run : DistributedRun RedisStore) : Prop where
  missing : ∀ key, run.store.lookup key = none → run.ends key = 0
  stored : ∀ key entry, run.store.lookup key = some entry → entry.expiry = some (run.ends key) ∧
    entry.count ≠ 0 ∧ entry.count ≤ maxCount
  off : config.base.enabled = false → ∀ key, run.ends key = 0

theorem settled_start : Settled config (DistributedRun.start ∅) := by
  refine ⟨fun _ _ => rfl, fun key entry found => ?_, fun _ _ => rfl⟩
  cases found

/-- Behind the end of its window a key is not there any more. -/
theorem Settled.live_ended (settled : Settled config run) {key : String} {now : Nat}
    (ended : run.ends key ≤ now) : live run.store key now = none := by
  rw [live]
  cases found : run.store.lookup key with
  | none => rfl
  | some entry =>
    obtain ⟨expires, -, -⟩ := settled.stored key entry found
    rw [Option.filter_some, expires]
    exact if_neg (by simpa using ended)

/-- In its window a key is there. -/
theorem Settled.live_open (settled : Settled config run) {key : String} {now : Nat}
    (open_ : now < run.ends key) : ∃ entry, live run.store key now = some entry ∧
      entry.expiry = some (run.ends key) ∧ entry.count ≠ 0 ∧ entry.count ≤ maxCount := by
  cases found : run.store.lookup key with
  | none =>
    rw [settled.missing key found] at open_
    exact absurd open_ (Nat.not_lt_zero _)
  | some entry =>
    obtain ⟨expires, counts⟩ := settled.stored key entry found
    refine ⟨entry, ?_, expires, counts⟩
    rw [live, found, Option.filter_some, expires]
    exact if_pos (by simpa using open_)

section Increment

variable {key : String} {windowSecs : UInt64} {exchange : Exchange} {store : RedisStore}

theorem increment_fails (failed : exchange.incr = .refused ∨
    counted store key exchange.countedAt = maxCount) :
    increment store key windowSecs exchange = (none, store) := by
  rw [increment, incr, if_pos failed]

/-- `EXPIRE` on a key that was just created. -/
theorem expire_created {now : Nat} {fate : Fate} (run_ : fate ≠ .refused) :
    expire (store.insert key ⟨1, none⟩) key windowSecs now fate =
      (decide (fate = .answered), store.insert key ⟨1, some (now + nanos windowSecs)⟩) := by
  have there : live (store.insert key ⟨1, none⟩) key now = some ⟨1, none⟩ := by
    rw [live, Finmap.lookup_insert]
    rfl
  rw [expire, if_neg run_, there]
  dsimp only
  rw [Finmap.insert_insert]

/-- The first request of a window. -/
theorem Settled.increment_ended (settled : Settled config run) (windowSecs : UInt64)
    (ended : run.ends key ≤ exchange.countedAt) (answered : exchange.incr = .answered)
    (run_ : exchange.expire ≠ .refused) :
    increment run.store key windowSecs exchange =
      (if exchange.expire = .answered then some 1 else none,
        run.store.insert key ⟨1, some (exchange.startedAt + nanos windowSecs)⟩) := by
  have gone := settled.live_ended ended
  have none_ : counted run.store key exchange.countedAt = 0 := by
    rw [counted, gone]
    rfl
  have created : incr run.store key exchange.countedAt exchange.incr =
      (some 1, run.store.insert key ⟨1, none⟩) := by
    rw [incr, none_, gone, answered]
    rfl
  rw [increment, created]
  dsimp only
  rw [if_pos rfl, expire_created run_]
  simp only [decide_eq_true_eq]

/-- A further request of a window. -/
theorem Settled.increment_open (settled : Settled config run)
    (open_ : exchange.countedAt < run.ends key) (run_ : exchange.incr ≠ .refused)
    (countable : counted run.store key exchange.countedAt ≠ maxCount) :
    increment run.store key windowSecs exchange =
      (if exchange.incr = .answered then
          some (.ofNat (counted run.store key exchange.countedAt + 1)) else none,
        run.store.insert key
          ⟨counted run.store key exchange.countedAt + 1, some (run.ends key)⟩) := by
  obtain ⟨entry, there, expires, some_, small⟩ := settled.live_open open_
  have count : counted run.store key exchange.countedAt = entry.count := by
    rw [counted, there]
    rfl
  rw [increment, incr, if_neg (not_or.mpr ⟨run_, countable⟩), there, Option.bind_some, expires]
  by_cases answered : exchange.incr = .answered
  · have further : UInt64.ofNat (counted run.store key exchange.countedAt + 1) ≠ 1 := by
      intro one
      have bound : entry.count ≤ 9223372036854775807 := small
      have same := congrArg UInt64.toNat one
      rw [UInt64.toNat_ofNat_of_lt' (by show _ < 18446744073709551616; omega)] at same
      have word : (1 : UInt64).toNat = 1 := rfl
      omega
    simp only [if_pos answered, if_neg further]
  · simp only [if_neg answered]

theorem counted_ended (settled : Settled config run)
    (ended : run.ends key ≤ exchange.countedAt) :
    counted run.store key exchange.countedAt = 0 := by
  rw [counted, settled.live_ended ended]
  rfl

/-- The reply tells what is left of the window. -/
theorem ttl_insert (store : RedisStore) (count windowEnd : Nat)
    (answered : exchange.ttl = .answered) :
    ttl toSeconds (store.insert key ⟨count, some windowEnd⟩) key exchange =
      some ((windowed toSeconds).seconds (windowEnd - exchange.readAt)) := by
  have there : live (store.insert key ⟨count, some windowEnd⟩) key exchange.readAt =
      if exchange.readAt < windowEnd then some ⟨count, some windowEnd⟩ else none := by
    rw [live, Finmap.lookup_insert, Option.filter_some]
    simp
  rw [ttl, if_pos answered, ttlReply, there]
  show _ = some (if _ then _ else _)
  by_cases open_ : exchange.readAt < windowEnd
  · rw [if_pos open_, if_neg (by omega)]
    simp
  · rw [if_neg open_, if_pos (by omega)]
    rfl

end Increment

/-! ### The windows of Redis -/

section Windows

variable {key : String} {exchange : Exchange}

theorem endsAfter_ended (enabled : config.base.enabled = true)
    (ended : run.ends key ≤ exchange.countedAt) (run_ : exchange.incr ≠ .refused) :
    run.endsAfter config (windowed toSeconds) key exchange =
      exchange.startedAt + nanos config.base.windowSize := by
  have opened : (windowed toSeconds).opensAt exchange = some exchange.startedAt := if_neg run_
  rw [DistributedRun.endsAfter, if_pos ⟨enabled, ended⟩, opened, Option.map_some, Option.getD_some]

theorem endsAfter_refused (refused : exchange.incr = .refused) :
    run.endsAfter config (windowed toSeconds) key exchange = run.ends key := by
  have unopened : (windowed toSeconds).opensAt exchange = none := if_pos refused
  rw [DistributedRun.endsAfter, unopened, Option.map_none, Option.getD_none, ite_self]

theorem endsAfter_open (open_ : exchange.countedAt < run.ends key) :
    run.endsAfter config (windowed toSeconds) key exchange = run.ends key := by
  rw [DistributedRun.endsAfter, if_neg fun both => absurd both.2 (Nat.not_le_of_gt open_)]

end Windows

variable {call : CheckCall}

/-- An increment changes neither the key nor its window, or the key has a count behind it and
expires at the end of its window. -/
theorem Settled.increment_cases (settled : Settled config run) (toSeconds : Nat → Nat)
    (enabled : config.base.enabled = true) (expiring : Expiring config run call) :
    ((increment run.store (DistributedRateLimiter.fullKey config call.key) config.base.windowSize
          (call.exchange run.now)).2 = run.store ∧
      call.windowEnd config (windowed toSeconds) run =
        run.ends (DistributedRateLimiter.fullKey config call.key)) ∨
    ∃ count, count ≠ 0 ∧ count ≤ maxCount ∧
      (increment run.store (DistributedRateLimiter.fullKey config call.key) config.base.windowSize
        (call.exchange run.now)).2 =
        run.store.insert (DistributedRateLimiter.fullKey config call.key)
          ⟨count, some (call.windowEnd config (windowed toSeconds) run)⟩ := by
  by_cases refused : call.incr = .refused
  · refine .inl ⟨?_, endsAfter_refused refused⟩
    rw [increment_fails (.inl refused)]
  · rcases Nat.lt_or_ge (call.exchange run.now).countedAt
        (run.ends (DistributedRateLimiter.fullKey config call.key)) with open_ | ended
    · rw [CheckCall.windowEnd, endsAfter_open open_]
      by_cases countable : counted run.store (DistributedRateLimiter.fullKey config call.key)
          (call.exchange run.now).countedAt = maxCount
      · refine .inl ⟨?_, rfl⟩
        rw [increment_fails (.inr countable)]
      · have small : counted run.store (DistributedRateLimiter.fullKey config call.key)
            (call.exchange run.now).countedAt + 1 ≤ maxCount := by
          obtain ⟨entry, there, -, -, small⟩ := settled.live_open open_
          have count : counted run.store (DistributedRateLimiter.fullKey config call.key)
              (call.exchange run.now).countedAt = entry.count := by
            rw [counted, there]
            rfl
          omega
        refine .inr ⟨_, Nat.succ_ne_zero _, small, ?_⟩
        rw [settled.increment_open open_ refused countable]
    · obtain ⟨kept, started⟩ := expiring enabled ended
      have answered : call.incr = .answered := by
        cases fate : call.incr with
        | answered => rfl
        | refused => exact absurd fate refused
        | lost => exact absurd fate kept
      refine .inr ⟨1, Nat.one_ne_zero, (by decide), ?_⟩
      rw [settled.increment_ended _ ended answered (started answered), CheckCall.windowEnd,
        endsAfter_ended enabled ended refused]

theorem after_eq (enabled : config.base.enabled = true) :
    run.after config (windowed toSeconds) call =
      ⟨(increment run.store (DistributedRateLimiter.fullKey config call.key)
          config.base.windowSize (call.exchange run.now)).2, (call.exchange run.now).readAt,
        Function.update run.ends (DistributedRateLimiter.fullKey config call.key)
          (call.windowEnd config (windowed toSeconds) run)⟩ := by
  rw [DistributedRun.after, check_snd enabled]
  rfl

theorem Settled.after (settled : Settled config run) (expiring : Expiring config run call) :
    Settled config (run.after config (windowed toSeconds) call) := by
  cases enabled : config.base.enabled with
  | false =>
    rw [DistributedRun.after, check_disabled enabled]
    rw [endsAfter_disabled enabled, Function.update_eq_self]
    exact ⟨settled.missing, settled.stored, settled.off⟩
  | true =>
    rw [after_eq enabled]
    rcases settled.increment_cases toSeconds enabled expiring with
      ⟨store, same⟩ | ⟨count, some_, small, store⟩
    · rw [store, same, Function.update_eq_self]
      exact ⟨settled.missing, settled.stored, settled.off⟩
    · rw [store]
      constructor
      · intro key missing
        rw [HashMap.lookup_insert_ite] at missing
        split at missing
        · cases missing
        · next other =>
            show Function.update _ _ _ key = 0
            rw [Function.update_of_ne other, settled.missing key missing]
      · intro key entry stored
        rw [HashMap.lookup_insert_ite] at stored
        split at stored
        · next same =>
            cases stored
            have here : Function.update run.ends (DistributedRateLimiter.fullKey config call.key)
                (call.windowEnd config (windowed toSeconds) run) key =
                  call.windowEnd config (windowed toSeconds) run := by
              rw [same, Function.update_self]
            exact ⟨congrArg some here.symm, some_, small⟩
        · next other =>
            obtain ⟨expires, counts⟩ := settled.stored key entry stored
            have here : Function.update run.ends (DistributedRateLimiter.fullKey config call.key)
                (call.windowEnd config (windowed toSeconds) run) key = run.ends key := by
              rw [Function.update_of_ne other]
            exact ⟨expires.trans (congrArg some here.symm), counts⟩
      · intro off
        rw [enabled] at off
        cases off

/-- A key is admitted again behind its window, also by a check that fails half-way. -/
theorem Settled.readmits (settled : Settled config run) (expiring : Expiring config run call) :
    call.Readmits config (windowed toSeconds) run := by
  intro ended some_
  cases enabled : config.base.enabled with
  | false => exact ⟨_, _, by rw [CheckCall.result, check_disabled enabled]⟩
  | true =>
    obtain ⟨kept, started⟩ := expiring enabled ended
    have failed : ∀ behind, (windowed toSeconds).backend.increment run.store
        (DistributedRateLimiter.fullKey config call.key) config.base.windowSize
        (call.exchange run.now) = (none, behind) → ∃ remaining resetAfter,
          call.result config (windowed toSeconds) run = .allowed remaining resetAfter := by
      intro behind none_
      rw [CheckCall.result, check_of_none enabled none_]
      exact ⟨_, _, rfl⟩
    cases fate : call.incr with
    | lost => exact absurd fate kept
    | refused => exact failed _ (increment_fails (.inl fate))
    | answered =>
      have counted := settled.increment_ended config.base.windowSize ended fate (started fate)
      by_cases done : (call.exchange run.now).expire = .answered
      · rw [if_pos done] at counted
        exact readmits_of_one enabled counted (fun _ => rfl) ended some_
      · rw [if_neg done] at counted
        exact failed _ counted

theorem Settled.meets (settled : Settled config run) (expiring : Expiring config run call)
    (halfway : Halfway toSeconds config run call) :
    call.Meets config (windowed toSeconds) run := by
  cases enabled : config.base.enabled with
  | false => exact call.meets_disabled enabled _ run (settled.off enabled) rfl
  | true =>
    have answered : (call.exchange run.now).incr = .answered := halfway.incr
    have incremented : (windowed toSeconds).backend.increment run.store
        (DistributedRateLimiter.fullKey config call.key) config.base.windowSize
        (call.exchange run.now) =
        (some (.ofNat (counted run.store (DistributedRateLimiter.fullKey config call.key)
            (call.exchange run.now).countedAt + 1)),
          run.store.insert (DistributedRateLimiter.fullKey config call.key)
            ⟨counted run.store (DistributedRateLimiter.fullKey config call.key)
              (call.exchange run.now).countedAt + 1,
              some (call.windowEnd config (windowed toSeconds) run)⟩) := by
      rw [CheckCall.windowEnd]
      rcases Nat.lt_or_ge (call.exchange run.now).countedAt
          (run.ends (DistributedRateLimiter.fullKey config call.key)) with open_ | ended
      · rw [endsAfter_open open_]
        refine (settled.increment_open open_ (by rw [answered]; decide)
          halfway.countable).trans ?_
        rw [if_pos answered]
      · have started : (call.exchange run.now).expire = .answered := halfway.expire ended
        rw [endsAfter_ended enabled ended (by rw [answered]; decide), counted_ended settled ended]
        refine (settled.increment_ended _ ended answered (by rw [started]; decide)).trans ?_
        rw [if_pos started]
        rfl
    refine CheckCall.meets_of_some enabled incremented ?_ halfway.waits
      (settled.readmits expiring)
    have half := halfway.half
    rw [toNat_windowLess]
    show config.base.windowSize.toNat - (ttl toSeconds _ _ _).getD 0 = _
    rw [ttl_insert _ _ _ halfway.ttl]
    show config.base.windowSize.toNat - call.secondsLeft config (windowed toSeconds) run = _
    omega

end RedisBackend

/-- Both backends meet the contract in runs whose checks meet their conditions; a key of Redis is
admitted again in runs in which every key that is created is given its expiry. -/
theorem backends_meet (config : DistributedConfig) (toSeconds : Nat → Nat)
    (calls : List CheckCall) :
    (Along (DistributedRun.after config MemoryBackend.windowed) (MemoryBackend.Timely config)
        (.start ∅) calls →
      Along (DistributedRun.after config MemoryBackend.windowed)
        (fun run call => call.Meets config MemoryBackend.windowed run) (.start ∅) calls) ∧
    (Along (DistributedRun.after config (RedisBackend.windowed toSeconds))
        (fun run call => RedisBackend.Expiring config run call ∧
          RedisBackend.Halfway toSeconds config run call) (.start ∅) calls →
      Along (DistributedRun.after config (RedisBackend.windowed toSeconds))
        (fun run call => call.Meets config (RedisBackend.windowed toSeconds) run) (.start ∅)
        calls) ∧
    (Along (DistributedRun.after config (RedisBackend.windowed toSeconds))
        (RedisBackend.Expiring config) (.start ∅) calls →
      Along (DistributedRun.after config (RedisBackend.windowed toSeconds))
        (fun run call => call.Readmits config (RedisBackend.windowed toSeconds) run) (.start ∅)
        calls) := by
  refine ⟨fun timely => ?_, fun halfway => ?_, fun expiring => ?_⟩
  · exact timely.imp (fun _ call kept _ => kept.after call)
      (fun _ call kept here => kept.meets call here) MemoryBackend.kept_start
  · exact halfway.imp (fun _ _ settled here => settled.after here.1)
      (fun _ _ settled here => settled.meets here.1 here.2) RedisBackend.settled_start
  · exact expiring.imp (fun _ _ settled here => settled.after here)
      (fun _ _ settled here => settled.readmits here) RedisBackend.settled_start

/-- A window of two seconds that is asked for after one. -/
theorem backends_meet_halfway :
    Along (DistributedRun.after ⟨⟨2, 1, true⟩, "limit:"⟩ MemoryBackend.windowed)
      (fun run call => call.Meets ⟨⟨2, 1, true⟩, "limit:"⟩ MemoryBackend.windowed run) (.start ∅)
      [⟨"user", 0, 0, 1000000000, .answered, .answered, .answered⟩] ∧
    Along (DistributedRun.after ⟨⟨2, 1, true⟩, "limit:"⟩
        (RedisBackend.windowed fun left => (left / 1000000 + 500) / 1000))
      (fun run call => call.Meets ⟨⟨2, 1, true⟩, "limit:"⟩
        (RedisBackend.windowed fun left => (left / 1000000 + 500) / 1000) run) (.start ∅)
      [⟨"user", 0, 0, 1000000000, .answered, .answered, .answered⟩] := by
  obtain ⟨memory, redis, -⟩ := backends_meet ⟨⟨2, 1, true⟩, "limit:"⟩
    (fun left => (left / 1000000 + 500) / 1000)
    [⟨"user", 0, 0, 1000000000, .answered, .answered, .answered⟩]
  refine ⟨memory ⟨fun _ _ => by decide, trivial⟩, redis ⟨⟨?_, ?_⟩, trivial⟩⟩
  · intro _ _
    exact ⟨by decide, fun _ => by decide⟩
  · exact ⟨rfl, fun _ => rfl, rfl, by decide, rfl, fun _ => by decide⟩

/-- Asked at once, Redis says that all of the window is left, and the limiter that nothing is; and
a key that is not given its expiry is denied for good. -/
theorem backends_do_not_meet :
    ¬ Along (DistributedRun.after ⟨⟨60, 10, true⟩, "limit:"⟩
        (RedisBackend.windowed fun left => (left / 1000000 + 500) / 1000))
      (fun run call => call.Meets ⟨⟨60, 10, true⟩, "limit:"⟩
        (RedisBackend.windowed fun left => (left / 1000000 + 500) / 1000) run) (.start ∅)
      [⟨"user", 0, 0, 0, .answered, .answered, .answered⟩] ∧
    ¬ Along (DistributedRun.after ⟨⟨60, 1, true⟩, "limit:"⟩
        (RedisBackend.windowed fun left => (left / 1000000 + 500) / 1000))
      (fun run call => call.Readmits ⟨⟨60, 1, true⟩, "limit:"⟩
        (RedisBackend.windowed fun left => (left / 1000000 + 500) / 1000) run) (.start ∅)
      [⟨"user", 0, 0, 0, .answered, .refused, .answered⟩,
        ⟨"user", 3600000000000, 0, 0, .answered, .answered, .answered⟩] := by
  constructor
  · rintro ⟨meets, -⟩
    have told := meets.resetAfter 9 0 rfl
    revert told
    decide
  · rintro ⟨-, readmits, -⟩
    obtain ⟨remaining, resetAfter, result⟩ := readmits (by decide) (by decide)
    have denied : RateLimitResult.denied 60 1 = .allowed remaining resetAfter := result
    cases denied

end UHorse.Gateway
