import UHorse.Lib.Program

/-!
# The global rate limiter

Two counters are atomic words, the start of the window is under a mutex. The programs perform
one action for each operation on a word and each section under the mutex; the section that
opens a window stores zero in between and is two actions, with the mutex held from the first
to the second. A connection that was started is ended at some later time.
-/

namespace UHorse.Gateway

open UHorse.Lib

structure RateLimitConfig where
  windowSize : UInt64
  maxRequests : UInt64
  enabled : Bool

structure GlobalRateLimitConfig where
  base : RateLimitConfig
  maxConcurrent : UInt64

inductive RateLimitResult
  | allowed (remaining resetAfter : UInt64)
  | denied (retryAfter limit : UInt64)
deriving DecidableEq

/-- Instants are nanoseconds of a clock. -/
abbrev Instant := Nat

/-- The shared part of the limiter, with a count of the windows that were opened. -/
structure Limiter where
  currentConcurrent : UInt64
  windowRequests : UInt64
  windowStart : Instant
  locked : Bool
  window : Nat

def Limiter.new (now : Instant) : Limiter := ⟨0, 0, now, false, 0⟩

inductive LimiterNote
  | loadConcurrent
  | readClock
  | enterWindow
  | clearRequests
  | loadRequests
  | count
  | readStart
  | begin
  | undo
  | finish
deriving DecidableEq

abbrev LimiterProgram := Program Limiter Instant LimiterNote

namespace GlobalRateLimiter

/-- A section under the mutex that is one action. -/
def withStart {α : Type} (note : LimiterNote) (run : Limiter → Limiter) (value : Limiter → α) :
    LimiterProgram α :=
  .act note (fun s => !s.locked) (fun _ => run) fun _ s => .done (value s)

variable (config : GlobalRateLimitConfig)

/-- `Duration::from_secs` of the window size. -/
def windowDuration : Nat := config.base.windowSize.toNat * 1000000000

def expired (now : Instant) (s : Limiter) : Bool :=
  decide (windowDuration config ≤ now - s.windowStart)

def resetAfter (now : Instant) (s : Limiter) : UInt64 :=
  .ofNat ((windowDuration config - (now - s.windowStart)) / 1000000000)

/-- Open a new window if the present one is over. -/
def resetWindow (now : Instant) : LimiterProgram Unit := do
  let over_ ← withStart .enterWindow
    (fun s =>
      if expired config now s then
        { s with windowStart := now, locked := true, window := s.window + 1 }
      else s)
    (expired config now)
  if over_ then
    Program.update .clearRequests (fun _ s => { s with windowRequests := 0, locked := false })
      fun _ _ => ()
  else pure ()

def checkWindow : LimiterProgram RateLimitResult := do
  let now ← Program.query .readClock fun now _ => now
  resetWindow config now
  let requests ← Program.query .loadRequests fun _ s => s.windowRequests
  if requests ≥ config.base.maxRequests then do
    let resetAfter ← withStart .readStart id (resetAfter config now)
    pure (.denied (max resetAfter 1) config.base.maxRequests)
  else do
    let remaining := config.base.maxRequests - requests - 1
    Program.update .count (fun _ s => { s with windowRequests := s.windowRequests + 1 })
      fun _ _ => ()
    let resetAfter ← withStart .readStart id (resetAfter config now)
    pure (.allowed remaining resetAfter)

def check : LimiterProgram RateLimitResult :=
  if !config.base.enabled then pure (.allowed 0xFFFFFFFFFFFFFFFF 0)
  else do
    let concurrent ← Program.query .loadConcurrent fun _ s => s.currentConcurrent
    if concurrent ≥ config.maxConcurrent then pure (.denied 1 config.maxConcurrent)
    else checkWindow config

def startConnection : LimiterProgram Bool := do
  let current ← Program.update .begin
    (fun _ s => { s with currentConcurrent := s.currentConcurrent + 1 })
    fun _ s => s.currentConcurrent
  if current ≥ config.maxConcurrent then do
    Program.update .undo (fun _ s => { s with currentConcurrent := s.currentConcurrent - 1 })
      fun _ _ => ()
    pure false
  else pure true

def endConnection : LimiterProgram Unit :=
  Program.update .finish (fun _ s => { s with currentConcurrent := s.currentConcurrent - 1 })
    fun _ _ => ()

/-- A connection that is ended only after it was started. -/
def connect : LimiterProgram Bool := do
  let started ← startConnection config
  if started then endConnection
  pure started

end GlobalRateLimiter

inductive LimiterReply
  | checked (result : RateLimitResult)
  | connected (started : Bool)

namespace GlobalRateLimiter

/-- The calls of the limiter. -/
inductive Spawns (config : GlobalRateLimitConfig) : LimiterProgram LimiterReply → Prop
  | check : Spawns config do
      let result ← check config
      pure (.checked result)
  | connect : Spawns config do
      let started ← connect config
      pure (.connected started)

end GlobalRateLimiter

end UHorse.Gateway
