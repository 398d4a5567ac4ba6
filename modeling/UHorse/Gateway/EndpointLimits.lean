import UHorse.Gateway.GlobalRateLimiter
import UHorse.Lib.HashMap
import UHorse.Lib.Numerals
import UHorse.Lib.System

/-!
# Limits of endpoints

A rule limits the requests of a client to the endpoints that match its pattern. The first rule that
matches applies, but requests are counted for the client, the method and the path, which are joined
to one key.

Lower case is a parameter.
-/

namespace UHorse.Gateway

open UHorse.Lib

structure EndpointLimit where
  pattern : String
  method : Option String
  windowSecs : UInt64
  maxRequests : UInt64

structure EndpointRateLimitConfig where
  base : RateLimitConfig
  defaultLimit : EndpointLimit

structure EndpointState where
  windowStart : Instant
  currentRequests : UInt64
  maxRequests : UInt64
  windowSecs : UInt64
deriving DecidableEq

abbrev EndpointStates := HashMap String EndpointState

structure EndpointRequest where
  method : String
  path : String
  clientId : String
deriving DecidableEq

namespace EndpointLimit

/-- A part of the path, or a parameter of the pattern. -/
def partMatches (part actual : List Char) : Bool :=
  part = [':', '*'] || [':'].isPrefixOf part || part = actual

def matchPattern (pattern path : List Char) : Bool :=
  if pattern = ['*'] ∨ pattern = path then true
  else if ['*'].isSuffixOf pattern then pattern.dropLast.isPrefixOf path
  else
    let patternParts := pattern.splitOn '/'
    let pathParts := path.splitOn '/'
    patternParts.length = pathParts.length &&
      (patternParts.zip pathParts).all fun parts => partMatches parts.1 parts.2

/-- `matches`. -/
def matchesEndpoint (toLowercase : String → String) (limit : EndpointLimit)
    (method path : String) : Bool :=
  limit.method.all (fun m => m = "*" || toLowercase m = toLowercase method) &&
    matchPattern limit.pattern.toList path.toList

end EndpointLimit

/-- The limiter without its states. -/
structure EndpointRateLimiter where
  toLowercase : String → String
  config : EndpointRateLimitConfig
  limits : List EndpointLimit

namespace EndpointRateLimiter

variable (limiter : EndpointRateLimiter)

def limitFor (request : EndpointRequest) : EndpointLimit :=
  (limiter.limits.find? fun limit =>
    limit.matchesEndpoint limiter.toLowercase request.method request.path).getD
      limiter.config.defaultLimit

def key (request : EndpointRequest) : String :=
  request.clientId ++ ":" ++ request.method ++ ":" ++ request.path

end EndpointRateLimiter

/-- `Duration::from_secs` of a window. -/
def EndpointLimit.windowDuration (limit : EndpointLimit) : Nat :=
  limit.windowSecs.toNat * 1000000000

def EndpointLimit.fresh (limit : EndpointLimit) (now : Instant) : EndpointState :=
  ⟨now, 0, limit.maxRequests, limit.windowSecs⟩

namespace EndpointRateLimiter

variable (limiter : EndpointRateLimiter)

/-- The state a check works on: it is created if it is missing, and its window may start anew. -/
def currentState (states : EndpointStates) (request : EndpointRequest) (now : Instant) :
    EndpointState :=
  let limit := limiter.limitFor request
  let state := (states.lookup (key request)).getD (limit.fresh now)
  if limit.windowDuration ≤ now - state.windowStart then limit.fresh now else state

def resetAfter (limit : EndpointLimit) (state : EndpointState) (now : Instant) : UInt64 :=
  .ofNat ((limit.windowDuration - (now - state.windowStart)) / 1000000000)

def check (states : EndpointStates) (request : EndpointRequest) (now : Instant) :
    RateLimitResult × EndpointStates :=
  if limiter.config.base.enabled = false then (.allowed 0xFFFFFFFFFFFFFFFF 0, states)
  else
    let limit := limiter.limitFor request
    let state := limiter.currentState states request now
    if state.currentRequests ≥ state.maxRequests then
      (.denied (max (resetAfter limit state now) 1) state.maxRequests,
        states.insert (key request) state)
    else
      let current := state.currentRequests + 1
      (.allowed (state.maxRequests - current) (resetAfter limit state now),
        states.insert (key request) { state with currentRequests := current })

end EndpointRateLimiter

/-! ## Rules -/

/-- The window of a client and a rule, if one has started, and how many requests were allowed in
it. -/
structure RuleLedger where
  start : Option Instant
  allowed : Nat

namespace RuleLedger

/-- The window a request is in: a window that is over is followed by a new one. -/
def inWindow (ledger : RuleLedger) (window : Nat) (now : Instant) : RuleLedger :=
  match ledger.start with
  | none => ⟨some now, 0⟩
  | some start => if window ≤ now - start then ⟨some now, 0⟩ else ledger

def counting (ledger : RuleLedger) (result : RateLimitResult) : RuleLedger :=
  match result with
  | .allowed _ _ => { ledger with allowed := ledger.allowed + 1 }
  | .denied _ _ => ledger

@[simp] theorem counting_allowed (ledger : RuleLedger) (remaining resetAfter : UInt64) :
    ledger.counting (.allowed remaining resetAfter) =
      { ledger with allowed := ledger.allowed + 1 } := rfl

@[simp] theorem counting_denied (ledger : RuleLedger) (retryAfter limit : UInt64) :
    ledger.counting (.denied retryAfter limit) = ledger := rfl

end RuleLedger

/-- A request at a time. -/
structure EndpointCall where
  request : EndpointRequest
  now : Instant

/-- The states of the limiter, and a ledger for each client and each rule. -/
structure EndpointRun where
  states : EndpointStates
  ledger : String × Nat → RuleLedger

def EndpointRun.start : EndpointRun := ⟨∅, fun _ => ⟨none, 0⟩⟩

namespace EndpointRateLimiter

variable (limiter : EndpointRateLimiter)

/-- The place of the rule that matches first; the default limit is behind the rules. -/
def rule (request : EndpointRequest) : Nat :=
  limiter.limits.findIdx fun limit =>
    limit.matchesEndpoint limiter.toLowercase request.method request.path

/-- The client of a request and the rule that matches it first. -/
def account (request : EndpointRequest) : String × Nat := (request.clientId, limiter.rule request)

end EndpointRateLimiter

namespace EndpointRun

variable (limiter : EndpointRateLimiter) (run : EndpointRun) (call : EndpointCall)

def result : RateLimitResult := (limiter.check run.states call.request call.now).1

/-- The ledger of the client and the rule, in the window the request is in. -/
def window : RuleLedger :=
  (run.ledger (limiter.account call.request)).inWindow
    (limiter.limitFor call.request).windowDuration call.now

def after : EndpointRun where
  states := (limiter.check run.states call.request call.now).2
  ledger := Function.update run.ledger (limiter.account call.request)
    ((run.window limiter call).counting (run.result limiter call))

/-- The request is allowed just when the rule has something left for the client in the window; never
more is allowed than the limit, and what remains is what is left of it. -/
structure Limited : Prop where
  allowed_iff : (∃ remaining resetAfter,
      run.result limiter call = .allowed remaining resetAfter) ↔
    (run.window limiter call).allowed < (limiter.limitFor call.request).maxRequests.toNat
  remaining : ∀ remaining resetAfter, run.result limiter call = .allowed remaining resetAfter →
    remaining.toNat = (limiter.limitFor call.request).maxRequests.toNat -
      ((run.after limiter call).ledger (limiter.account call.request)).allowed
  bounded : ((run.after limiter call).ledger (limiter.account call.request)).allowed ≤
    (limiter.limitFor call.request).maxRequests.toNat

end EndpointRun

/-- Two requests are counted together just when they are of one client and one rule. -/
def FaithfulKeys (limiter : EndpointRateLimiter) (calls : List EndpointCall) : Prop :=
  ∀ first ∈ calls, ∀ second ∈ calls,
    EndpointRateLimiter.key first.request = EndpointRateLimiter.key second.request ↔
      limiter.account first.request = limiter.account second.request

/-! ## Counting by the key -/

section Tracking

variable {limiter : EndpointRateLimiter}

theorem limitFor_of_account {first second : EndpointRequest}
    (same : limiter.account first = limiter.account second) :
    limiter.limitFor first = limiter.limitFor second := by
  have rules : limiter.rule first = limiter.rule second := congrArg Prod.snd same
  rw [EndpointRateLimiter.limitFor, EndpointRateLimiter.limitFor, List.find?_eq_getElem?_findIdx,
    List.find?_eq_getElem?_findIdx]
  rw [EndpointRateLimiter.rule, EndpointRateLimiter.rule] at rules
  rw [rules]

/-- The state of a key is that of a ledger under a limit. -/
structure Tracks (limit : EndpointLimit) (state : EndpointState) (ledger : RuleLedger) : Prop where
  start : ledger.start = some state.windowStart
  allowed : ledger.allowed = state.currentRequests.toNat
  limited : state.maxRequests = limit.maxRequests
  bounded : state.currentRequests ≤ state.maxRequests

/-- The same for a key that may have no state yet. -/
def TracksOption (limit : EndpointLimit) (ledger : RuleLedger) : Option EndpointState → Prop
  | none => ledger.start = none
  | some state => Tracks limit state ledger

theorem Tracks.fresh (limit : EndpointLimit) (now : Instant) :
    Tracks limit (limit.fresh now) ⟨some now, 0⟩ :=
  ⟨rfl, rfl, rfl, UInt64.zero_le⟩

variable {ledger : RuleLedger} {states : EndpointStates} {request : EndpointRequest} {now : Instant}

theorem Tracks.counted {limit : EndpointLimit} {state : EndpointState}
    (tracks : Tracks limit state ledger) (below : state.currentRequests < state.maxRequests) :
    Tracks limit { state with currentRequests := state.currentRequests + 1 }
      { ledger with allowed := ledger.allowed + 1 } := by
  have next := Numerals.toNat_succ_of_lt below
  refine ⟨tracks.start, ?_, tracks.limited, ?_⟩
  · show ledger.allowed + 1 = (state.currentRequests + 1).toNat
    rw [tracks.allowed, next]
  · rw [UInt64.le_iff_toNat_le]
    show (state.currentRequests + 1).toNat ≤ _
    rw [next]
    exact UInt64.lt_iff_toNat_lt.mp below

theorem toNat_sub_next {current most : UInt64} (below : current < most) :
    (most - (current + 1)).toNat = most.toNat - (current.toNat + 1) := by
  have next := Numerals.toNat_succ_of_lt below
  have room : current + 1 ≤ most := by
    rw [UInt64.le_iff_toNat_le, next]
    exact UInt64.lt_iff_toNat_lt.mp below
  rw [UInt64.toNat_sub_of_le _ _ room, next]

/-- The state a check works on tracks the window the request is in. -/
theorem Tracks.currentState (tracks : TracksOption (limiter.limitFor request) ledger
      (states.lookup (EndpointRateLimiter.key request))) :
    Tracks (limiter.limitFor request) (limiter.currentState states request now)
      (ledger.inWindow (limiter.limitFor request).windowDuration now) := by
  rw [EndpointRateLimiter.currentState]
  cases found : states.lookup (EndpointRateLimiter.key request) with
  | none =>
    rw [found] at tracks
    have unstarted : ledger.start = none := tracks
    rw [RuleLedger.inWindow, unstarted, Option.getD_none, ite_self]
    exact .fresh _ now
  | some state =>
    rw [found] at tracks
    have started : ledger.start = some state.windowStart := Tracks.start tracks
    rw [RuleLedger.inWindow, started, Option.getD_some]
    dsimp only
    split
    · exact .fresh _ now
    · exact tracks

/-- The states of the keys of all calls are those of their ledgers. -/
def Tracked (limiter : EndpointRateLimiter) (calls : List EndpointCall) (run : EndpointRun) :
    Prop :=
  ∀ call ∈ calls, TracksOption (limiter.limitFor call.request)
    (run.ledger (limiter.account call.request))
    (run.states.lookup (EndpointRateLimiter.key call.request))

variable {calls : List EndpointCall} {run : EndpointRun} {call : EndpointCall}

theorem tracked_start (limiter : EndpointRateLimiter) (calls : List EndpointCall) :
    Tracked limiter calls .start := by
  intro call _
  rw [EndpointRun.start, Finmap.lookup_empty]
  rfl

/-- A new state under the key of a call goes with a new ledger of its client and rule. -/
theorem Tracked.update (tracked : Tracked limiter calls run) (faithful : FaithfulKeys limiter calls)
    (member : call ∈ calls) {state : EndpointState}
    (tracks : Tracks (limiter.limitFor call.request) state ledger) :
    Tracked limiter calls ⟨run.states.insert (EndpointRateLimiter.key call.request) state,
      Function.update run.ledger (limiter.account call.request) ledger⟩ := by
  intro other otherMember
  have together := faithful other otherMember call member
  dsimp only
  rw [HashMap.lookup_insert_ite]
  by_cases same : EndpointRateLimiter.key other.request = EndpointRateLimiter.key call.request
  · have accounts := together.mp same
    rw [if_pos same, accounts, Function.update_self, limitFor_of_account accounts]
    exact tracks
  · rw [if_neg same, Function.update_of_ne fun accounts => same (together.mpr accounts)]
    exact tracked other otherMember

theorem exists_check_denied (enabled : limiter.config.base.enabled = true)
    (used : (limiter.currentState states request now).maxRequests ≤
      (limiter.currentState states request now).currentRequests) :
    ∃ wait limit, limiter.check states request now = (.denied wait limit,
      states.insert (EndpointRateLimiter.key request)
        (limiter.currentState states request now)) := by
  rw [EndpointRateLimiter.check, if_neg (by simp [enabled])]
  exact ⟨_, _, if_pos used⟩

theorem exists_check_allowed (enabled : limiter.config.base.enabled = true)
    (below : (limiter.currentState states request now).currentRequests <
      (limiter.currentState states request now).maxRequests) :
    ∃ resetAfter, limiter.check states request now =
      (.allowed ((limiter.currentState states request now).maxRequests -
          ((limiter.currentState states request now).currentRequests + 1)) resetAfter,
        states.insert (EndpointRateLimiter.key request)
          { limiter.currentState states request now with
            currentRequests :=
              (limiter.currentState states request now).currentRequests + 1 }) := by
  rw [EndpointRateLimiter.check, if_neg (by simp [enabled])]
  exact ⟨_, if_neg (UInt64.not_le.mpr below)⟩

/-- A check limits its request, and its state and ledger go on together. -/
theorem Tracked.check (tracked : Tracked limiter calls run) (faithful : FaithfulKeys limiter calls)
    (enabled : limiter.config.base.enabled = true) (member : call ∈ calls) :
    run.Limited limiter call ∧ Tracked limiter calls (run.after limiter call) := by
  have tracks : Tracks (limiter.limitFor call.request)
      (limiter.currentState run.states call.request call.now) (run.window limiter call) :=
    .currentState (tracked call member)
  have limit := congrArg UInt64.toNat tracks.limited
  have bounded := UInt64.le_iff_toNat_le.mp tracks.bounded
  have allowed := tracks.allowed
  by_cases used : (limiter.currentState run.states call.request call.now).maxRequests ≤
      (limiter.currentState run.states call.request call.now).currentRequests
  · obtain ⟨wait, limit', checked⟩ := exists_check_denied enabled used
    have result : run.result limiter call = .denied wait limit' := congrArg Prod.fst checked
    have behind : run.after limiter call = ⟨run.states.insert
        (EndpointRateLimiter.key call.request)
        (limiter.currentState run.states call.request call.now),
        Function.update run.ledger (limiter.account call.request) (run.window limiter call)⟩ := by
      rw [EndpointRun.after, result, checked, RuleLedger.counting_denied]
    have full := UInt64.le_iff_toNat_le.mp used
    refine ⟨⟨iff_of_false ?_ (by omega), fun remaining resetAfter same => ?_, ?_⟩, ?_⟩
    · rintro ⟨remaining, resetAfter, same⟩
      cases result.symm.trans same
    · cases result.symm.trans same
    · rw [behind]
      dsimp only
      rw [Function.update_self]
      omega
    · rw [behind]
      exact tracked.update faithful member tracks
  · have below := UInt64.not_le.mp used
    obtain ⟨resetAfter, checked⟩ := exists_check_allowed enabled below
    have result : run.result limiter call = .allowed _ resetAfter := congrArg Prod.fst checked
    have left := toNat_sub_next below
    have behind : run.after limiter call = ⟨run.states.insert
        (EndpointRateLimiter.key call.request)
        { limiter.currentState run.states call.request call.now with
          currentRequests :=
            (limiter.currentState run.states call.request call.now).currentRequests + 1 },
        Function.update run.ledger (limiter.account call.request)
          { run.window limiter call with allowed := (run.window limiter call).allowed + 1 }⟩ := by
      rw [EndpointRun.after, result, checked, RuleLedger.counting_allowed]
    have room := UInt64.lt_iff_toNat_lt.mp below
    refine ⟨⟨iff_of_true ⟨_, _, result⟩ (by omega), fun remaining resetAfter same => ?_, ?_⟩, ?_⟩
    · cases result.symm.trans same
      rw [behind]
      dsimp only
      rw [Function.update_self, left]
      show _ = _ - ((run.window limiter call).allowed + 1)
      omega
    · rw [behind]
      dsimp only
      rw [Function.update_self]
      show (run.window limiter call).allowed + 1 ≤ _
      omega
    · rw [behind]
      exact tracked.update faithful member (tracks.counted below)

end Tracking

/-- Where requests are counted together just when they are of one client and one rule, each rule
limits each client in each of its windows, and nobody else. -/
theorem endpoints_limited (limiter : EndpointRateLimiter) (calls : List EndpointCall)
    (enabled : limiter.config.base.enabled = true) (faithful : FaithfulKeys limiter calls) :
    Along (EndpointRun.after limiter) (fun run call => run.Limited limiter call) .start calls := by
  have members : Along (EndpointRun.after limiter) (fun _ call => call ∈ calls) .start calls :=
    along_of_mem (fun _ _ member => member) EndpointRun.start
  exact members.imp (fun _ _ tracked member => (tracked.check faithful enabled member).2)
    (fun _ _ tracked member => (tracked.check faithful enabled member).1)
    (tracked_start limiter calls)

/-- Two clients under a rule with a parameter. -/
theorem endpoints_limited_of_clients :
    Along (EndpointRun.after ⟨id, ⟨⟨60, 100, true⟩, "/*", none, 60, 100⟩,
        [⟨"/users/:id", none, 60, 1⟩]⟩)
      (fun run call => run.Limited ⟨id, ⟨⟨60, 100, true⟩, "/*", none, 60, 100⟩,
        [⟨"/users/:id", none, 60, 1⟩]⟩ call) .start
      [⟨⟨"GET", "/users/1", "ann"⟩, 0⟩, ⟨⟨"GET", "/users/1", "bob"⟩, 0⟩,
        ⟨⟨"GET", "/users/1", "ann"⟩, 5⟩] := by
  refine endpoints_limited _ _ rfl ?_
  rw [FaithfulKeys]
  decide +kernel

/-- A rule for all users limits each path of it by itself, and a client is denied for what another
client has asked for. -/
theorem endpoints_not_limited :
    ¬ Along (EndpointRun.after ⟨id, ⟨⟨60, 100, true⟩, "/*", none, 60, 100⟩,
        [⟨"/users/:id", none, 60, 1⟩]⟩)
      (fun run call => run.Limited ⟨id, ⟨⟨60, 100, true⟩, "/*", none, 60, 100⟩,
        [⟨"/users/:id", none, 60, 1⟩]⟩ call) .start
      [⟨⟨"GET", "/users/1", "ann"⟩, 0⟩, ⟨⟨"GET", "/users/2", "ann"⟩, 0⟩] ∧
    ¬ Along (EndpointRun.after ⟨id, ⟨⟨60, 100, true⟩, "/*", none, 60, 1⟩, []⟩)
      (fun run call => run.Limited ⟨id, ⟨⟨60, 100, true⟩, "/*", none, 60, 1⟩, []⟩ call) .start
      [⟨⟨"GET", "/a:GET:/a", "ann"⟩, 0⟩, ⟨⟨"GET", "/a", "ann:GET:/a"⟩, 0⟩] := by
  constructor
  · rintro ⟨-, second, -⟩
    have below := second.allowed_iff.mp ⟨_, _, rfl⟩
    revert below
    decide +kernel
  · rintro ⟨-, second, -⟩
    obtain ⟨remaining, resetAfter, result⟩ := second.allowed_iff.mpr (by decide)
    have denied : RateLimitResult.denied 60 1 = .allowed remaining resetAfter := result
    cases denied

end UHorse.Gateway
