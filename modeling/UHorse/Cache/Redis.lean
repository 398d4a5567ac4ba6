import UHorse.Lib.Doing
import UHorse.Lib.ExpiringMap
import UHorse.Protocol.Types

/-!
# Caches over one Redis

Several instances of a cache share one Redis and keep a local part each. A Redis command is one
action; it may fail, and then it changes nothing. Values are kept as what their JSON stands for.
-/

namespace UHorse.Cache

open UHorse.Lib UHorse.Protocol

/-- `DateTime::timestamp`, in whole seconds. -/
def timestamp (now : DateTime) : Int64 := Int64.ofInt (now / 1000000000)

structure CachePolicy where
  maxItems : Nat
  defaultTtl : Duration
  refreshTtlOnAccess : Bool

structure RedisCache where
  policy : CachePolicy

/-- The shared store, the local part of each instance and the time. -/
structure Cluster (L V : Type) where
  redis : ExpiringMap String V DateTime
  locals : Nat → L
  clock : DateTime

/-- Why a command fails. -/
inductive Failure
  | connection (message : String)
  | command (message : String)

/-- What comes from Redis: whether a command fails, and what is said of one that is not allowed. -/
structure RedisEnv where
  failure : Option Failure
  refusal : String

/-- The error of a command. -/
def RedisEnv.error (env : RedisEnv) (failed : String) (refused : Bool) : Option String :=
  match env.failure with
  | some (.connection message) => some ("Failed to get Redis connection: " ++ message)
  | some (.command message) => some (failed ++ message)
  | none => if refused then some (failed ++ env.refusal) else none

def buildKey (key : String) : String := "uhorse:" ++ key

theorem buildKey_inj {first second : String} : buildKey first = buildKey second ↔ first = second :=
  String.append_right_inj "uhorse:"

/-- Whether a key meets the pattern `stem*`. -/
def matchesStem (stem key : String) : Bool := stem.toList.isPrefixOf key.toList

theorem matchesStem_append (stem rest : String) : matchesStem stem (stem ++ rest) = true := by
  rw [matchesStem, String.toList_append]
  exact List.isPrefixOf_iff_prefix.mpr (List.prefix_append _ _)

namespace Cluster

variable {L V : Type} (s : Cluster L V)

def setLocal (index : Nat) (value : L) : Cluster L V :=
  { s with locals := Function.update s.locals index value }

/-- The value of a key that has not expired. -/
def get (key : String) : Option V := s.redis.live s.clock (buildKey key)

/-- `SET` with a time to live in whole seconds. -/
def setEx (key : String) (value : V) (ttl : Duration) : Cluster L V :=
  { s with redis := s.redis.insert (buildKey key) value (s.clock + seconds ttl.secs) }

def del (key : String) : Cluster L V := { s with redis := s.redis.erase (buildKey key) }

def delKeys (keys : List String) : Cluster L V :=
  { s with redis := s.redis.eraseWhere fun key => key ∈ keys }

/-- The time to live is cast to a signed number; a key that would expire now is gone. -/
def expire (key : String) (ttl : Duration) : Cluster L V :=
  { s with
    redis := s.redis.extend s.clock (buildKey key)
      (s.clock + (UInt64.ofNat ttl.secs).toInt64.toInt * 1000000000) }

/-- The answer of `KEYS` for the pattern `stem*`. -/
def keys (stem : String) : List String := s.redis.liveKeys s.clock (matchesStem (buildKey stem))

end Cluster

namespace RedisCache

variable {L V ω α : Type}

/-- A command that fails with an error or changes the store and returns a value. -/
def command (note : ω) (error : RedisEnv → Option String) (run : Cluster L V → Cluster L V)
    (value : Cluster L V → α) : Program (Cluster L V) RedisEnv ω (Except String α) :=
  Program.update note (fun env s => if (error env).isSome then s else run s) fun env s =>
    match error env with
    | some message => .error message
    | none => .ok (value s)

/-- Redis does not set a key that would expire at once. -/
def setError (ttl : Duration) (env : RedisEnv) : Option String :=
  env.error "Redis set error: " (ttl.secs = 0)

def setWithTtl (note : ω) (key : String) (value : V) (ttl : Duration) :
    Program (Cluster L V) RedisEnv ω (Except String Unit) :=
  command note (setError ttl) (fun s => s.setEx key value ttl) fun _ => ()

def deleteError (env : RedisEnv) : Option String := env.error "Redis delete error: " false

def delete (note : ω) (key : String) : Program (Cluster L V) RedisEnv ω (Except String Bool) :=
  command note deleteError (fun s => s.del key) fun s => (s.get key).isSome

def existsError (env : RedisEnv) : Option String := env.error "Redis exists error: " false

def existsKey (note : ω) (key : String) : Program (Cluster L V) RedisEnv ω (Except String Bool) :=
  command note existsError (fun s => s) fun s => (s.get key).isSome

def keysError (env : RedisEnv) : Option String := env.error "Redis KEYS error: " false

def deletePatternError (env : RedisEnv) : Option String :=
  env.error "Redis delete pattern error: " false

/-- Two commands: `KEYS stem*`, and `DEL` of the keys it answers if there are any. -/
def deletePattern (listing : ω) (deleting : List String → ω) (stem : String) :
    Program (Cluster L V) RedisEnv ω (Except String Nat) := do
  match ← command listing keysError (fun s => s) fun s => s.keys stem with
  | .error message => pure (.error message)
  | .ok [] => pure (.ok 0)
  | .ok keys =>
    command (deleting keys) deletePatternError (fun s => s.delKeys keys) fun s =>
      keys.countP fun key => (s.redis.live s.clock key).isSome

def expireError (env : RedisEnv) : Option String := env.error "Redis expire error: " false

def expire (note : ω) (key : String) (ttl : Duration) :
    Program (Cluster L V) RedisEnv ω (Except String Bool) :=
  command note expireError (fun s => s.expire key ttl) fun s => (s.get key).isSome

def getError (env : RedisEnv) : Option String := env.error "Redis get error: " false

/-- `GET`, and then `EXPIRE` if the policy says so; whether that fails does not matter. -/
def get (redis : RedisCache) (getting touching : ω) (key : String) :
    Program (Cluster L V) RedisEnv ω (Except String (Option V)) := do
  match ← command getting getError (fun s => s) fun s => s.get key with
  | .ok (some value) => do
      if redis.policy.refreshTtlOnAccess then
        let _ ← command touching expireError
          (fun s => s.expire key redis.policy.defaultTtl) fun _ => ()
      pure (.ok (some value))
  | other => pure other

end RedisCache

end UHorse.Cache
