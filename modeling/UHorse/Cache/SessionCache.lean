import UHorse.Cache.Redis

/-!
# The session cache

An instance keeps sessions in a least-recently-used cache of its own and in Redis. The local cache
knows no expiry. How it evicts is left to it: its operations are parameters.
-/

namespace UHorse.Cache

open UHorse.Lib UHorse.Protocol

structure SessionData where
  sessionId : String
  tenantId : String
  metadata : Json
  createdAt : Int64
  lastAccessedAt : Int64
deriving DecidableEq

def SessionData.touch (session : SessionData) (now : DateTime) : SessionData :=
  { session with lastAccessedAt := timestamp now }

/-- A least-recently-used cache of sessions by their ids. `put` makes its entry the latest, and may
evict others; `values` lists what is there. -/
structure LruCache (C : Type) where
  peek : C → String → Option SessionData
  put : C → String → SessionData → C
  pop : C → String → C
  values : C → List SessionData

structure SessionCache where
  index : Nat
  redis : Option RedisCache
  sessionTtl : Duration

abbrev SessionCluster (C : Type) := Cluster C SessionData

/-- Notes name what an action is given. -/
inductive SessionNote
  | put (index : Nat) (session : SessionData) (ttl : Duration)
  | set (session : SessionData) (ttl : Duration)
  | look (index : Nat) (sessionId : String)
  | fetch (sessionId : String)
  | touchKey (sessionId : String) (ttl : Duration)
  | clock
  | populate (index : Nat) (sessionId : String)
  | pop (index : Nat) (sessionId : String)
  | delete (sessionId : String)
  | has (index : Nat) (sessionId : String)
  | existsKey (sessionId : String)
  | touchLocal (index : Nat) (sessionId : String)
  | refresh (sessionId : String) (ttl : Duration)
  | list (index : Nat) (tenantId : String)
  | deletedTenant (tenantId : String)

abbrev SessionProcess (C α : Type) := Program (SessionCluster C) RedisEnv SessionNote α

def sessionKey (sessionId : String) : String := "session:" ++ sessionId

namespace Cluster

variable {C : Type} (lru : LruCache C) (s : SessionCluster C) (index : Nat)

def putLocal (sessionId : String) (session : SessionData) : SessionCluster C :=
  s.setLocal index (lru.put (s.locals index) sessionId session)

/-- `get_mut`, which makes the entry the latest, and `touch`. -/
def touchLocal (sessionId : String) : SessionCluster C :=
  match lru.peek (s.locals index) sessionId with
  | some session => s.putLocal lru index sessionId (session.touch s.clock)
  | none => s

/-- The ids of the local sessions of a tenant. -/
def tenantSessions (tenantId : String) : List String :=
  ((lru.values (s.locals index)).filter (·.tenantId = tenantId)).map SessionData.sessionId

end Cluster

namespace SessionCache

variable {C : Type} (lru : LruCache C) (self : SessionCache)

def set (session : SessionData) : SessionProcess C (Except String Unit) := do
  Program.update (.put self.index session self.sessionTtl)
    (fun _ s => s.putLocal lru self.index session.sessionId session) fun _ _ => ()
  match self.redis with
  | some _ =>
    RedisCache.setWithTtl (.set session self.sessionTtl) (sessionKey session.sessionId) session
      self.sessionTtl
  | none => pure (.ok ())

def get (sessionId : String) : SessionProcess C (Except String (Option SessionData)) := do
  let found ← Program.update (.look self.index sessionId)
    (fun _ s => s.touchLocal lru self.index sessionId) fun _ s =>
      (lru.peek (s.locals self.index) sessionId).map (·.touch s.clock)
  match found, self.redis with
  | some session, _ => pure (.ok (some session))
  | none, none => pure (.ok none)
  | none, some redis => do
      match ← redis.get (.fetch sessionId) (.touchKey sessionId redis.policy.defaultTtl)
        (sessionKey sessionId) with
      | .ok (some data) => do
          let session ← Program.query .clock fun _ s => data.touch s.clock
          Program.update (.populate self.index sessionId)
            (fun _ s => s.putLocal lru self.index sessionId session) fun _ _ => ()
          pure (.ok (some session))
      | other => pure other

def delete (sessionId : String) : SessionProcess C (Except String Bool) := do
  Program.update (.pop self.index sessionId)
    (fun _ s => s.setLocal self.index (lru.pop (s.locals self.index) sessionId)) fun _ _ => ()
  match self.redis with
  | some _ => do
      match ← RedisCache.delete (.delete sessionId) (sessionKey sessionId) with
      | .error message => pure (.error message)
      | .ok _ => pure (.ok true)
  | none => pure (.ok true)

def existsSession (sessionId : String) : SessionProcess C (Except String Bool) := do
  let found ← Program.query (.has self.index sessionId) fun _ s =>
    (lru.peek (s.locals self.index) sessionId).isSome
  match found, self.redis with
  | false, some _ => RedisCache.existsKey (.existsKey sessionId) (sessionKey sessionId)
  | found, _ => pure (.ok found)

def refresh (sessionId : String) : SessionProcess C (Except String Bool) := do
  Program.update (.touchLocal self.index sessionId)
    (fun _ s => s.touchLocal lru self.index sessionId) fun _ _ => ()
  match self.redis with
  | some _ =>
    RedisCache.expire (.refresh sessionId self.sessionTtl) (sessionKey sessionId) self.sessionTtl
  | none => pure (.ok true)

def getTenantSessions (tenantId : String) : SessionProcess C (List String) :=
  Program.query (.list self.index tenantId) fun _ s => s.tenantSessions lru self.index tenantId

/-- The loop of `delete_tenant_sessions`, which stops at the first error. -/
def deleteAll : List String → SessionProcess C (Except String Unit)
  | [] => pure (.ok ())
  | sessionId :: rest => do
      match ← self.delete lru sessionId with
      | .error message => pure (.error message)
      | .ok _ => deleteAll rest

/-- Its end is an action, since the call returns only after the last deletion. -/
def deleteTenantSessions (tenantId : String) : SessionProcess C (Except String Nat) := do
  let sessionIds ← self.getTenantSessions lru tenantId
  match ← self.deleteAll lru sessionIds with
  | .error message => pure (.error message)
  | .ok _ => do
      Program.query (.deletedTenant tenantId) fun _ _ => ()
      pure (.ok sessionIds.length)

end SessionCache

end UHorse.Cache
