import UHorse.Cache.Redis

/-!
# The token blacklist

An instance keeps the ids of blacklisted tokens in a set of its own, and in Redis the tokens
themselves until they expire. The set is filled by additions and by lookups that find a token in
Redis; an id leaves it only when the same instance removes the token or clears the blacklist.
-/

namespace UHorse.Cache

open UHorse.Lib UHorse.Protocol

structure BlacklistedToken where
  tokenId : String
  tenantId : String
  reason : String
  blacklistedAt : Int64
  expiresAt : Int64
deriving DecidableEq

namespace BlacklistedToken

def isExpired (token : BlacklistedToken) (now : DateTime) : Bool :=
  token.expiresAt < timestamp now

/-- What is left of the time to live, in whole seconds. -/
def ttl (token : BlacklistedToken) (now : DateTime) : Duration :=
  .fromSecs (max 0 (token.expiresAt - timestamp now)).toUInt64.toNat

end BlacklistedToken

structure TokenBlacklist where
  index : Nat
  redis : Option RedisCache
  defaultTtl : Duration

abbrev BlacklistCluster := Cluster (Finset String) BlacklistedToken

/-- Notes name what an action is given. -/
inductive BlacklistNote
  | clock
  | insert (index : Nat) (tokenId : String)
  | set (token : BlacklistedToken) (ttl : Duration)
  | find (index : Nat) (tokenId : String)
  | existsKey (tokenId : String)
  | populate (index : Nat) (tokenId : String)
  | removeLocal (index : Nat) (tokenId : String)
  | delete (tokenId : String)
  | clearLocal (index : Nat)
  | keys
  | deleteKeys (keys : List String)

abbrev BlacklistProcess (α : Type) := Program BlacklistCluster RedisEnv BlacklistNote α

def tokenKey (tokenId : String) : String := "blacklist:" ++ tokenId

namespace Cluster

variable (s : BlacklistCluster) (index : Nat) (tokenId : String)

def insertLocal : BlacklistCluster := s.setLocal index (insert tokenId (s.locals index))

def eraseLocal : BlacklistCluster := s.setLocal index ((s.locals index).erase tokenId)

/-- Whether an instance would find a token. -/
def answers : Bool := tokenId ∈ s.locals index || (s.get (tokenKey tokenId)).isSome

end Cluster

namespace TokenBlacklist

variable (self : TokenBlacklist)

def insertLocal (note : BlacklistNote) (tokenId : String) : BlacklistProcess Unit :=
  Program.update note (fun _ s => s.insertLocal self.index tokenId) fun _ _ => ()

/-- A token with no time left gets the default time to live. -/
def effectiveTtl (ttl : Duration) : Duration := if ttl = .fromSecs 0 then self.defaultTtl else ttl

def add (token : BlacklistedToken) : BlacklistProcess (Except String Unit) := do
  let ttl ← Program.query .clock fun _ s => token.ttl s.clock
  self.insertLocal (.insert self.index token.tokenId) token.tokenId
  match self.redis with
  | some _ =>
    RedisCache.setWithTtl (.set token (self.effectiveTtl ttl)) (tokenKey token.tokenId) token
      (self.effectiveTtl ttl)
  | none => pure (.ok ())

def isBlacklisted (tokenId : String) : BlacklistProcess (Except String Bool) := do
  let found ← Program.query (.find self.index tokenId) fun _ s =>
    decide (tokenId ∈ s.locals self.index)
  if found then pure (.ok true)
  else
    match self.redis with
    | some _ => do
        match ← RedisCache.existsKey (.existsKey tokenId) (tokenKey tokenId) with
        | .error message => pure (.error message)
        | .ok true => do
            self.insertLocal (.populate self.index tokenId) tokenId
            pure (.ok true)
        | .ok false => pure (.ok false)
    | none => pure (.ok false)

def remove (tokenId : String) : BlacklistProcess (Except String Bool) := do
  let removed ← Program.update (.removeLocal self.index tokenId)
    (fun _ s => s.eraseLocal self.index tokenId) fun _ s => decide (tokenId ∈ s.locals self.index)
  match self.redis with
  | some _ => do
      match ← RedisCache.delete (.delete tokenId) (tokenKey tokenId) with
      | .error message => pure (.error message)
      | .ok deleted => pure (.ok (deleted || removed))
  | none => pure (.ok removed)

def clear : BlacklistProcess (Except String Nat) := do
  let localCount ← Program.update (.clearLocal self.index)
    (fun _ s => s.setLocal self.index ∅) fun _ s => (s.locals self.index).card
  match self.redis with
  | some _ => do
      match ← RedisCache.deletePattern .keys .deleteKeys "blacklist:" with
      | .error message => pure (.error message)
      | .ok redisCount => pure (.ok (localCount + redisCount))
  | none => pure (.ok localCount)

end TokenBlacklist

end UHorse.Cache
