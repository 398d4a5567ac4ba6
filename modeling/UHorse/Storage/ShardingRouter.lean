import Mathlib.Data.List.Sort
import UHorse.Lib.Bytes
import UHorse.Lib.HashMap
import UHorse.Lib.Program

/-!
# Routing tenants to shards

`route` looks a tenant up in `tenant_shard_map`, computes a shard from the hash ring if it is
not there and enters it, in three sections; `assign_tenant_shard` and
`remove_tenant_assignment` change the map in one. The programs perform one action for each
section. The configuration and the ring do not change, since `rebuild_hash_ring` takes the
router for itself.

The state remembers for each tenant the assignments and removals made for it, newest first.
-/

namespace UHorse.Storage

open UHorse.Lib

inductive ShardingStrategy
  | tenantBased
  | hashBased
  | rangeBased
deriving DecidableEq

structure ShardKey where
  tenantId : Option String
  userId : Option String
  timestamp : Option Int64

def ShardKey.fromTenant (tenantId : String) : ShardKey := ⟨some tenantId, none, none⟩

structure ShardConfig where
  id : UInt32
  dsn : String
  weight : UInt32
  active : Bool

structure ShardingConfig where
  strategy : ShardingStrategy
  shards : List ShardConfig

namespace ShardingConfig

def getShard (config : ShardingConfig) (id : UInt32) : Option ShardConfig :=
  config.shards.find? fun shard => shard.id = id

def activeShards (config : ShardingConfig) : List ShardConfig :=
  config.shards.filter fun shard => shard.active

end ShardingConfig

structure RouteResult where
  shardId : UInt32
  shard : ShardConfig
  useReplica : Bool

/-- What a call comes to. -/
inductive Outcome (α : Type)
  | returned (result : Except String α)
  | panicked

/-- FNV-1a. -/
def hashKey (key : String) : UInt64 :=
  (Bytes.utf8 key).foldl (fun hash byte => (hash ^^^ byte.toUInt64) * 0x01000193) 0x811c9dc5

def buildHashRing (config : ShardingConfig) : List UInt32 :=
  (config.activeShards.map ShardConfig.id).insertionSort (· ≤ ·)

/-- The first shard on the ring whose hash is not below the key's, or else the first of all;
there is none on an empty ring. -/
def shardOnRing (ring : List UInt32) (key : String) : Option UInt32 :=
  (ring.find? fun id => hashKey key ≤ hashKey (Nat.repr id.toNat)) <|> ring.head?

structure Shared where
  tenantShardMap : HashMap String UInt32
  /-- The assignments and removals of each tenant. -/
  overrides : String → List (Option UInt32)

def Shared.new : Shared := ⟨∅, fun _ => []⟩

/-- The sections under the lock of the map. -/
inductive Note
  | lookUp (tenant : String)
  | readRing (tenant : String)
  | cache (tenant : String) (shard : UInt32)
  | assign (tenant : String) (shard : UInt32)
  | remove (tenant : String)

/-- What a call of the router returns. -/
inductive Reply
  | routed (key : ShardKey) (outcome : Outcome RouteResult)
  | assigned (result : Except String Unit)
  | removed

abbrev RouterProgram := Program Shared Unit Note

namespace ShardingRouter

variable (config : ShardingConfig)

/-- The end of `route`. -/
def resolve (shardId : UInt32) (isRead : Bool) : Outcome RouteResult :=
  match config.getShard shardId with
  | none => .returned (.error ("Shard " ++ Nat.repr shardId.toNat ++ " not found"))
  | some shard =>
    if !shard.active then
      .returned (.error ("Shard " ++ Nat.repr shardId.toNat ++ " is not active"))
    else .returned (.ok ⟨shardId, shard, isRead⟩)

def finish (isRead : Bool) : Outcome UInt32 → Outcome RouteResult
  | .returned (.ok shardId) => resolve config shardId isRead
  | .returned (.error error) => .returned (.error error)
  | .panicked => .panicked

def assignShardForTenant (tenantId : String) : RouterProgram (Outcome UInt32) :=
  if config.activeShards.isEmpty then
    pure (.returned (.error "No active shards available"))
  else
    Program.query (.readRing tenantId) fun _ _ =>
      match shardOnRing (buildHashRing config) tenantId with
      | some shardId => .returned (.ok shardId)
      | none => .panicked

def routeByTenant (key : ShardKey) : RouterProgram (Outcome UInt32) :=
  match key.tenantId with
  | none => pure (.returned (.error "Tenant ID required for tenant-based sharding"))
  | some tenantId => do
      match ← Program.query (.lookUp tenantId) fun _ s => s.tenantShardMap.lookup tenantId with
      | some shardId => pure (.returned (.ok shardId))
      | none =>
        match ← assignShardForTenant config tenantId with
        | .returned (.ok shardId) =>
          Program.update (.cache tenantId shardId)
            (fun _ s => { s with tenantShardMap := s.tenantShardMap.insert tenantId shardId })
            fun _ _ => .returned (.ok shardId)
        | .returned (.error error) => pure (.returned (.error error))
        | .panicked => pure .panicked

def routeByHash (key : ShardKey) : Outcome UInt32 :=
  match key.userId with
  | none => .returned (.error "User ID required for hash-based sharding")
  | some userId =>
    match shardOnRing (buildHashRing config) userId with
    | some shardId => .returned (.ok shardId)
    | none => .panicked

/-- The remainder by the number of active shards panics if that is zero as a `u32`. -/
def routeByRange (key : ShardKey) : Outcome UInt32 :=
  match key.timestamp with
  | none => .returned (.error "Timestamp required for range-based sharding")
  | some timestamp =>
    let month := (timestamp / (30 * 24 * 60 * 60)).toUInt64.toUInt32
    let activeShards := config.activeShards
    let shardCount := UInt32.ofNat activeShards.length
    if shardCount = 0 then .panicked
    else
      match activeShards[(month % shardCount).toNat]? with
      | some shard => .returned (.ok shard.id)
      | none => .panicked

def route (key : ShardKey) (isRead : Bool) : RouterProgram Reply := do
  let found ← match config.strategy with
    | .tenantBased => routeByTenant config key
    | .hashBased => pure (routeByHash config key)
    | .rangeBased => pure (routeByRange config key)
  pure (.routed key (finish config isRead found))

def assignTenantShard (tenantId : String) (shardId : UInt32) : RouterProgram Reply :=
  match config.getShard shardId with
  | none =>
    pure (.assigned (.error ("Shard " ++ Nat.repr shardId.toNat ++ " does not exist")))
  | some _ =>
    Program.update (.assign tenantId shardId)
      (fun _ s =>
        { tenantShardMap := s.tenantShardMap.insert tenantId shardId
          overrides := Function.update s.overrides tenantId
            (some shardId :: s.overrides tenantId) })
      fun _ _ => .assigned (.ok ())

def removeTenantAssignment (tenantId : String) : RouterProgram Reply :=
  Program.update (.remove tenantId)
    (fun _ s =>
      { tenantShardMap := s.tenantShardMap.erase tenantId
        overrides := Function.update s.overrides tenantId (none :: s.overrides tenantId) })
    fun _ _ => .removed

/-- The calls of the router. -/
inductive Spawns : RouterProgram Reply → Prop
  | route (key : ShardKey) (isRead : Bool) : Spawns (route config key isRead)
  | assign (tenantId : String) (shardId : UInt32) :
      Spawns (assignTenantShard config tenantId shardId)
  | remove (tenantId : String) : Spawns (removeTenantAssignment tenantId)

end ShardingRouter

end UHorse.Storage
