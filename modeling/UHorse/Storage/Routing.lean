import UHorse.Lib.Doing
import UHorse.Lib.HashRing
import UHorse.Lib.Runs
import UHorse.Storage.TenantRoutes

/-!
# Where a router sends a key

The hash ring holds the ids of the active shards in their own order and is searched for the first
whose hash is not below the key's. It finds the successor of each key when the hashes rise with
the ids, and otherwise some shard is found for no hash at all. A route without an active shard
panics unless it is by tenant.
-/

namespace UHorse.Storage

open UHorse.Lib ShardingRouter

/-! ## The successor on the ring -/

namespace ShardingConfig

/-- `hash_key` of the id as a text. -/
def shardHash (id : UInt32) : UInt64 := hashKey (Nat.repr id.toNat)

def activeIds (config : ShardingConfig) : List UInt32 := config.activeShards.map ShardConfig.id

/-- The shard with an id is no longer active. -/
def deactivate (config : ShardingConfig) (id : UInt32) : ShardingConfig where
  strategy := config.strategy
  shards := config.shards.map fun shard =>
    if shard.id = id then { shard with active := false } else shard

/-- The shard that the ring has for the hash of a key. -/
def targetOfHash (config : ShardingConfig) (hash : UInt64) : Option UInt32 :=
  HashRing.target shardHash (buildHashRing config) hash

end ShardingConfig

open ShardingConfig

/-- The shard of a key is the ring successor of its hash. -/
def SentToSuccessor (config : ShardingConfig) (key : String) (outcome : Outcome UInt32) : Prop :=
  ∃ shard, outcome = .returned (.ok shard) ∧
    HashRing.IsSuccessor shardHash config.activeIds (hashKey key) shard

/-- Tenants and users are sent to the successors of their hashes, each active shard is the target
of some hash, and deactivating a shard changes the target of its own keys only. -/
structure SuccessorRouting (config : ShardingConfig) : Prop where
  tenants : config.activeShards ≠ [] → ∀ tenant s trace outcome t,
    (assignShardForTenant config tenant).Runs s trace outcome t →
    SentToSuccessor config tenant outcome
  users : config.activeShards ≠ [] → ∀ key user, key.userId = some user →
    SentToSuccessor config user (routeByHash config key)
  onto : ∀ shard ∈ config.activeIds, ∃ hash, config.targetOfHash hash = some shard
  stable : ∀ gone hash shard, config.targetOfHash hash = some shard → shard ≠ gone →
    (config.deactivate gone).targetOfHash hash = some shard

/-- The hashes of the active shards rise with their ids. -/
def HashesRise (config : ShardingConfig) : Prop := HashRing.Rises shardHash config.activeIds

section Ring

variable {config : ShardingConfig}

theorem mem_buildHashRing {id : UInt32} : id ∈ buildHashRing config ↔ id ∈ config.activeIds :=
  List.mem_insertionSort _

theorem ordered_buildHashRing (config : ShardingConfig) :
    (buildHashRing config).Pairwise (· ≤ ·) :=
  List.pairwise_insertionSort _ _

theorem shardOnRing_eq (config : ShardingConfig) (key : String) :
    shardOnRing (buildHashRing config) key = config.targetOfHash (hashKey key) := rfl

theorem buildHashRing_ne_nil (active : config.activeShards ≠ []) : buildHashRing config ≠ [] := by
  intro empty
  have lengths := congrArg List.length empty
  rw [buildHashRing, List.length_insertionSort, List.length_map] at lengths
  exact active (List.eq_nil_of_length_eq_zero lengths)

theorem exists_targetOfHash (active : config.activeShards ≠ []) (hash : UInt64) :
    ∃ shard, config.targetOfHash hash = some shard :=
  HashRing.exists_target (buildHashRing_ne_nil active) hash

theorem activeIds_deactivate (config : ShardingConfig) (gone : UInt32) :
    (config.deactivate gone).activeIds = config.activeIds.filter (· ≠ gone) := by
  rw [activeIds, activeIds, activeShards, activeShards, deactivate]
  dsimp only
  induction config.shards with
  | nil => rfl
  | cons shard shards ih =>
    rw [List.map_cons]
    by_cases same : shard.id = gone
    · rw [if_pos same, List.filter_cons_of_neg (by simp), ih]
      cases active : shard.active with
      | true =>
        rw [List.filter_cons_of_pos active, List.map_cons, List.filter_cons_of_neg (by simpa)]
      | false => rw [List.filter_cons_of_neg (by simp [active])]
    · rw [if_neg same]
      cases active : shard.active with
      | true =>
        rw [List.filter_cons_of_pos active, List.filter_cons_of_pos active, List.map_cons,
          List.map_cons, List.filter_cons_of_pos (by simpa), ih]
      | false => rw [List.filter_cons_of_neg (by simp [active]),
          List.filter_cons_of_neg (by simp [active]), ih]

/-- The ring without a shard is what is left of the ring. -/
theorem buildHashRing_deactivate (config : ShardingConfig) (gone : UInt32) :
    buildHashRing (config.deactivate gone) = (buildHashRing config).filter (· ≠ gone) := by
  refine List.Perm.eq_of_pairwise' (r := (· ≤ ·)) (ordered_buildHashRing _)
    ((ordered_buildHashRing config).filter _) ?_
  have same := activeIds_deactivate config gone
  have before := List.perm_insertionSort (· ≤ ·) config.activeIds
  have after := List.perm_insertionSort (· ≤ ·) (config.deactivate gone).activeIds
  have kept : (config.deactivate gone).activeIds.Perm
      ((buildHashRing config).filter fun id => decide (id ≠ gone)) :=
    same ▸ (before.filter _).symm
  exact after.trans kept

/-- Deactivating another shard changes no target. -/
theorem targetOfHash_deactivate {gone shard : UInt32} {hash : UInt64}
    (found : config.targetOfHash hash = some shard) (kept : shard ≠ gone) :
    (config.deactivate gone).targetOfHash hash = some shard := by
  rw [targetOfHash, buildHashRing_deactivate]
  exact HashRing.target_filter found (decide_eq_true kept)

/-- What holds of the ring holds of the active shards. -/
theorem isSuccessor_of_ring {hash : UInt64} {shard : UInt32}
    (successor : HashRing.IsSuccessor shardHash (buildHashRing config) hash shard) :
    HashRing.IsSuccessor shardHash config.activeIds hash shard := by
  obtain ⟨inside, least⟩ := successor
  have all : ∀ {p : UInt32 → Prop}, (∀ id ∈ buildHashRing config, p id) →
      ∀ id ∈ config.activeIds, p id :=
    fun holds id member => holds id (mem_buildHashRing.mpr member)
  exact ⟨mem_buildHashRing.mp inside,
    least.imp (fun ⟨reaches, low⟩ => ⟨reaches, all low⟩) fun ⟨below, low⟩ => ⟨all below, all low⟩⟩

theorem rises_buildHashRing :
    HashRing.Rises shardHash (buildHashRing config) ↔ HashesRise config := by
  simp only [HashRing.Rises, HashesRise, mem_buildHashRing]

/-- Where the hashes rise with the ids, the ring has the successor. -/
theorem exists_successor (rise : HashesRise config) (active : config.activeShards ≠ [])
    (key : String) :
    ∃ shard, shardOnRing (buildHashRing config) key = some shard ∧
      HashRing.IsSuccessor shardHash config.activeIds (hashKey key) shard := by
  obtain ⟨shard, found⟩ := exists_targetOfHash active (hashKey key)
  exact ⟨shard, found, isSuccessor_of_ring
    ((rises_buildHashRing.mpr rise).isSuccessor (ordered_buildHashRing config) found)⟩

/-- The ring finds the successors of all keys, and each shard for some hash, just when the hashes
of the active shards rise with their ids. -/
theorem successorRouting_iff (config : ShardingConfig) :
    SuccessorRouting config ↔ HashesRise config := by
  have onto_iff : HashRing.Rises shardHash (buildHashRing config) ↔
      ∀ shard ∈ buildHashRing config, ∃ hash, config.targetOfHash hash = some shard :=
    HashRing.rises_iff_onto (ordered_buildHashRing config)
  constructor
  · intro routing
    refine rises_buildHashRing.mp (onto_iff.mpr fun shard inside => ?_)
    exact routing.onto shard (mem_buildHashRing.mp inside)
  · intro rise
    refine ⟨?_, ?_, ?_, fun gone hash shard found kept => targetOfHash_deactivate found kept⟩
    · intro active tenant s trace outcome t runs
      rw [assignShardForTenant, if_neg (by simpa using active)] at runs
      obtain ⟨-, -, rfl, -⟩ := Program.runs_query.mp runs
      obtain ⟨shard, found, successor⟩ := exists_successor rise active tenant
      rw [found]
      exact ⟨shard, rfl, successor⟩
    · intro active key user named
      obtain ⟨shard, found, successor⟩ := exists_successor rise active user
      rw [routeByHash, named]
      dsimp only
      rw [found]
      exact ⟨shard, rfl, successor⟩
    · intro shard inside
      exact onto_iff.mp (rises_buildHashRing.mpr rise) shard (mem_buildHashRing.mpr inside)

/-- Three shards, of which the third comes before the second in the order of the hashes. -/
def threeShards (strategy : ShardingStrategy) : ShardingConfig where
  strategy := strategy
  shards := [⟨1, "sqlite://shard1.db", 1, true⟩, ⟨2, "sqlite://shard2.db", 1, true⟩,
    ⟨3, "sqlite://shard3.db", 1, true⟩]

/-- The user `3` has the hash of the third shard and is sent to the second. -/
theorem successor_missed : ¬ SuccessorRouting (threeShards .hashBased) := by
  intro routing
  obtain ⟨shard, sent, -, least⟩ :=
    routing.users (by simp [activeShards, threeShards]) (.mk none (some "3") none) "3" rfl
  have found : shardOnRing (buildHashRing (threeShards .hashBased)) "3" = some 2 := by decide
  dsimp only [routeByHash] at sent
  rw [found] at sent
  cases sent
  obtain ⟨-, low⟩ | ⟨below, -⟩ := least
  · exact absurd (low 3 (by decide) (by decide)) (by decide)
  · exact absurd (below 3 (by decide)) (by decide)

end Ring

/-! ## What a route returns -/

/-- A route returns an error, or an active shard of the configuration with the id it gives. -/
def RoutesSafely (config : ShardingConfig) : Outcome RouteResult → Prop
  | .returned (.ok result) =>
    result.shard ∈ config.shards ∧ result.shard.active = true ∧ result.shard.id = result.shardId
  | .returned (.error _) => True
  | .panicked => False

/-- The strategy does not look at the number of active shards, or finds no field in the key, or
the number is not zero, for time ranges as a `u32`. -/
def Routable (config : ShardingConfig) (key : ShardKey) : Prop :=
  match config.strategy with
  | .tenantBased => True
  | .hashBased => key.userId.isSome = true → config.activeShards ≠ []
  | .rangeBased => key.timestamp.isSome = true → UInt32.ofNat config.activeShards.length ≠ 0

section Safety

variable {config : ShardingConfig}

theorem resolve_safe (shardId : UInt32) (isRead : Bool) :
    RoutesSafely config (resolve config shardId isRead) := by
  rw [resolve]
  cases found : config.getShard shardId with
  | none => trivial
  | some shard =>
    dsimp only
    cases active : shard.active with
    | false => trivial
    | true =>
      have same := List.find?_some found
      exact ⟨List.mem_of_find?_eq_some found, active, of_decide_eq_true same⟩

theorem finish_safe {found : Outcome UInt32} (fine : found ≠ .panicked) (isRead : Bool) :
    RoutesSafely config (finish config isRead found) := by
  cases found with
  | panicked => exact absurd rfl fine
  | returned result =>
    cases result with
    | error => trivial
    | ok shardId => exact resolve_safe shardId isRead

theorem routeByHash_fine {key : ShardKey}
    (active : key.userId.isSome = true → config.activeShards ≠ []) :
    routeByHash config key ≠ .panicked := by
  rw [routeByHash]
  cases named : key.userId with
  | none => exact nofun
  | some user =>
    rw [named] at active
    obtain ⟨shard, found⟩ := exists_targetOfHash (active rfl) (hashKey user)
    dsimp only
    rw [shardOnRing_eq, found]
    exact nofun

/-- The shard of a range is within the active shards. -/
theorem routeByRange_fine {key : ShardKey}
    (active : key.timestamp.isSome = true → UInt32.ofNat config.activeShards.length ≠ 0) :
    routeByRange config key ≠ .panicked := by
  rw [routeByRange]
  cases dated : key.timestamp with
  | none => exact nofun
  | some timestamp =>
    rw [dated] at active
    dsimp only
    rw [if_neg (active rfl)]
    generalize (timestamp / (30 * 24 * 60 * 60)).toUInt64.toUInt32 = month
    have inside : (month % UInt32.ofNat config.activeShards.length).toNat <
        config.activeShards.length := by
      have positive := UInt32.pos_iff_ne_zero.mpr (active rfl)
      refine (UInt32.lt_iff_toNat_lt.mp (UInt32.mod_lt _ positive)).trans_le ?_
      rw [UInt32.toNat_ofNat']
      exact Nat.mod_le _ _
    rw [List.getElem?_eq_getElem inside]
    exact nofun

theorem assignShardForTenant_doing (tenant : String) (seen : Option Span) :
    (assignShardForTenant config tenant).Doing spans Anything seen
      fun outcome _ => outcome ≠ .panicked := by
  rw [assignShardForTenant]
  split
  · exact Program.Keeps.pure (by simp)
  · next active =>
      refine Program.Doing.update (fun _ _ => trivial) fun _ _ => ?_
      have nonempty : config.activeShards ≠ [] := by simpa using active
      obtain ⟨shard, found⟩ := exists_targetOfHash nonempty (hashKey tenant)
      rw [shardOnRing_eq, found]
      simp

theorem routeByTenant_doing (key : ShardKey) (seen : Option Span) :
    (routeByTenant config key).Doing spans Anything seen fun outcome _ => outcome ≠ .panicked := by
  rw [routeByTenant]
  cases key.tenantId with
  | none => exact Program.Keeps.pure (by simp)
  | some tenant =>
    refine Program.Keeps.bind (q := fun _ _ => True)
      (Program.Doing.update (fun _ _ => trivial) fun _ _ => trivial) ?_
    rintro (_ | shard) seen -
    · refine Program.Keeps.bind (assignShardForTenant_doing tenant seen) ?_
      rintro ((error | shard) | _) seen fine
      · exact Program.Keeps.pure (by simp)
      · exact Program.Doing.update (fun _ _ => trivial) fun _ _ => by simp
      · exact absurd rfl fine
    · exact Program.Keeps.pure (by simp)

/-- What a finished call has returned. -/
def ReturnsSafely (config : ShardingConfig) : Reply → Option Span → Prop
  | .routed key outcome, _ => Routable config key → RoutesSafely config outcome
  | .assigned _, _ | .removed, _ => True

theorem route_doing (key : ShardKey) (isRead : Bool) (seen : Option Span) :
    (route config key isRead).Doing spans Anything seen (ReturnsSafely config) := by
  rw [route]
  have settled : ∀ found, (Routable config key → found ≠ .panicked) → ∀ seen : Option Span,
      ReturnsSafely config (.routed key (finish config isRead found)) seen :=
    fun found fine _ routable => finish_safe (fine routable) isRead
  cases strategy : config.strategy with
  | tenantBased =>
    refine Program.Keeps.bind (routeByTenant_doing key seen) fun found after fine => ?_
    exact Program.Keeps.pure (settled found (fun _ => fine) after)
  | hashBased =>
    refine Program.Keeps.pure (settled (routeByHash config key) (fun routable => ?_) seen)
    rw [Routable, strategy] at routable
    exact routeByHash_fine routable
  | rangeBased =>
    refine Program.Keeps.pure (settled (routeByRange config key) (fun routable => ?_) seen)
    rw [Routable, strategy] at routable
    exact routeByRange_fine routable

theorem spawned_doing {program : RouterProgram Reply} (spawns : Spawns config program) :
    program.Doing spans Anything spans.start (ReturnsSafely config) := by
  cases spawns with
  | route key isRead => exact route_doing key isRead _
  | assign tenant shard =>
    rw [assignTenantShard]
    cases config.getShard shard with
    | none => exact Program.Keeps.pure trivial
    | some => exact Program.Doing.update (fun _ _ => trivial) fun _ _ => trivial
  | remove tenant => exact Program.Doing.update (fun _ _ => trivial) fun _ _ => trivial

/-- Without a number of active shards that it can use, a route panics at once. -/
theorem route_panics {key : ShardKey} (stuck : ¬ Routable config key) (isRead : Bool) :
    route config key isRead = .done (.routed key .panicked) := by
  rw [Routable] at stuck
  rw [route]
  cases strategy : config.strategy with
  | tenantBased => simp [strategy] at stuck
  | hashBased =>
    simp only [strategy, Classical.not_imp, not_not] at stuck
    obtain ⟨named, nobody⟩ := stuck
    obtain ⟨user, named⟩ := Option.isSome_iff_exists.mp named
    have ring : buildHashRing config = [] := by rw [buildHashRing, nobody]; rfl
    have panics : routeByHash config key = .panicked := by
      rw [routeByHash, named, ring]
      rfl
    dsimp only
    rw [panics]
    rfl
  | rangeBased =>
    simp only [strategy, Classical.not_imp, not_not] at stuck
    obtain ⟨dated, nobody⟩ := stuck
    obtain ⟨timestamp, dated⟩ := Option.isSome_iff_exists.mp dated
    have panics : routeByRange config key = .panicked := by
      rw [routeByRange, dated]
      dsimp only
      rw [if_pos nobody]
    dsimp only
    rw [panics]
    rfl

/-- After every history of calls a route for the key returns an error or an active shard of the
configuration, just when its strategy can do with the number of active shards. -/
theorem routes_safely_iff (config : ShardingConfig) (key : ShardKey) :
    (∀ s, (routerSystem config).Reachable s →
      ∀ outcome seen, ⟨.done (.routed key outcome), seen⟩ ∈ s.threads →
        RoutesSafely config outcome) ↔ Routable config key := by
  constructor
  · intro safe
    by_contra stuck
    have start : (routerSystem config).Init ⟨.new, []⟩ := ⟨rfl, rfl⟩
    have spawned := (System.Reachable.init start).step
      (.spawn _ _ (.route key false) : (routerSystem config).Step _ (.spawn _) _)
    refine safe _ spawned .panicked none ?_
    rw [route_panics stuck]
    exact List.mem_singleton_self _
  · intro routable s reached outcome seen inside
    have ending : s.Ending spans Anything (ReturnsSafely config) :=
      Pool.ending_of_reachable (fun _ spawns => spawned_doing spawns) reached
    exact ending _ inside routable

/-- By hash, without an active shard. -/
theorem route_unsafe :
    ¬ ∀ config key s, (routerSystem config).Reachable s →
      ∀ outcome seen, ⟨.done (.routed key outcome), seen⟩ ∈ s.threads →
        RoutesSafely config outcome := by
  intro safe
  have start : (routerSystem ⟨.hashBased, []⟩).Init ⟨.new, []⟩ := ⟨rfl, rfl⟩
  have spawned := (System.Reachable.init start).step
    (.spawn _ _ (.route ⟨none, some "user-123", none⟩ false) :
      (routerSystem ⟨.hashBased, []⟩).Step _ (.spawn _) _)
  exact safe _ _ _ spawned .panicked none (List.mem_singleton_self _)

end Safety

end UHorse.Storage
