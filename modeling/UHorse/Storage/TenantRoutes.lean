import UHorse.Lib.Sharing
import UHorse.Storage.ShardingRouter

/-!
# A tenant on one shard

A route that computes a shard enters it into the map whatever has come there meanwhile. As
long as no route does so over another assignment, and tenants are assigned to active shards
only, the map has for each tenant what was assigned last, or else nothing or what every route
computes; so the outcome of a route depends on nothing but the assignments made before it.
-/

namespace UHorse.Storage

open UHorse.Lib

/-- The assignments and removals of a tenant when a route for it began and when it last acted. -/
structure Span where
  began : List (Option UInt32)
  acted : List (Option UInt32)
deriving DecidableEq

/-- What is remembered of a route. -/
def spans : Observer Shared Unit Note (Option Span) where
  start := none
  see seen note _ s :=
    match note with
    | .lookUp tenant => some ⟨s.overrides tenant, s.overrides tenant⟩
    | .readRing tenant | .cache tenant _ =>
      seen.map fun span => { span with acted := s.overrides tenant }
    | .assign _ _ | .remove _ => seen

abbrev RouterPool := Pool Shared Unit Note Reply (Option Span)

def routerSystem (config : ShardingConfig) : System RouterPool (PoolLabel Shared Unit Note Reply) :=
  Pool.system spans (ShardingRouter.Spawns config) (fun _ _ => False) fun s => s = .new

def Outcome.shardId? : Outcome RouteResult → Option UInt32
  | .returned (.ok result) => some result.shardId
  | .returned (.error _) | .panicked => none

/-- A call of `route` for a tenant that has ended. -/
structure Ended (s : RouterPool) (tenant : String) (span : Span) (outcome : Outcome RouteResult) :
    Prop where
  ended : ∃ key : ShardKey, key.tenantId = some tenant ∧
    ⟨.done (.routed key outcome), some span⟩ ∈ s.threads

/-- Routes of a tenant return the shard assigned last, and routes with no assignment or removal
between them the same shard. -/
structure OneShard (s : RouterPool) : Prop where
  assigned : ∀ tenant span outcome shard earlier, Ended s tenant span outcome →
    span.began = some shard :: earlier → outcome.shardId? = some shard
  agree : ∀ tenant span outcome span' outcome', Ended s tenant span outcome →
    Ended s tenant span' outcome' → span.began = span'.began ∨ span.acted = span'.began →
    outcome.shardId? = outcome'.shardId?

/-! ## The condition on the steps -/

/-- A computed shard is entered where there is no other, and an assigned shard is active. -/
def Undisturbed (config : ShardingConfig) (s : Shared) : Note → Prop
  | .cache tenant shard =>
    s.tenantShardMap.lookup tenant = none ∨ s.tenantShardMap.lookup tenant = some shard
  | .assign _ shard => ∃ entry, config.getShard shard = some entry ∧ entry.active = true
  | .lookUp _ | .readRing _ | .remove _ => True

/-- The next action of the thread that moves is undisturbed. -/
def Admitted (config : ShardingConfig) (s : RouterPool) : PoolLabel Shared Unit Note Reply → Prop
  | .run index _ => ∀ note ready act next seen,
      s.threads[index]? = some ⟨.act note ready act next, seen⟩ → Undisturbed config s.shared note
  | .spawn _ | .background _ => True

/-! ## What routes find -/

/-- The shard of a tenant for which these assignments and removals were made. -/
def shardFor (config : ShardingConfig) (tenant : String) : List (Option UInt32) → Option UInt32
  | some shard :: _ => some shard
  | _ => if config.activeShards.isEmpty then none else shardOnRing (buildHashRing config) tenant

/-- The map has what was assigned last, or else nothing or what routes compute; what was
assigned is active. -/
structure Consistent (config : ShardingConfig) (s : Shared) : Prop where
  assigned : ∀ tenant shard earlier, s.overrides tenant = some shard :: earlier →
    s.tenantShardMap.lookup tenant = some shard
  cached : ∀ tenant shard, s.tenantShardMap.lookup tenant = some shard →
    shardFor config tenant (s.overrides tenant) = some shard
  active : ∀ tenant shard, some shard ∈ s.overrides tenant →
    ∃ entry, config.getShard shard = some entry ∧ entry.active = true

section

variable {config : ShardingConfig} {s : Shared}

theorem Consistent.new (config : ShardingConfig) : Consistent config .new where
  assigned tenant shard earlier same := by cases same
  cached tenant shard found := by
    rw [Shared.new, Finmap.lookup_empty] at found
    cases found
  active tenant shard member := absurd member List.not_mem_nil

theorem Consistent.lookup_none (consistent : Consistent config s) {tenant : String}
    (missing : s.tenantShardMap.lookup tenant = none) (shard : UInt32)
    (earlier : List (Option UInt32)) : s.overrides tenant ≠ some shard :: earlier := by
  intro same
  rw [consistent.assigned tenant shard earlier same] at missing
  cases missing

/-- The shard that every route computes. -/
def computed (config : ShardingConfig) (tenant : String) : Option UInt32 :=
  shardFor config tenant []

theorem shardFor_of_ne {tenant : String} {history : List (Option UInt32)}
    (unassigned : ∀ shard earlier, history ≠ some shard :: earlier) :
    shardFor config tenant history = computed config tenant := by
  match history with
  | [] => rfl
  | none :: _ => rfl
  | some shard :: earlier => exact absurd rfl (unassigned shard earlier)

theorem Consistent.cache (consistent : Consistent config s) {tenant : String} {shard : UInt32}
    (fits : Undisturbed config s (.cache tenant shard))
    (same : computed config tenant = some shard) :
    Consistent config { s with tenantShardMap := s.tenantShardMap.insert tenant shard } ∧
      shardFor config tenant (s.overrides tenant) = some shard := by
  have found : shardFor config tenant (s.overrides tenant) = some shard := by
    obtain missing | there := fits
    · rw [shardFor_of_ne (consistent.lookup_none missing), same]
    · exact consistent.cached tenant shard there
  refine ⟨⟨?_, ?_, consistent.active⟩, found⟩
  · intro other assigned earlier history
    rw [HashMap.lookup_insert_ite]
    split
    · next here =>
        subst here
        have last : shardFor config other (s.overrides other) = some assigned := by
          rw [history]
          rfl
        exact found.symm.trans last
    · exact consistent.assigned other assigned earlier history
  · intro other entry lookup
    rw [HashMap.lookup_insert_ite] at lookup
    split at lookup
    · next here =>
        cases lookup
        rw [here]
        exact found
    · exact consistent.cached other entry lookup

theorem Consistent.assign (consistent : Consistent config s) {tenant : String} {shard : UInt32}
    (fits : Undisturbed config s (.assign tenant shard)) :
    Consistent config
      { tenantShardMap := s.tenantShardMap.insert tenant shard
        overrides := Function.update s.overrides tenant (some shard :: s.overrides tenant) } := by
  refine ⟨fun other assigned earlier history => ?_, fun other entry lookup => ?_,
    fun other assigned member => ?_⟩
  · simp only [Function.update_apply, HashMap.lookup_insert_ite] at history ⊢
    split at history
    · next here =>
        cases history
        rw [if_pos here]
    · next elsewhere =>
        rw [if_neg elsewhere]
        exact consistent.assigned other assigned earlier history
  · simp only [Function.update_apply, HashMap.lookup_insert_ite] at lookup ⊢
    split at lookup
    · next here =>
        rw [if_pos here]
        exact lookup
    · next elsewhere =>
        rw [if_neg elsewhere]
        exact consistent.cached other entry lookup
  · simp only [Function.update_apply] at member
    split at member
    · obtain same | old := List.mem_cons.mp member
      · cases same
        exact fits
      · exact consistent.active tenant assigned old
    · exact consistent.active other assigned member

theorem Consistent.remove (consistent : Consistent config s) (tenant : String) :
    Consistent config
      { tenantShardMap := s.tenantShardMap.erase tenant
        overrides := Function.update s.overrides tenant (none :: s.overrides tenant) } := by
  refine ⟨fun other assigned earlier history => ?_, fun other entry lookup => ?_,
    fun other assigned member => ?_⟩
  · simp only [Function.update_apply, HashMap.lookup_erase_ite] at history ⊢
    split at history
    · cases history
    · next elsewhere =>
        rw [if_neg elsewhere]
        exact consistent.assigned other assigned earlier history
  · simp only [Function.update_apply, HashMap.lookup_erase_ite] at lookup ⊢
    split at lookup
    · cases lookup
    · next elsewhere =>
        rw [if_neg elsewhere]
        exact consistent.cached other entry lookup
  · simp only [Function.update_apply] at member
    split at member
    · obtain same | old := List.mem_cons.mp member
      · cases same
      · exact consistent.active tenant assigned old
    · exact consistent.active other assigned member

end

/-! ## What a route finds -/

namespace ShardingRouter

variable {config : ShardingConfig}

/-- Of a ring that is not empty there is a first shard. -/
theorem exists_shardOnRing (some_ : config.activeShards.isEmpty = false) (key : String) :
    ∃ shard, shardOnRing (buildHashRing config) key = some shard := by
  have ring : buildHashRing config ≠ [] := by
    intro empty
    have lengths := congrArg List.length empty
    rw [buildHashRing, List.length_insertionSort, List.length_map] at lengths
    rw [List.isEmpty_eq_false_iff] at some_
    exact some_ (List.eq_nil_of_length_eq_zero lengths)
  obtain ⟨first, rest, whole⟩ := List.exists_cons_of_ne_nil ring
  rw [shardOnRing, whole, List.head?_cons]
  cases (first :: rest).find? fun id => hashKey key ≤ hashKey (Nat.repr id.toNat) with
  | none => exact ⟨first, rfl⟩
  | some shard => exact ⟨shard, rfl⟩

def id? : Outcome UInt32 → Option UInt32
  | .returned (.ok shard) => some shard
  | .returned (.error _) | .panicked => none

/-- What was assigned last is active. -/
def LastActive (config : ShardingConfig) (history : List (Option UInt32)) : Prop :=
  ∀ shard earlier, history = some shard :: earlier →
    ∃ entry, config.getShard shard = some entry ∧ entry.active = true

/-- A route that has seen this much finds the shard of its tenant, both for the assignments made
before it began and for those made before it acted last. -/
structure Found (config : ShardingConfig) (tenant : String) (seen : Option Span)
    (found : Option UInt32) (span : Span) : Prop where
  seen_eq : seen = some span
  began : shardFor config tenant span.began = found
  acted : shardFor config tenant span.acted = found
  active : LastActive config span.began

theorem lastActive_overrides {s : Shared} (consistent : Consistent config s) (tenant : String) :
    LastActive config (s.overrides tenant) := by
  intro shard earlier same
  exact consistent.active tenant shard (by rw [same]; exact List.mem_cons_self)

/-- What is promised of the actions of a thread. -/
abbrev Fits (config : ShardingConfig) : Option Span → Note → Unit → Shared → Prop :=
  fun _ note _ s => Undisturbed config s note

theorem assignShardForTenant_sharing (tenant : String) (span : Span)
    (miss : shardFor config tenant span.began = computed config tenant)
    (same : span.acted = span.began) (active : LastActive config span.began) :
    (assignShardForTenant config tenant).Sharing spans (Consistent config) (Fits config) (some span)
      fun found seen => (∃ error, found = .returned (.error error) ∧
          ∃ span, Found config tenant seen none span) ∨
        ∃ shard span, found = .returned (.ok shard) ∧ seen = some span ∧
          computed config tenant = some shard ∧
          shardFor config tenant span.began = some shard ∧ LastActive config span.began := by
  rw [assignShardForTenant]
  split
  · next empty =>
      have nothing : computed config tenant = none := if_pos empty
      refine Program.Keeps.pure (.inl ⟨_, rfl, span, rfl, ?_, ?_, active⟩)
      · rw [miss, nothing]
      · rw [same, miss, nothing]
  · next some_ =>
      obtain ⟨shard, first⟩ := exists_shardOnRing (Bool.not_eq_true _ ▸ some_) tenant
      have value : computed config tenant = some shard := (if_neg some_).trans first
      refine Program.Sharing.query fun _ s _ _ => .inr ⟨shard, _, ?_, rfl, value, ?_, active⟩
      · rw [first]
      · exact miss.trans value

theorem routeByTenant_sharing (key : ShardKey) :
    (routeByTenant config key).Sharing spans (Consistent config) (Fits config) none
      fun found seen => ∀ tenant, key.tenantId = some tenant →
        ∃ span, Found config tenant seen (id? found) span := by
  rw [routeByTenant]
  cases key.tenantId with
  | none => exact Program.Keeps.pure nofun
  | some tenant =>
    refine Program.Keeps.bind (q := fun value seen => ∃ history,
      seen = some ⟨history, history⟩ ∧ LastActive config history ∧
        (∀ shard, value = some shard → shardFor config tenant history = some shard) ∧
        (value = none → shardFor config tenant history = computed config tenant)) ?_ ?_
    · refine Program.Sharing.query fun _ s consistent _ => ?_
      refine ⟨s.overrides tenant, rfl, lastActive_overrides consistent tenant, ?_, ?_⟩
      · exact fun shard found => consistent.cached tenant shard found
      · exact fun missing => shardFor_of_ne (consistent.lookup_none missing)
    · rintro value _ ⟨history, rfl, active, hit, miss⟩
      cases value with
      | some shard =>
        refine Program.Keeps.pure ?_
        rintro _ ⟨⟩
        exact ⟨⟨history, history⟩, rfl, hit shard rfl, hit shard rfl, active⟩
      | none =>
        refine Program.Keeps.bind (assignShardForTenant_sharing tenant ⟨history, history⟩
          (miss rfl) rfl active) ?_
        rintro found seen (⟨error, rfl, span, located⟩ | ⟨shard, span, rfl, rfl, value, rest⟩)
        · refine Program.Keeps.pure ?_
          rintro _ ⟨⟩
          exact ⟨span, located⟩
        · refine Program.Sharing.update ?_ ?_
          · exact fun _ s consistent fits => (consistent.cache fits value).1
          · rintro _ s consistent fits _ ⟨⟩
            exact ⟨_, rfl, rest.1, (consistent.cache fits value).2, rest.2⟩

/-! ## What a route returns -/

theorem shardId?_resolve (shard : UInt32) (isRead : Bool) :
    (resolve config shard isRead).shardId? =
      if (config.getShard shard).any ShardConfig.active then some shard else none := by
  rw [resolve]
  cases config.getShard shard with
  | none => rfl
  | some entry => cases active : entry.active <;> simp [Outcome.shardId?, active]

theorem shardId?_finish (isRead : Bool) (found : Outcome UInt32) :
    (finish config isRead found).shardId? = (id? found).bind fun shard =>
      if (config.getShard shard).any ShardConfig.active then some shard else none := by
  match found with
  | .returned (.ok shard) => exact shardId?_resolve shard isRead
  | .returned (.error _) => rfl
  | .panicked => rfl

/-- What a finished route tells of its tenant. -/
def Located (config : ShardingConfig) (reply : Reply) (seen : Option Span) : Prop :=
  ∀ key outcome, reply = .routed key outcome → ∀ tenant, key.tenantId = some tenant →
    ∃ found span, Found config tenant seen found span ∧
      outcome.shardId? = found.bind fun shard =>
        if (config.getShard shard).any ShardConfig.active then some shard else none

theorem route_sharing (tenantBased : config.strategy = .tenantBased) (key : ShardKey)
    (isRead : Bool) : (route config key isRead).Sharing spans (Consistent config) (Fits config) none
      (Located config) := by
  rw [route]
  rw [tenantBased]
  refine Program.Keeps.bind (routeByTenant_sharing key) fun found seen located => ?_
  refine Program.Keeps.pure ?_
  rintro _ _ ⟨⟩ tenant named
  obtain ⟨span, whole⟩ := located tenant named
  exact ⟨_, span, whole, shardId?_finish isRead found⟩

theorem spawns_sharing (tenantBased : config.strategy = .tenantBased)
    {program : RouterProgram Reply} (spawns : Spawns config program) :
    program.Sharing spans (Consistent config) (Fits config) none (Located config) := by
  cases spawns with
  | route key isRead => exact route_sharing tenantBased key isRead
  | assign tenant shard =>
    rw [assignTenantShard]
    cases config.getShard shard with
    | none => exact Program.Keeps.pure nofun
    | some entry =>
      refine Program.Sharing.update ?_ fun _ _ _ _ => nofun
      exact fun _ s consistent fits => consistent.assign fits
  | remove tenant =>
    refine Program.Sharing.update ?_ fun _ _ _ _ => nofun
    exact fun _ s consistent _ => consistent.remove tenant

end ShardingRouter

open ShardingRouter

/-- Along every interleaving in which computed shards are entered where there is no other, and
active ones assigned, tenants live on one shard. -/
theorem tenants_on_one_shard (config : ShardingConfig)
    (tenantBased : config.strategy = .tenantBased) (s : RouterPool)
    (reached : ((routerSystem config).restrict (Admitted config)).Reachable s) : OneShard s := by
  have sharing : s.Sharing spans (Consistent config) (Fits config) (Located config) := by
    refine Pool.sharing_of_reachable ?_ ?_ ?_ ?_ reached
    · rintro _ rfl
      exact .new config
    · exact fun _ _ _ => False.elim
    · exact fun program spawns => spawns_sharing tenantBased spawns
    · intro s index input note ready act next seen here met
      exact met note ready act next seen here
  have located : ∀ {tenant span outcome}, Ended s tenant span outcome →
      ∃ found, Found config tenant (some span) found span ∧
        outcome.shardId? = found.bind fun shard =>
          if (config.getShard shard).any ShardConfig.active then some shard else none := by
    rintro tenant span outcome ⟨key, named, member⟩
    obtain ⟨found, other, whole, value⟩ := sharing.finished member key outcome rfl tenant named
    obtain rfl := Option.some.inj whole.seen_eq
    exact ⟨found, whole, value⟩
  constructor
  · intro tenant span outcome shard earlier ended began
    obtain ⟨found, whole, value⟩ := located ended
    have here := whole.began
    rw [began] at here
    obtain ⟨entry, there, active⟩ := whole.active shard earlier began
    rw [value, ← here]
    simp [shardFor, there, active]
  · intro tenant span outcome span' outcome' ended ended' between
    obtain ⟨found, whole, value⟩ := located ended
    obtain ⟨found', whole', value'⟩ := located ended'
    have same : found = found' := by
      obtain began | acted := between
      · rw [← whole.began, began, whole'.began]
      · rw [← whole.acted, acted, whole'.began]
    rw [value, value', same]

/-! ## Running some calls -/

def sampleShard (id : UInt32) (active : Bool) : ShardConfig := ⟨id, "sqlite://shard.db", 1, active⟩

/-- Two active shards and one that is not. -/
def sampleConfig : ShardingConfig where
  strategy := .tenantBased
  shards := [sampleShard 1 true, sampleShard 2 true, sampleShard 3 false]

/-- A tenant is routed, assigned to the second and to the third shard, and routed. -/
def samplePool : RouterPool where
  shared := .new
  threads :=
    [route sampleConfig (.fromTenant "tenant-001") false,
      assignTenantShard sampleConfig "tenant-001" 2, assignTenantShard sampleConfig "tenant-001" 3,
      route sampleConfig (.fromTenant "tenant-001") true].map (⟨·, none⟩)

/-- Whether an action is undisturbed. -/
def admits (s : RouterPool) (note : Note) (_ : Unit) : Bool :=
  match note with
  | .cache tenant shard =>
    s.shared.tenantShardMap.lookup tenant = none ∨
      s.shared.tenantShardMap.lookup tenant = some shard
  | .assign _ shard => (sampleConfig.getShard shard).any ShardConfig.active
  | .lookUp _ | .readRing _ | .remove _ => true

theorem admitted_of_admits (s : RouterPool) (index : Nat) (input : Unit)
    (passed : Pool.noteCheck id admits s index input = true) :
    Admitted sampleConfig s (.run index input) := by
  intro note ready act next seen here
  have admitted := Pool.admits_of_noteCheck passed here
  cases note with
  | cache tenant shard => simpa [admits, Undisturbed] using admitted
  | assign tenant shard => simpa [admits, Undisturbed, Option.any_eq_true] using admitted
  | lookUp | readRing | remove => exact trivial

/-- The tenant, the shard and the span of a finished route. -/
def ended? (s : RouterPool) (index : Nat) : Option (Option String × Option UInt32 × Option Span) :=
  match s.threads[index]? with
  | some ⟨.done (.routed key outcome), seen⟩ => some (key.tenantId, outcome.shardId?, seen)
  | _ => none

theorem exists_ended {s : RouterPool} {index : Nat} {tenant : String} {shard : Option UInt32}
    {span : Span} (found : ended? s index = some (some tenant, shard, some span)) :
    ∃ outcome, Ended s tenant span outcome ∧ outcome.shardId? = shard := by
  rw [ended?] at found
  split at found
  · next key outcome seen here =>
      have parts := Option.some.inj found
      rw [Prod.mk.injEq, Prod.mk.injEq] at parts
      obtain ⟨named, value, rfl⟩ := parts
      exact ⟨outcome, ⟨key, named, List.mem_of_getElem? here⟩, value⟩
  · cases found

/-- The calls of the sample. -/
def sampleScript : List (Pool.Move (Spawns sampleConfig) fun _ _ => False) :=
  [.spawn _ (.route (.fromTenant "tenant-001") false), .spawn _ (.assign "tenant-001" 2),
    .spawn _ (.assign "tenant-001" 3), .spawn _ (.route (.fromTenant "tenant-001") true)]

def routerPlayer : (routerSystem sampleConfig).Player
    (Pool.Move (Spawns sampleConfig) fun _ _ => False) :=
  Pool.player spans (Spawns sampleConfig) (fun _ _ => False) fun s => s = .new

theorem tenants_on_one_shard_sample :
    sampleConfig.strategy = .tenantBased ∧ ∃ s,
      ((routerSystem sampleConfig).restrict (Admitted sampleConfig)).Reachable s ∧
        ended? s 3 = some (some "tenant-001", some 2, some ⟨[some 2], [some 2]⟩) ∧ OneShard s := by
  obtain ⟨s, reached, ended⟩ := (Pool.checked routerPlayer _ admitted_of_admits
    (fun _ _ => trivial) fun _ _ => trivial).exists_reachable (s := ⟨.new, []⟩) (.init ⟨rfl, rfl⟩)
    (sampleScript ++ Pool.running [(1, ()), (3, ())])
    (ended? · 3 = some (some "tenant-001", some 2, some ⟨[some 2], [some 2]⟩)) (by decide)
  exact ⟨rfl, s, reached, ended, tenants_on_one_shard sampleConfig rfl s reached⟩

/-- What the last route of the sample found when the threads act in this order. -/
def lastRoute (order : List Nat) : Option (Option (Option String × Option UInt32 × Option Span)) :=
  (Pool.runAll spans (fun _ _ _ => true) samplePool (order.map (·, ()))).map (ended? · 3)

/-- An assignment between the computation of a route and its entry is lost; and a tenant that was
assigned to an inactive shard is not routed. -/
theorem tenant_off_its_shard :
    (∃ s, (routerSystem sampleConfig).Reachable s ∧ ¬ OneShard s) ∧
      lastRoute [0, 0, 1, 0, 3] =
        some (some (some "tenant-001", some 1, some ⟨[some 2], [some 2]⟩)) ∧
      lastRoute [2, 3] = some (some (some "tenant-001", none, some ⟨[some 3], [some 3]⟩)) := by
  refine ⟨?_, by decide, by decide⟩
  obtain ⟨s, reached, last⟩ := routerPlayer.exists_reachable (s := ⟨.new, []⟩) (.init ⟨rfl, rfl⟩)
    (sampleScript ++ Pool.running ([0, 0, 1, 0, 3].map (·, ())))
    (ended? · 3 = some (some "tenant-001", some 1, some ⟨[some 2], [some 2]⟩)) (by decide)
  obtain ⟨outcome, ended, value⟩ := exists_ended last
  refine ⟨s, reached, fun one => absurd (one.assigned _ _ outcome 2 [] ended rfl) ?_⟩
  rw [value]
  decide

end UHorse.Storage
