import Mathlib.Algebra.Ring.Nat
import Mathlib.Data.List.Basic
import UHorse.Lib.Numerals

/-!
# Replicas that serve reads

The manager keeps the replicas of all shards in one list and looks a replica up by its id. A read
goes to a replica of the shard that is healthy and not too far behind, at random with a weight that
falls with the latency that was measured.

Lags are only compared, so their type is a parameter.
-/

namespace UHorse.Storage

structure ReplicaConfig where
  shardId : UInt32
  replicaId : UInt32
  dsn : String
  readOnly : Bool := true
deriving DecidableEq

structure ReplicaStats where
  queriesServed : UInt64 := 0
  queriesFailed : UInt64 := 0
  avgLatencyUs : UInt64 := 0
  lastHealthCheck : UInt64 := 0
deriving DecidableEq

inductive ReplicaState
  | healthy
  | lagging
  | unhealthy
  | disconnected
deriving DecidableEq

structure ReplicaInfo (Lag : Type) where
  config : ReplicaConfig
  state : ReplicaState
  stats : ReplicaStats
  lagSeconds : Lag

structure ReplicaManager (Lag : Type) where
  replicas : List (ReplicaInfo Lag)
  maxLagSeconds : Lag

section Lag

variable {Lag : Type} [Zero Lag] [LE Lag] [DecidableLE Lag] [LT Lag] [DecidableLT Lag]

/-! ## Selection -/

namespace ReplicaInfo

/-- A replica that may serve a read of the shard. -/
def Serves (maxLag : Lag) (shardId : UInt32) (replica : ReplicaInfo Lag) : Prop :=
  replica.config.shardId = shardId ∧ replica.config.readOnly = true ∧
    replica.state = .healthy ∧ replica.lagSeconds ≤ maxLag

instance (maxLag : Lag) (shardId : UInt32) (replica : ReplicaInfo Lag) :
    Decidable (replica.Serves maxLag shardId) := by
  unfold Serves
  infer_instance

/-- Higher weight for lower latency. -/
def weight (replica : ReplicaInfo Lag) : Nat := 1000000 / (max replica.stats.avgLatencyUs 1).toNat

end ReplicaInfo

/-- The time since the epoch; `none` is the panic on a clock before it. -/
def sinceEpoch (clock : Int) : Option Nat := if 0 ≤ clock then some clock.toNat else none

/-- The loop over the weights, which subtracts each one it passes. -/
def passWeights (random : Nat) : List (ReplicaInfo Lag × Nat) → Option (ReplicaInfo Lag × Nat)
  | [] => none
  | candidate :: rest =>
    if random < candidate.1.weight then some candidate
    else passWeights (random - candidate.1.weight) rest

/-- `none` is a panic, or a sum that does not fit into a word. -/
def weightedSelect (candidates : List (ReplicaInfo Lag × Nat)) (clock : Int) :
    Option (ReplicaInfo Lag × Nat) :=
  if candidates.length = 1 then candidates.head?
  else
    let totalWeight := (candidates.map fun candidate => candidate.1.weight).sum
    if totalWeight < UInt64.size then
      (sinceEpoch clock).bind fun nanos =>
        if totalWeight = 0 then none
        else (passWeights (nanos % UInt64.size % totalWeight) candidates).or candidates.head?
    else none

namespace ReplicaManager

def new (configs : List ReplicaConfig) (maxLagSeconds : Lag) : ReplicaManager Lag where
  replicas := configs.map fun config => ⟨config, .healthy, {}, 0⟩
  maxLagSeconds := maxLagSeconds

/-- The replicas that may serve the read, with their places. -/
def healthyReplicas (manager : ReplicaManager Lag) (shardId : UInt32) :
    List (ReplicaInfo Lag × Nat) :=
  manager.replicas.zipIdx.filter fun candidate =>
    candidate.1.Serves manager.maxLagSeconds shardId

/-- The replica that is selected, and the manager behind the call. -/
def selectReplica (manager : ReplicaManager Lag) (shardId : UInt32) (clock : Int) :
    Option (Option ReplicaConfig × ReplicaManager Lag) :=
  if manager.healthyReplicas shardId = [] then some (none, manager)
  else
    (weightedSelect (manager.healthyReplicas shardId) clock).map fun selected =>
      (some selected.1.config,
        { manager with
          replicas := manager.replicas.modify selected.2 fun replica =>
            { replica with
              stats.queriesServed := replica.stats.queriesServed + 1 } })

/-! ## Updates -/

/-- The place of the first replica with the id, behind the list if there is none. -/
def position (manager : ReplicaManager Lag) (replicaId : UInt32) : Nat :=
  manager.replicas.findIdx fun replica => replica.config.replicaId = replicaId

def newState (manager : ReplicaManager Lag) (lagSeconds : Lag) (isHealthy : Bool) : ReplicaState :=
  if isHealthy = false then .unhealthy
  else if manager.maxLagSeconds < lagSeconds then .lagging
  else .healthy

/-- On a clock before the epoch the call panics where it would store the time. -/
def updateHealth (manager : ReplicaManager Lag) (replicaId : UInt32) (lagSeconds : Lag)
    (isHealthy : Bool) (clock : Int) : ReplicaManager Lag :=
  { manager with
    replicas := manager.replicas.modify (manager.position replicaId) fun replica =>
      { replica with
        lagSeconds := lagSeconds
        state := manager.newState lagSeconds isHealthy
        stats.lastHealthCheck :=
          match sinceEpoch clock with
          | some nanos => .ofNat (nanos / 1000000000)
          | none => replica.stats.lastHealthCheck } }

end ReplicaManager

/-- A simple moving average; `none` is the panic on an overflow, where it is checked. -/
def newAverage (overflowChecks : Bool) (current latencyUs : UInt64) : Option UInt64 :=
  if current = 0 then some latencyUs
  else if overflowChecks = true ∧ UInt64.size ≤ current.toNat * 9 + latencyUs.toNat then none
  else some ((current * 9 + latencyUs) / 10)

def ReplicaStats.record (stats : ReplicaStats) (overflowChecks success : Bool)
    (latencyUs : UInt64) : ReplicaStats where
  queriesServed := if success then stats.queriesServed + 1 else stats.queriesServed
  queriesFailed := if success then stats.queriesFailed else stats.queriesFailed + 1
  avgLatencyUs := (newAverage overflowChecks stats.avgLatencyUs latencyUs).getD stats.avgLatencyUs
  lastHealthCheck := stats.lastHealthCheck

def ReplicaManager.recordQuery (manager : ReplicaManager Lag) (overflowChecks : Bool)
    (replicaId : UInt32) (success : Bool) (latencyUs : UInt64) : ReplicaManager Lag :=
  { manager with
    replicas := manager.replicas.modify (manager.position replicaId) fun replica =>
      { replica with stats := replica.stats.record overflowChecks success latencyUs } }

/-! ## Runs -/

inductive ReplicaCall (Lag : Type)
  | select (shardId : UInt32) (clock : Int)
  | updateHealth (replicaId : UInt32) (lagSeconds : Lag) (isHealthy : Bool) (clock : Int)
  | recordQuery (replicaId : UInt32) (success : Bool) (latencyUs : UInt64)

namespace ReplicaManager

/-- The manager behind a call, also behind one that panics. -/
def after (overflowChecks : Bool) (manager : ReplicaManager Lag) :
    ReplicaCall Lag → ReplicaManager Lag
  | .select shardId clock => ((manager.selectReplica shardId clock).map Prod.snd).getD manager
  | .updateHealth replicaId lagSeconds isHealthy clock =>
    manager.updateHealth replicaId lagSeconds isHealthy clock
  | .recordQuery replicaId success latencyUs =>
    manager.recordQuery overflowChecks replicaId success latencyUs

/-- The selection does not panic, and it returns a replica that serves the shard unless there is
none. -/
structure SelectsWell (manager : ReplicaManager Lag) (shardId : UInt32) (clock : Int)
    (chosen : Option ReplicaConfig) : Prop where
  returned : ∃ later, manager.selectReplica shardId clock = some (chosen, later)
  none_iff : chosen = none ↔
    ∀ replica ∈ manager.replicas, ¬ replica.Serves manager.maxLagSeconds shardId
  serves : ∀ config, chosen = some config → ∃ replica ∈ manager.replicas,
    replica.config = config ∧ replica.Serves manager.maxLagSeconds shardId

/-- The replicas that serve the shard. -/
def serving (manager : ReplicaManager Lag) (shardId : UInt32) : List (ReplicaInfo Lag) :=
  manager.replicas.filter fun replica => replica.Serves manager.maxLagSeconds shardId

/-- Where there is a choice, the clock is behind the epoch, some replica takes a second at most on
average, and the weights do not add up to a number that is too large. -/
def Choosable (manager : ReplicaManager Lag) (shardId : UInt32) (clock : Int) : Prop :=
  (manager.serving shardId).length ≤ 1 ∨
    0 ≤ clock ∧ (∃ replica ∈ manager.serving shardId, replica.stats.avgLatencyUs ≤ 1000000) ∧
      ((manager.serving shardId).map fun replica =>
        1000000 / max replica.stats.avgLatencyUs.toNat 1).sum < UInt64.size

/-- An update of the health of a replica leaves the states in the other shards as they are. -/
def KeepsOtherShards (manager : ReplicaManager Lag) : Prop :=
  ∀ replica ∈ manager.replicas, ∀ (lagSeconds : Lag) (isHealthy : Bool) (clock : Int)
    (place : Nat) (other : ReplicaInfo Lag), manager.replicas[place]? = some other →
    other.config.shardId ≠ replica.config.shardId →
    ((manager.updateHealth replica.config.replicaId lagSeconds isHealthy
      clock).replicas[place]?).map ReplicaInfo.state = some other.state

end ReplicaManager

end Lag

/-! ## The selection -/

section Selection

variable {Lag : Type}

variable {random : Nat} {candidates : List (ReplicaInfo Lag × Nat)} {clock : Int}
  {selected : ReplicaInfo Lag × Nat}

theorem weight_eq (replica : ReplicaInfo Lag) :
    replica.weight = 1000000 / max replica.stats.avgLatencyUs.toNat 1 := by
  rw [ReplicaInfo.weight, Lib.Numerals.toNat_max]
  rfl

theorem weight_ne_zero_iff (replica : ReplicaInfo Lag) :
    replica.weight ≠ 0 ↔ replica.stats.avgLatencyUs ≤ 1000000 := by
  rw [weight_eq, UInt64.le_iff_toNat_le, ne_eq, Nat.div_eq_zero_iff]
  have word : (1000000 : UInt64).toNat = 1000000 := rfl
  omega

/-- The loop ends at a candidate if it starts below the sum of the weights. -/
theorem exists_passWeights (below : random < (candidates.map fun candidate =>
    candidate.1.weight).sum) : ∃ selected, passWeights random candidates = some selected := by
  induction candidates generalizing random with
  | nil => exact absurd below (Nat.not_lt_zero _)
  | cons candidate rest ih =>
    rw [passWeights]
    split
    · exact ⟨candidate, rfl⟩
    · next passed =>
        rw [List.map_cons, List.sum_cons] at below
        exact ih (by omega)

theorem passWeights_mem (found : passWeights random candidates = some selected) :
    selected ∈ candidates := by
  induction candidates generalizing random with
  | nil => cases found
  | cons candidate rest ih =>
    rw [passWeights] at found
    split at found
    · cases found
      exact List.mem_cons_self
    · exact List.mem_cons_of_mem _ (ih found)

theorem weightedSelect_mem (found : weightedSelect candidates clock = some selected) :
    selected ∈ candidates := by
  rw [weightedSelect] at found
  split at found
  · exact List.mem_of_head? found
  · dsimp only at found
    split at found
    · obtain ⟨nanos, -, found⟩ := Option.bind_eq_some_iff.mp found
      split at found
      · cases found
      · rcases Option.or_eq_some_iff.mp found with passed | ⟨-, first⟩
        · exact passWeights_mem passed
        · exact List.mem_of_head? first
    · cases found

/-- When a choice among several candidates comes to an end. -/
theorem exists_weightedSelect_iff (several : 1 < candidates.length) :
    (∃ selected, weightedSelect candidates clock = some selected) ↔
      0 ≤ clock ∧ (∃ candidate ∈ candidates, candidate.1.weight ≠ 0) ∧
        (candidates.map fun candidate => candidate.1.weight).sum < UInt64.size := by
  have weighty : (∃ candidate ∈ candidates, candidate.1.weight ≠ 0) ↔
      (candidates.map fun candidate => candidate.1.weight).sum ≠ 0 := by
    rw [ne_eq, List.sum_eq_zero_iff_forall_eq_nat]
    simp
  rw [weighty, weightedSelect, if_neg (Nat.ne_of_gt several)]
  dsimp only
  by_cases fits : (candidates.map fun candidate => candidate.1.weight).sum < UInt64.size
  · rw [if_pos fits, sinceEpoch]
    by_cases past : 0 ≤ clock
    · rw [if_pos past, Option.bind_some]
      by_cases nothing : (candidates.map fun candidate => candidate.1.weight).sum = 0
      · simp [nothing]
      · refine iff_of_true ?_ ⟨past, nothing, fits⟩
        have below := Nat.mod_lt (clock.toNat % UInt64.size) (Nat.pos_of_ne_zero nothing)
        obtain ⟨selected, passed⟩ := exists_passWeights below
        exact ⟨selected, by rw [if_neg nothing, passed, Option.some_or]⟩
    · simp [past]
  · simp [fits]

theorem weightedSelect_single (only : ReplicaInfo Lag × Nat) :
    weightedSelect [only] clock = some only := rfl

namespace ReplicaManager

variable [LE Lag] [DecidableLE Lag] {manager : ReplicaManager Lag} {shardId : UInt32}

theorem map_healthyReplicas (manager : ReplicaManager Lag) (shardId : UInt32) :
    (manager.healthyReplicas shardId).map Prod.fst = manager.serving shardId := by
  have places := manager.replicas.zipIdx_map_fst 0
  rw [healthyReplicas, serving]
  conv_rhs => rw [← places, List.filter_map]
  rfl

theorem mem_serving {replica : ReplicaInfo Lag} : replica ∈ manager.serving shardId ↔
    replica ∈ manager.replicas ∧ replica.Serves manager.maxLagSeconds shardId := by
  rw [serving, List.mem_filter, decide_eq_true_iff]

/-- Among the replicas that serve the shard, the selection comes to an end just when there is no
choice, or one that ends. -/
theorem exists_select_iff (some_ : manager.healthyReplicas shardId ≠ []) :
    (∃ selected, weightedSelect (manager.healthyReplicas shardId) clock = some selected) ↔
      manager.Choosable shardId clock := by
  have lengths : (manager.serving shardId).length = (manager.healthyReplicas shardId).length := by
    rw [← map_healthyReplicas, List.length_map]
  have sums : ((manager.serving shardId).map fun replica =>
      1000000 / max replica.stats.avgLatencyUs.toNat 1) =
      (manager.healthyReplicas shardId).map fun candidate => candidate.1.weight := by
    rw [← map_healthyReplicas, List.map_map]
    exact List.map_congr_left fun candidate _ => (weight_eq candidate.1).symm
  have quick : (∃ replica ∈ manager.serving shardId, replica.stats.avgLatencyUs ≤ 1000000) ↔
      ∃ candidate ∈ manager.healthyReplicas shardId, candidate.1.weight ≠ 0 := by
    rw [← map_healthyReplicas]
    simp [weight_ne_zero_iff]
  rw [Choosable, sums, quick, lengths]
  by_cases several : 1 < (manager.healthyReplicas shardId).length
  · rw [exists_weightedSelect_iff several, or_iff_right (Nat.not_le_of_gt several)]
  · refine iff_of_true ?_ (.inl (Nat.le_of_not_gt several))
    have one : (manager.healthyReplicas shardId).length = 1 := by
      have present := List.length_pos_of_ne_nil some_
      omega
    obtain ⟨only, same⟩ := List.length_eq_one_iff.mp one
    exact ⟨only, by rw [same, weightedSelect_single]⟩

/-- Every selection that comes to an end is the right one. -/
theorem exists_selectsWell_iff :
    (∃ chosen, manager.SelectsWell shardId clock chosen) ↔ manager.Choosable shardId clock := by
  by_cases nobody : manager.healthyReplicas shardId = []
  · have noneServes : manager.serving shardId = [] := by
      rw [← map_healthyReplicas, nobody, List.map_nil]
    have unserved : ∀ replica ∈ manager.replicas,
        ¬ replica.Serves manager.maxLagSeconds shardId := by
      intro replica member serves
      have served : replica ∈ manager.serving shardId := mem_serving.mpr ⟨member, serves⟩
      rw [noneServes] at served
      cases served
    refine iff_of_true ⟨none, ⟨manager, if_pos nobody⟩, iff_of_true rfl unserved, ?_⟩ (.inl ?_)
    · intro config chosen
      cases chosen
    · rw [noneServes]
      exact Nat.zero_le 1
  · rw [← exists_select_iff nobody]
    constructor
    · rintro ⟨chosen, ⟨later, returned⟩, -, -⟩
      rw [selectReplica, if_neg nobody] at returned
      obtain ⟨selected, ended, -⟩ := Option.map_eq_some_iff.mp returned
      exact ⟨selected, ended⟩
    · rintro ⟨selected, ended⟩
      have chosen : selected.1 ∈ manager.serving shardId := by
        rw [← map_healthyReplicas]
        exact List.mem_map_of_mem (weightedSelect_mem ended)
      obtain ⟨member, serves⟩ := mem_serving.mp chosen
      refine ⟨some selected.1.config, ?_, ?_, ?_⟩
      · rw [selectReplica, if_neg nobody, ended]
        exact ⟨_, rfl⟩
      · exact iff_of_false (Option.some_ne_none _) fun unserved => unserved _ member serves
      · rintro _ ⟨⟩
        exact ⟨selected.1, member, rfl, serves⟩

end ReplicaManager

end Selection

/-! ## The updates -/

theorem map_modify_of_same {α β : Type*} {f : α → α} {g : α → β} (same : ∀ x, g (f x) = g x)
    (items : List α) (place : Nat) : (items.modify place f).map g = items.map g := by
  refine List.ext_getElem? fun other => ?_
  rw [List.getElem?_map, List.getElem?_map, List.getElem?_modify]
  cases items[other]? with
  | none => rfl
  | some item =>
    by_cases here : place = other
    · simp [here, same]
    · simp [here]

namespace ReplicaManager

/-- Where the first replica with an id stands. -/
theorem exists_position {Lag : Type} {manager : ReplicaManager Lag} {replica : ReplicaInfo Lag}
    (member : replica ∈ manager.replicas) :
    ∃ first, manager.replicas[manager.position replica.config.replicaId]? = some first ∧
      first.config.replicaId = replica.config.replicaId := by
  have inside : manager.position replica.config.replicaId < manager.replicas.length :=
    List.findIdx_lt_length_of_exists ⟨replica, member, decide_eq_true rfl⟩
  refine ⟨_, List.getElem?_eq_getElem inside, ?_⟩
  exact of_decide_eq_true (List.findIdx_getElem (w := inside))

section Update

variable {Lag : Type} [LT Lag] [DecidableLT Lag] {manager : ReplicaManager Lag}

/-- An update leaves every replica alone but the first one with the id. -/
theorem updateHealth_getElem? (replicaId : UInt32) (lagSeconds : Lag) (isHealthy : Bool)
    (clock : Int) {place : Nat} (elsewhere : manager.position replicaId ≠ place) :
    (manager.updateHealth replicaId lagSeconds isHealthy clock).replicas[place]? =
      manager.replicas[place]? := by
  rw [updateHealth, List.getElem?_modify]
  simp [elsewhere]

variable [Zero Lag]

theorem exists_newState_ne (manager : ReplicaManager Lag) (state : ReplicaState) :
    ∃ isHealthy, manager.newState 0 isHealthy ≠ state := by
  by_cases unhealthy : state = .unhealthy
  · refine ⟨true, ?_⟩
    rw [newState, if_neg (by decide), unhealthy]
    split <;> decide
  · exact ⟨false, fun same => unhealthy same.symm⟩

theorem keepsOtherShards_iff : manager.KeepsOtherShards ↔
    ∀ replica ∈ manager.replicas, ∀ other ∈ manager.replicas,
      replica.config.replicaId = other.config.replicaId →
      replica.config.shardId = other.config.shardId := by
  constructor
  · intro keeps
    -- an update by the id of a replica meets the first one with it, which is in the same shard
    have ofFirst : ∀ replica ∈ manager.replicas, ∀ first : ReplicaInfo Lag,
        manager.replicas[manager.position replica.config.replicaId]? = some first →
        first.config.shardId = replica.config.shardId := by
      intro replica member first found
      by_contra different
      obtain ⟨isHealthy, changed⟩ := manager.exists_newState_ne first.state
      have same := keeps replica member 0 isHealthy 0 _ first found different
      rw [updateHealth, List.getElem?_modify, found] at same
      simp at same
      exact changed same
    intro replica member other otherMember sameId
    obtain ⟨first, found, -⟩ := exists_position member
    have mine := ofFirst replica member first found
    rw [sameId] at found
    exact mine.symm.trans (ofFirst other otherMember first found)
  · intro unique replica member lagSeconds isHealthy clock place other found different
    rw [updateHealth_getElem?, found, Option.map_some]
    rintro rfl
    obtain ⟨first, firstFound, sameId⟩ := exists_position member
    cases firstFound.symm.trans found
    exact different (unique other (List.mem_of_getElem? found) replica member sameId)

end Update

section Runs

variable {Lag : Type} [LE Lag] [DecidableLE Lag] [LT Lag] [DecidableLT Lag]

/-- The replicas stay what they were configured to be. -/
theorem map_config_after (overflowChecks : Bool) (manager : ReplicaManager Lag)
    (call : ReplicaCall Lag) : (manager.after overflowChecks call).replicas.map ReplicaInfo.config =
      manager.replicas.map ReplicaInfo.config := by
  cases call with
  | updateHealth replicaId lagSeconds isHealthy clock =>
    apply map_modify_of_same
    intro replica
    rfl
  | recordQuery replicaId success latencyUs =>
    apply map_modify_of_same
    intro replica
    rfl
  | select shardId clock =>
    rw [after, selectReplica]
    split
    · rfl
    · cases weightedSelect (manager.healthyReplicas shardId) clock with
      | none => rfl
      | some selected =>
        apply map_modify_of_same
        intro replica
        rfl

variable [Zero Lag]

def run (overflowChecks : Bool) (configs : List ReplicaConfig) (maxLagSeconds : Lag)
    (calls : List (ReplicaCall Lag)) : ReplicaManager Lag :=
  calls.foldl (after overflowChecks) (new configs maxLagSeconds)

theorem map_config_run (overflowChecks : Bool) (configs : List ReplicaConfig) (maxLagSeconds : Lag)
    (calls : List (ReplicaCall Lag)) :
    (run overflowChecks configs maxLagSeconds calls).replicas.map ReplicaInfo.config = configs := by
  have kept : ∀ manager : ReplicaManager Lag,
      (calls.foldl (after overflowChecks) manager).replicas.map ReplicaInfo.config =
        manager.replicas.map ReplicaInfo.config := by
    intro manager
    induction calls generalizing manager with
    | nil => rfl
    | cons call calls ih =>
      rw [List.foldl_cons, ih, map_config_after]
  rw [run, kept, new, List.map_map]
  exact List.map_id configs

end Runs

end ReplicaManager

/-- In every state a run reaches, the selection is right just where the choice ends, and updates
keep to their shard just when equal ids are in the same shard. -/
theorem replica_selection_iff {Lag : Type} [Zero Lag] [LE Lag] [DecidableLE Lag] [LT Lag]
    [DecidableLT Lag] (overflowChecks : Bool) (configs : List ReplicaConfig) (maxLagSeconds : Lag)
    (calls : List (ReplicaCall Lag)) (shardId : UInt32) (clock : Int) :
    ((∃ chosen, (ReplicaManager.run overflowChecks configs maxLagSeconds calls).SelectsWell shardId
        clock chosen) ↔
      (ReplicaManager.run overflowChecks configs maxLagSeconds calls).Choosable shardId clock) ∧
    ((ReplicaManager.run overflowChecks configs maxLagSeconds calls).KeepsOtherShards ↔
      ∀ config ∈ configs, ∀ other ∈ configs, config.replicaId = other.replicaId →
        config.shardId = other.shardId) := by
  refine ⟨ReplicaManager.exists_selectsWell_iff, ?_⟩
  rw [ReplicaManager.keepsOtherShards_iff]
  conv_rhs => rw [← ReplicaManager.map_config_run overflowChecks configs maxLagSeconds calls]
  simp only [List.forall_mem_map]

/-- Two replicas that take two seconds on average have no weight, and the selection divides by
zero; an update of a replica meets the one of another shard that has the same id. -/
theorem replica_selection_fails :
    (ReplicaManager.run true [⟨1, 1, "a", true⟩, ⟨1, 2, "b", true⟩] (5 : Nat)
      [.recordQuery 1 true 2000000, .recordQuery 2 true 2000000]).selectReplica 1 7 = none ∧
    ¬ (ReplicaManager.run true [⟨1, 1, "a", true⟩, ⟨2, 1, "b", true⟩] (5 : Nat)
      []).KeepsOtherShards := by
  refine ⟨rfl, fun keeps => ?_⟩
  have same := keeps ⟨⟨2, 1, "b", true⟩, .healthy, {}, 0⟩ (List.mem_of_getElem? (i := 1) rfl) 0
    false 0 0 ⟨⟨1, 1, "a", true⟩, .healthy, {}, 0⟩ rfl (by decide)
  cases same

end UHorse.Storage
