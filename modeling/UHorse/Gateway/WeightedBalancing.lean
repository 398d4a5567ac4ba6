import UHorse.Discovery.Failover
import UHorse.Lib.Cycle
import UHorse.Lib.Numerals

/-!
# Weighted round robin

The counter of calls, by its remainder for the total weight, is looked for among the sums of the
weights. The sums are the ends of the places that the instances have in a list with each instance as
often as it weighs, so the calls go round that list.
-/

namespace UHorse.Gateway

open UHorse.Lib

structure ServiceMetadata where
  weight : Option UInt32
deriving DecidableEq

structure ServiceInstance extends Discovery.ServiceInstance where
  address : String
  port : UInt16
  metadata : ServiceMetadata
deriving DecidableEq

namespace WeightedLoadBalancer

def getWeight (instance_ : ServiceInstance) : UInt32 := instance_.metadata.weight.getD 50

def totalWeight (instances : List ServiceInstance) : UInt64 :=
  (instances.map fun instance_ => (getWeight instance_).toUInt64).sum

/-- The loop over the instances, from a sum of weights on. -/
def search (position : UInt64) : List ServiceInstance → UInt64 → Option ServiceInstance
  | [], _ => none
  | instance_ :: rest, currentWeight =>
    let currentWeight := currentWeight + (getWeight instance_).toUInt64
    if position < currentWeight then some instance_ else search position rest currentWeight

/-- The instance for a value of the counter, and the counter behind the call. -/
def select (instances : List ServiceInstance) (counter : UInt64) :
    Option ServiceInstance × UInt64 :=
  if instances.isEmpty then (none, counter)
  else if totalWeight instances = 0 then
    (instances[counter.toNat % instances.length]?, counter + 1)
  else
    match search (counter % totalWeight instances) instances 0 with
    | some found => (some found, counter + 1)
    | none => (instances.getLast?, counter + 1)

/-- The answers of a number of calls. -/
def selectMany (instances : List ServiceInstance) : Nat → UInt64 → List (Option ServiceInstance)
  | 0, _ => []
  | calls + 1, counter =>
    let (answer, counter) := select instances counter
    answer :: selectMany instances calls counter

/-! ## One call -/

/-- The weight as it is summed up. -/
def weightOf (instance_ : ServiceInstance) : Nat := (getWeight instance_).toNat

section Calls

variable {instances : List ServiceInstance} {counter : UInt64}

theorem toNat_totalWeight (fits : (instances.map weightOf).sum < 2 ^ 64) :
    (totalWeight instances).toNat = (instances.map weightOf).sum := by
  have weights : (instances.map fun instance_ => (getWeight instance_).toUInt64).map UInt64.toNat =
      instances.map weightOf := by
    rw [List.map_map]
    exact List.map_congr_left fun instance_ _ => UInt32.toNat_toUInt64 _
  rw [← weights] at fits ⊢
  exact Numerals.toNat_sum_of_lt fits

/-- The sums of the weights are the ends of the places in the spread list. -/
theorem search_eq (position current : UInt64)
    (fits : current.toNat + (instances.map weightOf).sum < 2 ^ 64)
    (past : current.toNat ≤ position.toNat) :
    search position instances current =
      (Cycle.spread weightOf instances)[position.toNat - current.toNat]? := by
  induction instances generalizing current with
  | nil => rfl
  | cons instance_ rest ih =>
    rw [List.map_cons, List.sum_cons] at fits
    have sum : (current + (getWeight instance_).toUInt64).toNat =
        current.toNat + weightOf instance_ := by
      rw [UInt64.toNat_add, UInt32.toNat_toUInt64]
      exact Nat.mod_eq_of_lt (show current.toNat + weightOf instance_ < 2 ^ 64 by omega)
    rw [search, Cycle.getElem?_spread_cons]
    by_cases inside : position < current + (getWeight instance_).toUInt64
    · rw [if_pos inside]
      rw [UInt64.lt_iff_toNat_lt, sum] at inside
      rw [if_pos (by omega)]
    · rw [if_neg inside]
      rw [UInt64.lt_iff_toNat_lt, sum] at inside
      rw [if_neg (by omega), ih _ (by omega) (by omega), sum, Nat.sub_sub]

/-- With some weight, the loop finds the place of the counter in the spread list. -/
theorem search_counter (counter : UInt64) (some_ : 0 < (instances.map weightOf).sum)
    (fits : (instances.map weightOf).sum < 2 ^ 64) :
    search (counter % totalWeight instances) instances 0 =
        (Cycle.spread weightOf instances)[counter.toNat % (instances.map weightOf).sum]? ∧
      (search (counter % totalWeight instances) instances 0).isSome = true := by
  have place : (counter % totalWeight instances).toNat =
      counter.toNat % (instances.map weightOf).sum := by
    rw [UInt64.toNat_mod, toNat_totalWeight fits]
  have found := search_eq (counter % totalWeight instances) 0
    (by simpa using fits) (Nat.zero_le _)
  rw [UInt64.toNat_zero, Nat.sub_zero, place] at found
  refine ⟨found, ?_⟩
  rw [found]
  have inside : counter.toNat % (instances.map weightOf).sum <
      (Cycle.spread weightOf instances).length := by
    rw [Cycle.length_spread]
    exact Nat.mod_lt _ some_
  rw [List.getElem?_eq_getElem inside]
  rfl

theorem select_weighted (some_ : 0 < (instances.map weightOf).sum)
    (fits : (instances.map weightOf).sum < 2 ^ 64) :
    select instances counter =
      ((Cycle.spread weightOf instances)[counter.toNat % (instances.map weightOf).sum]?,
        counter + 1) := by
  obtain ⟨found, inside⟩ := search_counter counter some_ fits
  have nonempty : ¬ instances.isEmpty = true := by
    intro empty
    rw [List.isEmpty_iff.mp empty] at some_
    exact absurd some_ (Nat.lt_irrefl 0)
  have weighs : ¬ totalWeight instances = 0 := by
    intro nothing
    have total := toNat_totalWeight fits
    rw [nothing, UInt64.toNat_zero] at total
    omega
  rw [select, if_neg nonempty, if_neg weighs, ← found]
  obtain ⟨instance_, same⟩ := Option.isSome_iff_exists.mp inside
  rw [same]

theorem select_unweighted (nonempty : instances ≠ [])
    (nothing : ∀ instance_ ∈ instances, getWeight instance_ = 0) :
    select instances counter = (instances[counter.toNat % instances.length]?, counter + 1) := by
  have total : (instances.map weightOf).sum = 0 := by
    refine List.sum_eq_zero fun weight member => ?_
    obtain ⟨instance_, inside, rfl⟩ := List.mem_map.mp member
    rw [weightOf, nothing instance_ inside]
    rfl
  have weighs : totalWeight instances = 0 := by
    refine UInt64.toNat_inj.mp ?_
    rw [toNat_totalWeight (by omega), total]
    rfl
  rw [select, if_neg (by simpa using nonempty), if_pos weighs]

/-- Calls in a row see the values of the counter in a row, with its wrapping around. -/
theorem selectMany_eq (answer : Nat → Option ServiceInstance)
    (each : ∀ counter : UInt64, select instances counter = (answer counter.toNat, counter + 1))
    (calls : Nat) {start : Nat} (starts : counter.toNat = start % 2 ^ 64) :
    selectMany instances calls counter =
      (List.range' start calls).map fun k => answer (k % 2 ^ 64) := by
  induction calls generalizing counter start with
  | zero => rfl
  | succ calls ih =>
    have next : (counter + 1).toNat = (start + 1) % 2 ^ 64 := by
      rw [UInt64.toNat_add, starts, UInt64.toNat_one]
      exact Nat.mod_add_mod start (2 ^ 64) 1
    rw [selectMany, each, List.range'_succ, List.map_cons, ← starts]
    exact congrArg (answer counter.toNat :: ·) (ih next)

/-- Calls in a row, as many as the total weight, go round the spread list. -/
theorem selectMany_weighted (some_ : 0 < (instances.map weightOf).sum)
    (room : counter.toNat + (instances.map weightOf).sum < 2 ^ 64) :
    (selectMany instances (instances.map weightOf).sum counter).Perm
      ((Cycle.spread weightOf instances).map some) := by
  have starts : counter.toNat = counter.toNat % 2 ^ 64 := (Nat.mod_eq_of_lt counter.toNat_lt).symm
  have answers : selectMany instances (instances.map weightOf).sum counter =
      (List.range' counter.toNat (Cycle.spread weightOf instances).length).map fun k =>
        (Cycle.spread weightOf instances)[k % (Cycle.spread weightOf instances).length]? := by
    rw [selectMany_eq
        (fun k => (Cycle.spread weightOf instances)[k % (instances.map weightOf).sum]?)
        (fun _ => select_weighted some_ (by omega)) _ starts, Cycle.length_spread]
    refine List.map_congr_left fun k member => ?_
    have below := (List.mem_range'_1.mp member).2
    rw [Nat.mod_eq_of_lt (by omega : k < 2 ^ 64)]
  rw [answers]
  exact Cycle.perm_of_consecutive _ _

/-- Without any weight, the calls go round the instances. -/
theorem selectMany_unweighted (nonempty : instances ≠ [])
    (nothing : ∀ instance_ ∈ instances, getWeight instance_ = 0) :
    selectMany instances instances.length counter =
      (Cycle.remainders (2 ^ 64) counter.toNat instances.length).map (instances[·]?) := by
  have starts : counter.toNat = counter.toNat % 2 ^ 64 := (Nat.mod_eq_of_lt counter.toNat_lt).symm
  rw [selectMany_eq (fun k => instances[k % instances.length]?)
    (fun _ => select_unweighted nonempty nothing) _ starts, Cycle.remainders, List.map_map]
  rfl

end Calls

end WeightedLoadBalancer

/-! ## Calls in a row -/

open WeightedLoadBalancer

/-- Calls in a row, as many as the total weight, answer each instance as often as it weighs, and the
loop finds an instance in each of them. Without any weight, calls in a row answer each instance once
as long as the counter does not wrap around, or if the number of instances divides its range; for
instances that differ, only then. -/
theorem weighted_round_robin (instances : List ServiceInstance) (nonempty : instances ≠ [])
    (counter : UInt64) :
    (0 < (instances.map weightOf).sum →
      counter.toNat + (instances.map weightOf).sum < 2 ^ 64 →
        (selectMany instances (instances.map weightOf).sum counter).Perm
            ((Cycle.spread weightOf instances).map some) ∧
          (∀ instance_, getWeight instance_ = 0 →
            some instance_ ∉ selectMany instances (instances.map weightOf).sum counter) ∧
          ∀ call < (instances.map weightOf).sum,
            (search ((counter + .ofNat call) % totalWeight instances) instances 0).isSome = true) ∧
    ((∀ instance_ ∈ instances, getWeight instance_ = 0) →
      (counter.toNat + instances.length ≤ 2 ^ 64 ∨ instances.length ∣ 2 ^ 64 →
        (selectMany instances instances.length counter).Perm (instances.map some)) ∧
      (instances.Nodup →
        (selectMany instances instances.length counter).Perm (instances.map some) →
          counter.toNat + instances.length ≤ 2 ^ 64 ∨ instances.length ∣ 2 ^ 64)) := by
  constructor
  · intro some_ room
    have round := selectMany_weighted some_ room
    refine ⟨round, ?_, fun call _ => (search_counter _ some_ (by omega)).2⟩
    intro instance_ light answered
    obtain ⟨other, member, same⟩ := List.mem_map.mp (round.mem_iff.mp answered)
    obtain rfl := Option.some_inj.mp same
    refine ((Cycle.mem_spread weightOf).mp member).2 ?_
    rw [weightOf, light]
    rfl
  · intro nothing
    rw [selectMany_unweighted nonempty nothing]
    constructor
    · intro fits
      rw [← Cycle.map_getElem?_range]
      exact (Cycle.remainders_perm fits).map _
    · intro distinct round
      have positive := List.length_pos_of_ne_nil nonempty
      refine Cycle.fits_of_remainders_perm counter.toNat_lt positive ?_
      exact Cycle.perm_range_of_nodup distinct
        (fun _ member => Cycle.lt_of_mem_remainders positive member) round

/-- An instance that weighs two and one that weighs one, from the counter five on, and three
instances without weight. -/
theorem weighted_round_robin_three :
    (selectMany [⟨⟨"1", "api"⟩, "10.0.0.1", 80, ⟨some 2⟩⟩, ⟨⟨"2", "api"⟩, "10.0.0.2", 80, ⟨some 1⟩⟩]
        3 5).Perm [some ⟨⟨"1", "api"⟩, "10.0.0.1", 80, ⟨some 2⟩⟩,
          some ⟨⟨"1", "api"⟩, "10.0.0.1", 80, ⟨some 2⟩⟩,
          some ⟨⟨"2", "api"⟩, "10.0.0.2", 80, ⟨some 1⟩⟩] ∧
      (selectMany [⟨⟨"1", "api"⟩, "10.0.0.1", 80, ⟨some 0⟩⟩,
          ⟨⟨"2", "api"⟩, "10.0.0.2", 80, ⟨some 0⟩⟩]
        2 5).Perm [some ⟨⟨"1", "api"⟩, "10.0.0.1", 80, ⟨some 0⟩⟩,
          some ⟨⟨"2", "api"⟩, "10.0.0.2", 80, ⟨some 0⟩⟩] := by
  constructor
  · exact ((weighted_round_robin _ (List.cons_ne_nil _ _) 5).1 (by decide) (by decide)).1
  · refine ((weighted_round_robin _ (List.cons_ne_nil _ _) 5).2 ?_).1 (.inl (by decide))
    decide

/-- The counter wraps around behind the first of three calls, and the first instance is answered
twice. -/
theorem not_weighted_round_robin :
    ¬ (selectMany [⟨⟨"1", "api"⟩, "10.0.0.1", 80, ⟨some 0⟩⟩,
        ⟨⟨"2", "api"⟩, "10.0.0.2", 80, ⟨some 0⟩⟩,
        ⟨⟨"3", "api"⟩, "10.0.0.3", 80, ⟨some 0⟩⟩] 3 0xFFFFFFFFFFFFFFFF).Perm
      [some ⟨⟨"1", "api"⟩, "10.0.0.1", 80, ⟨some 0⟩⟩,
        some ⟨⟨"2", "api"⟩, "10.0.0.2", 80, ⟨some 0⟩⟩,
        some ⟨⟨"3", "api"⟩, "10.0.0.3", 80, ⟨some 0⟩⟩] := by
  decide

end UHorse.Gateway
