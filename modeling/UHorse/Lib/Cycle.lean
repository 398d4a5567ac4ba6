import Mathlib.Algebra.GroupWithZero.Nat
import Mathlib.Order.Interval.Finset.Nat

/-!
# Going round a list

A counter goes round a list by its remainder. As many numbers in a row as the list has elements meet
each element once. A counter that itself starts anew at a limit does so too as long as it does not
reach the limit on the way, or if the list fits into the limit without a remainder.

`spread` lists each element as often as it weighs.
-/

namespace UHorse.Lib.Cycle

variable {α : Type*}

theorem map_mod_perm (c n : Nat) : ((List.range' c n).map (· % n)).Perm (List.range n) := by
  have round := Nat.multiset_Ico_map_mod c n
  rw [Multiset.Ico, Nat.Ico_eq_range', Nat.add_sub_cancel_left] at round
  exact Multiset.coe_eq_coe.mp round

theorem map_getElem?_range (l : List α) : (List.range l.length).map (l[·]?) = l.map some := by
  refine List.ext_getElem? fun i => ?_
  rw [List.getElem?_map, List.getElem?_map]
  by_cases inside : i < l.length
  · rw [List.getElem?_range inside, Option.map_some, List.getElem?_eq_getElem inside]
    rfl
  · have outside : l.length ≤ i := Nat.le_of_not_lt inside
    rw [List.getElem?_eq_none (by simpa using outside), List.getElem?_eq_none outside]
    rfl

/-- Elements that differ are met once each just if their places are. -/
theorem perm_range_of_nodup [DecidableEq α] {l : List α} (distinct : l.Nodup) {places : List Nat}
    (inside : ∀ i ∈ places, i < l.length)
    (round : (places.map (l[·]?)).Perm (l.map some)) :
    places.Perm (List.range l.length) := by
  rw [← map_getElem?_range] at round
  have back := round.map fun met => met.elim 0 l.idxOf
  have found : ∀ places : List Nat, (∀ i ∈ places, i < l.length) →
      (places.map (l[·]?)).map (fun met => met.elim 0 l.idxOf) = places := by
    intro places inside
    rw [List.map_map]
    refine (List.map_congr_left fun i member => ?_).trans (List.map_id places)
    show (l[i]?).elim 0 l.idxOf = i
    rw [List.getElem?_eq_getElem (inside i member)]
    exact distinct.idxOf_getElem i (inside i member)
  rw [found _ inside, found _ fun i member => List.mem_range.mp member] at back
  exact back

/-- Numbers in a row meet each element once. -/
theorem perm_of_consecutive (l : List α) (c : Nat) :
    ((List.range' c l.length).map fun k => l[k % l.length]?).Perm (l.map some) := by
  have round := (map_mod_perm c l.length).map fun k => l[k]?
  rw [map_getElem?_range, List.map_map] at round
  exact round

section Wrapping

variable {limit c n : Nat}

/-- The remainders of a counter that starts anew at a limit. -/
def remainders (limit c n : Nat) : List Nat := (List.range' c n).map fun k => k % limit % n

theorem mem_remainders {r : Nat} : r ∈ remainders limit c n ↔ ∃ j < n, (c + j) % limit % n = r := by
  rw [remainders, List.mem_map]
  constructor
  · rintro ⟨k, member, rfl⟩
    obtain ⟨above, below⟩ := List.mem_range'_1.mp member
    exact ⟨k - c, by omega, by rw [Nat.add_sub_cancel' above]⟩
  · rintro ⟨j, below, rfl⟩
    exact ⟨c + j, List.mem_range'_1.mpr ⟨by omega, by omega⟩, rfl⟩

theorem remainders_perm (fits : c + n ≤ limit ∨ n ∣ limit) :
    (remainders limit c n).Perm (List.range n) := by
  have same : remainders limit c n = (List.range' c n).map (· % n) := by
    refine List.map_congr_left fun k member => ?_
    obtain within | divides := fits
    · have below : k < limit := (List.mem_range'_1.mp member).2.trans_le within
      rw [Nat.mod_eq_of_lt below]
    · exact Nat.mod_mod_of_dvd k divides
  rw [same]
  exact map_mod_perm c n

theorem lt_of_mem_remainders (positive : 0 < n) {r : Nat} (member : r ∈ remainders limit c n) :
    r < n := by
  obtain ⟨k, -, rfl⟩ := List.mem_map.mp member
  exact Nat.mod_lt _ positive

/-- If the counter starts anew on the way, and all remainders are met, each of them once, the limit
itself has no remainder. -/
theorem fits_of_remainders_perm (start : c < limit) (positive : 0 < n)
    (round : (remainders limit c n).Perm (List.range n)) : c + n ≤ limit ∨ n ∣ limit := by
  have hit : ∀ r < n, ∃ j < n, (c + j) % limit % n = r := fun r small =>
    mem_remainders.mp (round.mem_iff.mpr (List.mem_range.mpr small))
  have once : ∀ i < n, ∀ j < n, (c + i) % limit % n = (c + j) % limit % n → i = j := by
    have nodup : (remainders limit c n).Nodup := round.nodup_iff.mpr List.nodup_range
    intro i smallI j smallJ same
    have injective := List.inj_on_of_nodup_map nodup
    have equal := injective (List.mem_range'_1.mpr ⟨Nat.le_add_right c i, by omega⟩)
      (List.mem_range'_1.mpr ⟨Nat.le_add_right c j, by omega⟩) same
    omega
  by_contra neither
  obtain ⟨wraps, leaves⟩ := not_or.mp neither
  have atMost : n ≤ limit := by
    by_contra longer
    obtain ⟨j, -, same⟩ := hit limit (by omega)
    have inside := Nat.mod_lt (c + j) (Nat.zero_lt_of_lt start)
    have smaller := Nat.mod_le ((c + j) % limit) n
    omega
  -- the remainder of the limit is met before the counter starts anew or behind that
  have rest : 0 < limit % n := Nat.pos_of_ne_zero fun none => leaves (Nat.dvd_of_mod_eq_zero none)
  have small := Nat.mod_lt limit positive
  have behind : ∀ j, limit ≤ c + j → j < n → (c + j) % limit % n = c + j - limit := by
    intro j later within
    rw [Nat.mod_eq_sub_mod later, Nat.mod_eq_of_lt (a := c + j - limit) (by omega),
      Nat.mod_eq_of_lt (by omega)]
  obtain ⟨j, within, same⟩ := hit _ small
  by_cases before : c + j < limit
  · rw [Nat.mod_eq_of_lt before] at same
    have far : n ∣ limit - (c + j) :=
      Nat.dvd_of_mod_eq_zero (Nat.sub_mod_eq_zero_of_mod_eq same.symm)
    have long := Nat.le_of_dvd (by omega) far
    omega
  · rw [behind j (by omega) within] at same
    have last : (c + (limit - c - 1)) % limit % n = limit % n - 1 := by
      have divided := Nat.div_add_mod limit n
      have place : c + (limit - c - 1) = n * (limit / n) + (limit % n - 1) := by omega
      rw [Nat.mod_eq_of_lt (a := c + (limit - c - 1)) (by omega), place, Nat.mul_add_mod,
        Nat.mod_eq_of_lt (by omega)]
    have other : (c + (limit - c + (limit % n - 1))) % limit % n = limit % n - 1 := by
      rw [behind _ (by omega) (by omega)]
      omega
    have equal := once _ (by omega) _ (by omega) (last.trans other.symm)
    omega

end Wrapping

/-! ## Weights -/

section Spread

variable (weight : α → Nat)

def spread (l : List α) : List α := l.flatMap fun a => List.replicate (weight a) a

@[simp] theorem length_spread (l : List α) : (spread weight l).length = (l.map weight).sum := by
  simp [spread, List.length_flatMap]

theorem getElem?_spread_cons (a : α) (l : List α) (i : Nat) :
    (spread weight (a :: l))[i]? =
      if i < weight a then some a else (spread weight l)[i - weight a]? := by
  rw [spread, List.flatMap_cons, List.getElem?_append, List.length_replicate]
  split
  · next inside => exact List.getElem?_replicate_of_lt inside
  · rfl

theorem mem_spread {a : α} {l : List α} : a ∈ spread weight l ↔ a ∈ l ∧ weight a ≠ 0 := by
  rw [spread, List.mem_flatMap]
  constructor
  · rintro ⟨b, member, inside⟩
    obtain ⟨some_, rfl⟩ := List.mem_replicate.mp inside
    exact ⟨member, some_⟩
  · rintro ⟨member, some_⟩
    exact ⟨a, member, List.mem_replicate.mpr ⟨some_, rfl⟩⟩

end Spread

end UHorse.Lib.Cycle
