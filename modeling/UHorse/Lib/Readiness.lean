import Mathlib.Data.List.Basic

/-!
# Rounds of a list of dependent items

Items bear keys and need keys. In each round the items run whose needs are settled, and
settle their own keys; an item whose key is settled before it could run never does. Keys
may be borne by several items or by none, and items may need each other in a circle.

A run of the rounds is determined by the items alone: it goes on until a round in which
nothing runs, and from there on nothing ever does.
-/

namespace UHorse.Lib

variable {α κ : Type*} (key : α → κ) (needs : α → List κ) (items : List α)

/-- The keys that are settled before a round. -/
def Settled : Nat → κ → Prop
  | 0, _ => False
  | n + 1, k => Settled n k ∨ ∃ item ∈ items, key item = k ∧ ∀ need ∈ needs item, Settled n need

/-- The item at a place runs in a round. -/
structure RunsIn (n place : Nat) (item : α) : Prop where
  here : items[place]? = some item
  ready : ∀ need ∈ needs item, Settled key needs items n need
  fresh : ¬ Settled key needs items n (key item)

variable {key needs items}

namespace Settled

theorem mono {n m : Nat} (le : n ≤ m) {k : κ} (settled : Settled key needs items n k) :
    Settled key needs items m k := by
  induction le with
  | refl => exact settled
  | step _ ih => exact .inl ih

end Settled

namespace RunsIn

variable {n m place : Nat} {item : α}

theorem settles (runs : RunsIn key needs items n place item) :
    Settled key needs items (n + 1) (key item) :=
  .inr ⟨item, List.mem_of_getElem? runs.here, rfl, runs.ready⟩

/-- An item runs in one round at most. -/
theorem unique {other : α} (runs : RunsIn key needs items n place item)
    (again : RunsIn key needs items m place other) : n = m ∧ item = other := by
  obtain rfl := Option.some.inj (runs.here.symm.trans again.here)
  obtain less | same | more := Nat.lt_trichotomy n m
  · exact absurd (runs.settles.mono less) again.fresh
  · exact ⟨same, rfl⟩
  · exact absurd (again.settles.mono more) runs.fresh

end RunsIn

/-- What is settled in a round is settled by the items that run in it. -/
theorem settled_succ_iff {n : Nat} {k : κ} :
    Settled key needs items (n + 1) k ↔ Settled key needs items n k ∨
      ∃ place item, RunsIn key needs items n place item ∧ key item = k := by
  constructor
  · rintro (settled | ⟨item, member, rfl, ready⟩)
    · exact .inl settled
    · by_cases settled : Settled key needs items n (key item)
      · exact .inl settled
      · obtain ⟨place, here⟩ := List.getElem?_of_mem member
        exact .inr ⟨place, item, ⟨here, ready, settled⟩, rfl⟩
  · rintro (settled | ⟨place, item, runs, rfl⟩)
    · exact .inl settled
    · exact runs.settles

/-- After a round in which nothing runs nothing changes. -/
theorem settled_of_stuck {n m : Nat} (stuck : ∀ place item, ¬ RunsIn key needs items n place item)
    (le : n ≤ m) {k : κ} (settled : Settled key needs items m k) :
    Settled key needs items n k := by
  induction le generalizing k with
  | refl => exact settled
  | @step m _ ih =>
    obtain earlier | ⟨item, member, rfl, ready⟩ := settled
    · exact ih earlier
    · by_contra fresh
      obtain ⟨place, here⟩ := List.getElem?_of_mem member
      exact stuck place item ⟨here, fun need inside => ih (ready need inside), fresh⟩

theorem not_runsIn_of_stuck {n m place : Nat} {item : α}
    (stuck : ∀ place item, ¬ RunsIn key needs items n place item) (le : n ≤ m) :
    ¬ RunsIn key needs items m place item := by
  intro runs
  refine stuck place item ⟨runs.here, ?_, fun settled => runs.fresh (settled.mono le)⟩
  intro need inside
  exact settled_of_stuck stuck le (runs.ready need inside)

end UHorse.Lib
