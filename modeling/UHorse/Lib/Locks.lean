import Mathlib.Data.Set.Basic
import Mathlib.Order.Basic

/-!
# Reader-writer locks and deadlocks

A lock is held by any number of readers or by one writer, and is not re-entrant: a
thread that holds it waits like any other if it asks for it again.

A set of threads is deadlocked if each of them waits for a lock that one of them
holds. The rule of lock orders is `not_deadlocked_of_rank`: if every waiting thread
asks for a lock of higher rank than all it holds, there is no such set. The ranks
are those of one state, so that they may differ from state to state.
-/

namespace UHorse.Lib

inductive Mode
  | read
  | write
deriving DecidableEq, Repr

structure RwLock where
  readers : Nat
  writer : Bool

namespace RwLock

def free : RwLock := ⟨0, false⟩

def admits (lock : RwLock) : Mode → Bool
  | .read => !lock.writer
  | .write => !lock.writer && lock.readers = 0

def take (lock : RwLock) : Mode → RwLock
  | .read => { lock with readers := lock.readers + 1 }
  | .write => { lock with writer := true }

def drop (lock : RwLock) : Mode → RwLock
  | .read => { lock with readers := lock.readers - 1 }
  | .write => { lock with writer := false }

theorem drop_take {lock : RwLock} {mode : Mode} (admitted : lock.admits mode = true) :
    (lock.take mode).drop mode = lock := by
  cases mode with
  | read => rfl
  | write =>
    have unwritten : lock.writer = false := by
      simp only [admits, Bool.and_eq_true, Bool.not_eq_true'] at admitted
      exact admitted.1
    rw [take, drop, ← unwritten]

end RwLock

section Deadlock

variable {ν lock : Type}

/-- Each member waits for a lock that some member holds. -/
def Deadlocked (waitsFor : ν → Option (lock × Mode)) (holds : ν → List (lock × Mode))
    (members : Set ν) : Prop :=
  members.Nonempty ∧ ∀ i ∈ members, ∃ wanted mode, waitsFor i = some (wanted, mode) ∧
    ∃ j ∈ members, ∃ mode', (wanted, mode') ∈ holds j

/-- Whether each of these waits for a lock that one of them holds. -/
def entangled [DecidableEq lock] (waitsFor : ν → Option (lock × Mode))
    (holds : ν → List (lock × Mode)) (members : List ν) : Bool :=
  members.all fun i => (waitsFor i).any fun wanted =>
    members.any fun j => (holds j).any fun held => held.1 = wanted.1

theorem deadlocked_of_entangled [DecidableEq lock] {waitsFor : ν → Option (lock × Mode)}
    {holds : ν → List (lock × Mode)} {members : Set ν} {first : ν} {rest : List ν}
    (same : ∀ i, i ∈ members ↔ i ∈ first :: rest)
    (tied : entangled waitsFor holds (first :: rest) = true) :
    Deadlocked waitsFor holds members := by
  refine ⟨⟨first, (same first).mpr List.mem_cons_self⟩, ?_⟩
  intro i member
  obtain ⟨⟨wanted, mode⟩, waits, someone⟩ :=
    (Option.any_eq_true _ _).mp (List.all_eq_true.mp tied i ((same i).mp member))
  obtain ⟨j, inside, holder⟩ := List.any_eq_true.mp someone
  obtain ⟨⟨lock, mode'⟩, held, equal⟩ := List.any_eq_true.mp holder
  obtain rfl : lock = wanted := of_decide_eq_true equal
  exact ⟨lock, mode, waits, j, (same j).mpr inside, mode', held⟩

/-- Locks that are taken in the order of a bounded rank do not deadlock. -/
theorem not_deadlocked_of_rank {waitsFor : ν → Option (lock × Mode)}
    {holds : ν → List (lock × Mode)} (rank : lock → Nat) (bound : Nat)
    (bounded : ∀ l, rank l ≤ bound)
    (ordered : ∀ i wanted mode, waitsFor i = some (wanted, mode) →
      ∀ held ∈ holds i, rank held.1 < rank wanted) (members : Set ν) :
    ¬ Deadlocked waitsFor holds members := by
  rintro ⟨⟨first, inside⟩, waiting⟩
  -- Following the holders, the rank of what a member waits for exceeds every number.
  have climbs : ∀ n, ∃ i ∈ members, ∃ wanted mode, waitsFor i = some (wanted, mode) ∧
      n ≤ rank wanted := by
    intro n
    induction n with
    | zero =>
      obtain ⟨wanted, mode, waits, -⟩ := waiting first inside
      exact ⟨first, inside, wanted, mode, waits, Nat.zero_le _⟩
    | succ n ih =>
      obtain ⟨i, member, wanted, mode, waits, high⟩ := ih
      obtain ⟨wanted', mode', waits', j, member', mode'', held⟩ := waiting i member
      cases waits.symm.trans waits'
      obtain ⟨next, mode', waitsNext, -⟩ := waiting j member'
      have higher := ordered j next mode' waitsNext _ held
      exact ⟨j, member', next, mode', waitsNext, by simp only at higher; omega⟩
  obtain ⟨-, -, wanted, -, -, high⟩ := climbs (bound + 1)
  have low := bounded wanted
  omega

end Deadlock

end UHorse.Lib
