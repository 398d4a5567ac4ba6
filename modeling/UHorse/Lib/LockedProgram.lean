import UHorse.Lib.Locks
import UHorse.Lib.Runs
import Mathlib.Logic.Function.Basic

/-!
# Programs that take and drop locks

Data under reader-writer locks, and programs whose actions take a lock, drop one or
work on the data. What is observed of a thread is the locks it holds and the stage it
is in: the stages tell apart threads that hold the same locks and will not ask for the
same ones.

A `LockPlan` says what a thread may hold while it asks for a lock, and which stages are
rivals. If no thread enters a rival stage of another thread's, the locks may be ranked
by the stages of the moment, and `LockPlan.not_deadlocked` applies.
-/

namespace UHorse.Lib

/-- Data and the locks around its parts. -/
@[ext] structure Locked (σ lock : Type) where
  data : σ
  locks : lock → RwLock

inductive LockNote (lock ω : Type)
  | acquire (wanted : lock) (mode : Mode)
  | release (held : lock) (mode : Mode)
  | work (note : ω)
deriving DecidableEq

abbrev LockProgram (σ lock ι ω α : Type) := Program (Locked σ lock) ι (LockNote lock ω) α

namespace LockProgram

variable {σ lock ι ω α : Type} [DecidableEq lock]

def acquire (wanted : lock) (mode : Mode) : LockProgram σ lock ι ω Unit :=
  Program.await (.acquire wanted mode) (fun s => (s.locks wanted).admits mode) fun _ s =>
    { s with locks := Function.update s.locks wanted ((s.locks wanted).take mode) }

def release (held : lock) (mode : Mode) : LockProgram σ lock ι ω Unit :=
  Program.update (.release held mode)
    (fun _ s => { s with locks := Function.update s.locks held ((s.locks held).drop mode) })
    fun _ _ => ()

omit [DecidableEq lock] in
def modify (note : ω) (change : ι → σ → σ) : LockProgram σ lock ι ω Unit :=
  Program.update (.work note) (fun input s => { s with data := change input s.data })
    fun _ _ => ()

omit [DecidableEq lock] in
def look (note : ω) (value : ι → σ → α) : LockProgram σ lock ι ω α :=
  Program.query (.work note) fun input s => value input s.data

/-- The lock is held for one section of the program. -/
def within (held : lock) (mode : Mode) (inner : LockProgram σ lock ι ω α) :
    LockProgram σ lock ι ω α := do
  acquire held mode
  let value ← inner
  release held mode
  pure value

end LockProgram

/-- The locks a thread holds, the latest first, and the stage it is in. -/
structure Holding (lock κ : Type) where
  locks : List (lock × Mode)
  stage : κ

/-- How the threads use the locks. -/
structure LockPlan (lock ω κ : Type) where
  /-- The stage of a thread that has done nothing. -/
  idle : κ
  /-- The stage an action leads to. -/
  advance : Holding lock κ → LockNote lock ω → κ
  /-- Stages that no two threads are to be in at the same time. -/
  rival : κ → κ → Bool
  /-- What a thread may hold while it asks for a lock. -/
  Waits : Holding lock κ → lock → Prop
  symm : ∀ stage other, rival stage other = rival other stage
  irrefl : ∀ stage, rival stage stage = false
  calm : ∀ stage, rival idle stage = false

namespace LockPlan

variable {σ lock ι ω κ α β : Type} [DecidableEq lock] (plan : LockPlan lock ω κ)

def see (holding : Holding lock κ) (note : LockNote lock ω) : Holding lock κ :=
  { locks :=
      match note with
      | .acquire wanted mode => (wanted, mode) :: holding.locks
      | .release held mode => holding.locks.erase (held, mode)
      | .work _ => holding.locks
    stage := plan.advance holding note }

def nothing : Holding lock κ := ⟨[], plan.idle⟩

def holder : Observer (Locked σ lock) ι (LockNote lock ω) (Holding lock κ) where
  start := plan.nothing
  see holding note _ _ := plan.see holding note

/-- The pools of threads that are observed in this way. -/
abbrev Pools (σ lock ι ω κ : Type) :=
  Pool (Locked σ lock) ι (LockNote lock ω) Unit (Holding lock κ)

/-- All interleavings of the programs that may run, from locks that are free. -/
def system (Runs : LockProgram σ lock ι ω Unit → Prop) (Start : σ → Prop) :
    System (Pools σ lock ι ω κ) (PoolLabel (Locked σ lock) ι (LockNote lock ω) Unit) :=
  Pool.system plan.holder Runs (fun _ _ => False) fun s =>
    Start s.data ∧ s.locks = fun _ => RwLock.free

/-- No thread enters a rival stage of another one's. -/
def KeepsApart (s : Pools σ lock ι ω κ) :
    PoolLabel (Locked σ lock) ι (LockNote lock ω) Unit → Prop
  | .run index _ => ∀ note ready act next seen,
      s.threads[index]? = some ⟨.act note ready act next, seen⟩ →
      ∀ thread ∈ s.threads, plan.rival (plan.advance seen note) thread.seen.stage = false
  | _ => True

/-- Whether the next action of a thread keeps it apart from the others. -/
def keepsApart (s : Pools σ lock ι ω κ) (index : Nat) (_ : ι) : Bool :=
  match s.threads[index]? with
  | some ⟨.act note _ _ _, seen⟩ =>
    s.threads.all fun thread => !plan.rival (plan.advance seen note) thread.seen.stage
  | _ => true

omit [DecidableEq lock] in
theorem KeepsApart.of_check (s : Pools σ lock ι ω κ) (index : Nat) (input : ι)
    (checked : plan.keepsApart s index input = true) : plan.KeepsApart s (.run index input) := by
  intro note ready act next seen here thread present
  rw [keepsApart, here] at checked
  simpa using List.all_eq_true.mp checked thread present

/-- The lock a thread waits for: it asks for it and cannot have it. -/
def waitsFor (s : Pools σ lock ι ω κ) (index : Nat) : Option (lock × Mode) :=
  match s.threads[index]? with
  | some ⟨.act (.acquire wanted mode) ready _ _, _⟩ =>
    if ready s.shared then none else some (wanted, mode)
  | _ => none

def holds (s : Pools σ lock ι ω κ) (index : Nat) : List (lock × Mode) :=
  match s.threads[index]? with
  | some thread => thread.seen.locks
  | none => []

def player (Runs : LockProgram σ lock ι ω Unit → Prop) (Start : σ → Prop) :
    (plan.system Runs Start).Player (Pool.Move Runs fun _ _ => False) :=
  Pool.player plan.holder Runs (fun _ _ => False) _

/-- Only actions that keep their thread apart from the others. -/
def apartPlayer (Runs : LockProgram σ lock ι ω Unit → Prop) (Start : σ → Prop) :
    ((plan.system Runs Start).restrict plan.KeepsApart).Player
      (Pool.Move Runs fun _ _ => False) :=
  Pool.checked (plan.player Runs Start) plan.keepsApart (KeepsApart.of_check plan)
    (fun _ _ => trivial) fun _ _ => trivial

/-! ## Programs that follow the plan -/

def contract : Contract (Locked σ lock) ι (LockNote lock ω) (Holding lock κ) where
  relies _ _ := True
  expects _ _ _ _ := True
  waits holding note _ := ∀ wanted mode, note = .acquire wanted mode → plan.Waits holding wanted
  grants _ _ _ _ _ := True

/-- The program waits only as the plan says, and leads from one holding to another. -/
structure Tracks (program : LockProgram σ lock ι ω α) (before after : Holding lock κ) : Prop where
  keeps : program.Keeps plan.holder plan.contract before fun _ final => final = after

namespace Tracks

variable {plan} {before middle after : Holding lock κ}

theorem pure (value : α) :
    plan.Tracks (Pure.pure value : LockProgram σ lock ι ω α) before before :=
  ⟨Program.Keeps.pure rfl⟩

theorem bind {program : LockProgram σ lock ι ω α} {rest : α → LockProgram σ lock ι ω β}
    (first : plan.Tracks program before middle)
    (second : ∀ value, plan.Tracks (rest value) middle after) :
    plan.Tracks (program >>= rest) before after := by
  refine ⟨Program.Keeps.bind first.keeps ?_⟩
  rintro value final rfl
  exact (second value).keeps

theorem acquire {wanted : lock} {mode : Mode} (waits : plan.Waits before wanted) :
    plan.Tracks (LockProgram.acquire wanted mode : LockProgram σ lock ι ω Unit) before
      (plan.see before (.acquire wanted mode)) := by
  refine ⟨Program.Keeps.await ?_ (fun _ _ _ _ => trivial) fun _ _ _ _ => rfl⟩
  rintro _ _ _ _ ⟨⟩
  exact waits

theorem release (held : lock) (mode : Mode) :
    plan.Tracks (LockProgram.release held mode : LockProgram σ lock ι ω Unit) before
      (plan.see before (.release held mode)) :=
  ⟨Program.Keeps.update (fun _ _ _ _ => trivial) fun _ _ _ _ => rfl⟩

theorem modify (note : ω) (change : ι → σ → σ) :
    plan.Tracks (LockProgram.modify note change : LockProgram σ lock ι ω Unit) before
      (plan.see before (.work note)) :=
  ⟨Program.Keeps.update (fun _ _ _ _ => trivial) fun _ _ _ _ => rfl⟩

theorem look (note : ω) (value : ι → σ → α) :
    plan.Tracks (LockProgram.look note value : LockProgram σ lock ι ω α) before
      (plan.see before (.work note)) :=
  ⟨Program.Keeps.update (fun _ _ _ _ => trivial) fun _ _ _ _ => rfl⟩

theorem within {held : lock} {mode : Mode} {inner : LockProgram σ lock ι ω α}
    (waits : plan.Waits before held)
    (body : plan.Tracks inner (plan.see before (.acquire held mode)) middle) :
    plan.Tracks (LockProgram.within held mode inner) before
      (plan.see middle (.release held mode)) :=
  (acquire waits).bind fun _ => body.bind fun _ => (release held mode).bind fun _ => pure _

theorem discard {program : LockProgram σ lock ι ω α} (tracks : plan.Tracks program before after) :
    plan.Tracks (Program.discard program) before after :=
  tracks.bind fun _ => pure _

end Tracks

/-! ## No deadlock -/

variable {plan}

/-- Every thread waits only as the plan says, and no two threads are rivals. -/
structure Orderly (plan : LockPlan lock ω κ) (s : Pools σ lock ι ω κ) : Prop where
  tracked : ∀ thread ∈ s.threads,
    thread.program.Keeps plan.holder plan.contract thread.seen fun _ _ => True
  apart : ∀ thread ∈ s.threads, ∀ other ∈ s.threads,
    plan.rival thread.seen.stage other.seen.stage = false

namespace Orderly

variable {s : Pools σ lock ι ω κ} {index : Nat}

theorem spawn (orderly : plan.Orderly s) {program : LockProgram σ lock ι ω Unit}
    {final : Holding lock κ} (tracks : plan.Tracks program plan.nothing final) :
    plan.Orderly { s with threads := s.threads ++ [⟨program, plan.nothing⟩] } := by
  have quiet : ∀ stage, plan.rival stage plan.nothing.stage = false :=
    fun stage => (plan.symm _ _).trans (plan.calm stage)
  refine ⟨?_, ?_⟩
  · refine List.forall_mem_append.mpr ⟨orderly.tracked, ?_⟩
    intro thread member
    rw [List.mem_singleton.mp member]
    exact tracks.keeps.weaken fun _ _ _ => trivial
  · intro thread member
    refine List.forall_mem_append.mpr ⟨?_, ?_⟩
    · intro other present
      obtain known | new := List.mem_append.mp member
      · exact orderly.apart thread known other present
      · rw [List.mem_singleton.mp new]
        exact plan.calm _
    · intro other new
      rw [List.mem_singleton.mp new]
      exact quiet _

theorem run (orderly : plan.Orderly s) {input : ι} {note : LockNote lock ω}
    {ready : Locked σ lock → Bool} {act : ι → Locked σ lock → Locked σ lock}
    {next : ι → Locked σ lock → LockProgram σ lock ι ω Unit} {seen : Holding lock κ}
    (here : s.threads[index]? = some ⟨.act note ready act next, seen⟩)
    (enabled : ready s.shared = true)
    (apart : ∀ thread ∈ s.threads,
      plan.rival (plan.advance seen note) thread.seen.stage = false) :
    plan.Orderly { shared := act input s.shared
                   threads := s.threads.set index
                     ⟨next input s.shared, plan.see seen note⟩ } := by
  have member := List.mem_of_getElem? here
  refine ⟨?_, ?_⟩
  · intro thread present
    obtain old | rfl := List.mem_or_eq_of_mem_set present
    · exact orderly.tracked thread old
    · exact ((orderly.tracked _ member).2 input s.shared enabled trivial trivial).2
  · intro thread present other present'
    obtain old | rfl := List.mem_or_eq_of_mem_set present
    · obtain old' | rfl := List.mem_or_eq_of_mem_set present'
      · exact orderly.apart thread old other old'
      · exact (plan.symm _ _).trans (apart thread old)
    · obtain old' | rfl := List.mem_or_eq_of_mem_set present'
      · exact apart other old'
      · exact plan.irrefl _

theorem of_reachable {Runs : LockProgram σ lock ι ω Unit → Prop} {Start : σ → Prop}
    (follow : ∀ program, Runs program → plan.Tracks program plan.nothing plan.nothing)
    (reached : ((plan.system Runs Start).restrict plan.KeepsApart).Reachable s) :
    plan.Orderly s := by
  refine reached.invariant (P := plan.Orderly) ?_ ?_
  · rintro s ⟨empty, -⟩
    exact ⟨by simp [empty], by simp [empty]⟩
  · rintro s label t orderly ⟨apart, step⟩
    cases step with
    | spawn program runs => exact orderly.spawn (follow program runs)
    | run index input note ready act next seen here enabled =>
      exact orderly.run here enabled (apart _ _ _ _ _ here)
    | background shared never => cases never

/-- What a waiting thread asks for and holds. -/
theorem waits (orderly : plan.Orderly s) {wanted : lock} {mode : Mode}
    (waiting : waitsFor s index = some (wanted, mode)) :
    ∃ thread ∈ s.threads, holds s index = thread.seen.locks ∧
      plan.Waits thread.seen wanted := by
  rw [waitsFor] at waiting
  split at waiting
  · next asked mode' ready act next seen here =>
      split at waiting
      · cases waiting
      · next blocked =>
          cases waiting
          have member := List.mem_of_getElem? here
          refine ⟨_, member, by simp only [holds, here], ?_⟩
          exact (orderly.tracked _ member).1 s.shared (by simpa using blocked) _ _ rfl
  · cases waiting

end Orderly

/-- There is no deadlock while the locks are asked for in the order of some rank. -/
theorem not_deadlocked {s : Pools σ lock ι ω κ} (orderly : plan.Orderly s) (rank : lock → Nat)
    (bound : Nat) (bounded : ∀ l, rank l ≤ bound)
    (ordered : ∀ thread ∈ s.threads, ∀ wanted, plan.Waits thread.seen wanted →
      ∀ held ∈ thread.seen.locks, rank held.1 < rank wanted) (members : Set Nat) :
    ¬ Deadlocked (waitsFor s) (holds s) members := by
  refine not_deadlocked_of_rank rank bound bounded ?_ members
  intro index wanted mode waiting held member
  obtain ⟨thread, present, same, waits⟩ := orderly.waits waiting
  rw [same] at member
  exact ordered thread present wanted waits held member

end LockPlan

/-! ## Running alone -/

variable {σ lock ι ω α β : Type}

/-- The state in which a lock has been taken. -/
def Locked.taken [DecidableEq lock] (s : Locked σ lock) (wanted : lock) (mode : Mode) :
    Locked σ lock :=
  { s with locks := Function.update s.locks wanted ((s.locks wanted).take mode) }

namespace LockProgram

section Runs

variable {s t : Locked σ lock} {value : α}

variable {trace : List (LockNote lock ω × ι)} {note : ω} {mode : Mode}

theorem runs_look {result : ι → σ → α} :
    (look note result : LockProgram σ lock ι ω α).Runs s trace value t ↔
      ∃ input, trace = [(.work note, input)] ∧ value = result input s.data ∧ t = s :=
  Program.runs_query

theorem runs_modify {change : ι → σ → σ} :
    (modify note change).Runs s trace () t ↔
      ∃ input, trace = [(.work note, input)] ∧ t = { s with data := change input s.data } :=
  Program.runs_update.trans <| by simp

theorem canBlock_look {result : ι → σ → α} {rest : α → LockProgram σ lock ι ω β} :
    (look note result >>= rest).CanBlock s ↔ ∃ input, (rest (result input s.data)).CanBlock s :=
  Program.canBlock_update_bind

variable [DecidableEq lock]

/-- A section whose body leaves the locks alone leaves them alone. -/
theorem runs_within {held : lock} {inner : LockProgram σ lock ι ω α}
    (runs : (within held mode inner).Runs s trace value t)
    (leaves : ∀ body u, inner.Runs (s.taken held mode) body value u →
      u.locks = (s.taken held mode).locks) :
    (s.locks held).admits mode = true ∧ t.locks = s.locks ∧ ∃ first body last u,
      trace = (.acquire held mode, first) :: body ++ [(.release held mode, last)] ∧
        inner.Runs (s.taken held mode) body value u ∧ t.data = u.data := by
  obtain ⟨_, _, _, _, rfl, acquired, runs⟩ := Program.runs_bind.mp runs
  obtain ⟨admitted, first, rfl, rfl⟩ := Program.runs_await.mp acquired
  obtain ⟨body, _, result, u, rfl, inside, runs⟩ := Program.runs_bind.mp runs
  obtain ⟨_, _, _, _, rfl, released, runs⟩ := Program.runs_bind.mp runs
  obtain ⟨last, rfl, -, rfl⟩ := Program.runs_update.mp released
  obtain ⟨rfl, rfl, rfl⟩ := Program.runs_pure.mp runs
  have same : u.locks = Function.update s.locks held ((s.locks held).take mode) :=
    leaves body u inside
  have dropped : Function.update u.locks held ((u.locks held).drop mode) = s.locks := by
    rw [same, Function.update_self, RwLock.drop_take admitted, Function.update_idem,
      Function.update_eq_self]
  exact ⟨admitted, dropped, first, body, last, u, by simp, inside, rfl⟩

/-- A section whose lock can be had waits in its body only. -/
theorem canBlock_within {held : lock} {inner : LockProgram σ lock ι ω α} [Nonempty ι]
    (admitted : (s.locks held).admits mode = true) :
    (within held mode inner).CanBlock s ↔ inner.CanBlock (s.taken held mode) := by
  have acquires : ¬ (acquire held mode : LockProgram σ lock ι ω Unit).CanBlock s := by
    rw [acquire, Program.canBlock_await, admitted]
    exact Bool.noConfusion
  have ends : ∀ (value : α) (u : Locked σ lock), ¬ (do
      release held mode
      pure value : LockProgram σ lock ι ω α).CanBlock u := by
    intro value u blocks
    obtain releases | ⟨_, _, _, _, never⟩ := Program.canBlock_bind.mp blocks
    · exact Program.not_canBlock_update _ _ _ releases
    · exact never
  rw [within, Program.canBlock_bind, or_iff_right acquires]
  constructor
  · rintro ⟨_, _, _, acquired, blocks⟩
    obtain ⟨-, _, -, rfl⟩ := Program.runs_await.mp acquired
    obtain inside | ⟨_, value, u, -, later⟩ := Program.canBlock_bind.mp blocks
    · exact inside
    · exact absurd later (ends value u)
  · intro inside
    obtain ⟨input⟩ := ‹Nonempty ι›
    exact ⟨_, (), _, Program.runs_await.mpr ⟨admitted, input, rfl, rfl⟩,
      Program.canBlock_bind.mpr (.inl inside)⟩

theorem admits_of_writer {rwLock : RwLock} (writes : rwLock.writer = true) :
    rwLock.admits mode = false := by
  cases mode with
  | read => simp [RwLock.admits, writes]
  | write => simp [RwLock.admits, writes]

end Runs

end LockProgram

end UHorse.Lib
