import Mathlib.Data.List.Induction
import UHorse.Lib.System

/-!
# Concurrent programs as trees of atomic actions

A program is finished or performs one atomic action on a shared state and
continues with what the action returned. Programs compose with `bind`, so code
that awaits locks, channels and remote calls is written in `do` notation, one
action for each section that runs without interruption. An action also reads an
input, which stands for everything it gets from outside.

A pool runs programs interleaved over one shared state. Each thread carries what
an observer remembers of the actions it has performed; observers never influence
a run. `Program.Keeps` is a rely-guarantee judgement relative to an observer: as
long as a thread may rely on its assertion and meets the inputs it expects, each
of its actions grants what the contract promises to the other threads.
-/

namespace UHorse.Lib

/-- A program over shared states `σ` and inputs `ι` whose actions carry notes `ω`. -/
inductive Program (σ ι ω α : Type) : Type
  | done (value : α)
  | act (note : ω) (ready : σ → Bool) (run : ι → σ → σ) (next : ι → σ → Program σ ι ω α)

namespace Program

variable {σ ι ω α β : Type}

def bind : Program σ ι ω α → (α → Program σ ι ω β) → Program σ ι ω β
  | .done value, rest => rest value
  | .act note ready run next, rest =>
    .act note ready run (fun input s => (next input s).bind rest)

instance : Monad (Program σ ι ω) where
  pure := .done
  bind := bind

/-- Change the shared state, without waiting, and return a value. -/
def update (note : ω) (run : ι → σ → σ) (value : ι → σ → α) : Program σ ι ω α :=
  .act note (fun _ => true) run (fun input s => .done (value input s))

/-- Look at the shared state and the input. -/
def query (note : ω) (value : ι → σ → α) : Program σ ι ω α :=
  update note (fun _ s => s) value

/-- Change the shared state once it is ready. -/
def await (note : ω) (ready : σ → Bool) (run : ι → σ → σ) : Program σ ι ω Unit :=
  .act note ready run (fun _ _ => .done ())

/-- A program whose result is dropped. -/
def discard (program : Program σ ι ω α) : Program σ ι ω Unit := do
  let _ ← program
  pure ()

/-- Run a program on parts of a larger state and of larger inputs, under other notes. -/
def zoom {τ κ υ : Type} (get : τ → σ) (put : σ → τ → τ) (ask : κ → ι) (rename : ω → υ) :
    Program σ ι ω α → Program τ κ υ α
  | .done value => .done value
  | .act note ready run next =>
    .act (rename note) (fun t => ready (get t)) (fun input t => put (run (ask input) (get t)) t)
      (fun input t => (next (ask input) (get t)).zoom get put ask rename)

def isDone : Program σ ι ω α → Bool
  | .done _ => true
  | .act .. => false

end Program

/-- What is remembered of a thread's actions, from their notes, their inputs and
the states they ran in. -/
structure Observer (σ ι ω κ : Type) where
  start : κ
  see : κ → ω → ι → σ → κ

/-! ## Pools -/

structure Thread (σ ι ω ρ κ : Type) where
  program : Program σ ι ω ρ
  seen : κ

structure Pool (σ ι ω ρ κ : Type) where
  shared : σ
  threads : List (Thread σ ι ω ρ κ)

inductive PoolLabel (σ ι ω ρ : Type)
  | spawn (program : Program σ ι ω ρ)
  | run (index : Nat) (input : ι)
  | background (shared : σ)

namespace Pool

variable {σ ι ω ρ κ : Type}

/-- A thread that may start starts, a thread performs an action that is ready, or
something else changes the shared state. -/
inductive Step (observer : Observer σ ι ω κ) (Spawns : Program σ ι ω ρ → Prop)
    (Background : σ → σ → Prop) : Pool σ ι ω ρ κ → PoolLabel σ ι ω ρ → Pool σ ι ω ρ κ → Prop
  | spawn (s : Pool σ ι ω ρ κ) (program : Program σ ι ω ρ) (can : Spawns program) :
      Step observer Spawns Background s (.spawn program)
        { s with threads := s.threads ++ [⟨program, observer.start⟩] }
  | run (s : Pool σ ι ω ρ κ) (index : Nat) (input : ι) (note : ω) (ready : σ → Bool)
      (act : ι → σ → σ) (next : ι → σ → Program σ ι ω ρ) (seen : κ)
      (here : s.threads[index]? = some ⟨.act note ready act next, seen⟩)
      (enabled : ready s.shared = true) :
      Step observer Spawns Background s (.run index input)
        { shared := act input s.shared
          threads := s.threads.set index
            ⟨next input s.shared, observer.see seen note input s.shared⟩ }
  | background (s : Pool σ ι ω ρ κ) (shared : σ) (can : Background s.shared shared) :
      Step observer Spawns Background s (.background shared) { s with shared }

def system (observer : Observer σ ι ω κ) (Spawns : Program σ ι ω ρ → Prop)
    (Background : σ → σ → Prop) (Start : σ → Prop) :
    System (Pool σ ι ω ρ κ) (PoolLabel σ ι ω ρ) where
  Init s := s.threads = [] ∧ Start s.shared
  Step := Step observer Spawns Background

/-! ### Running a pool -/

variable (observer : Observer σ ι ω κ)

/-- Perform the next action of one thread, if it is ready and `admits` it. -/
def runAt (admits : Pool σ ι ω ρ κ → ω → ι → Bool) (s : Pool σ ι ω ρ κ) (index : Nat)
    (input : ι) : Option (Pool σ ι ω ρ κ) :=
  match s.threads[index]? with
  | some ⟨.act note ready act next, seen⟩ =>
    if ready s.shared && admits s note input then
      some { shared := act input s.shared
             threads := s.threads.set index
               ⟨next input s.shared, observer.see seen note input s.shared⟩ }
    else none
  | _ => none

def runAll (admits : Pool σ ι ω ρ κ → ω → ι → Bool) :
    Pool σ ι ω ρ κ → List (Nat × ι) → Option (Pool σ ι ω ρ κ)
  | s, [] => some s
  | s, (index, input) :: rest => (runAt observer admits s index input).bind (runAll admits · rest)

variable {observer} {Spawns : Program σ ι ω ρ → Prop} {Background : σ → σ → Prop}
  {Start : σ → Prop}

theorem step_of_runAt {s t : Pool σ ι ω ρ κ} {index : Nat} {input : ι}
    (ran : runAt observer (fun _ _ _ => true) s index input = some t) :
    (system observer Spawns Background Start).Step s (.run index input) t := by
  rw [runAt] at ran
  split at ran
  · next note ready act next seen here =>
      split at ran
      · next enabled =>
          cases ran
          exact .run s index input note ready act next seen here (Bool.and_eq_true_iff.mp enabled).1
      · cases ran
  · cases ran

/-! ### Scripts -/

/-- What a script asks for: a program that may start, a change from outside, or an action. -/
inductive Move (Spawns : Program σ ι ω ρ → Prop) (Background : σ → σ → Prop)
  | spawn (program : Program σ ι ω ρ) (can : Spawns program)
  | background (change : σ → σ) (can : ∀ s, Background s (change s))
  | run (index : Nat) (input : ι)

/-- The actions of threads, with their inputs. -/
def running (steps : List (Nat × ι)) : List (Move Spawns Background) :=
  steps.map fun step => .run step.1 step.2

def move (observer : Observer σ ι ω κ) (s : Pool σ ι ω ρ κ) :
    Move Spawns Background → Option (PoolLabel σ ι ω ρ × Pool σ ι ω ρ κ)
  | .spawn program _ =>
    some (.spawn program, { s with threads := s.threads ++ [⟨program, observer.start⟩] })
  | .background change _ =>
    some (.background (change s.shared), { s with shared := change s.shared })
  | .run index input =>
    match s.threads[index]? with
    | some ⟨.act note ready act next, seen⟩ =>
      if ready s.shared then
        some (.run index input,
          { shared := act input s.shared
            threads := s.threads.set index
              ⟨next input s.shared, observer.see seen note input s.shared⟩ })
      else none
    | _ => none

def player (observer : Observer σ ι ω κ) (Spawns : Program σ ι ω ρ → Prop)
    (Background : σ → σ → Prop) (Start : σ → Prop) :
    (system observer Spawns Background Start).Player (Move Spawns Background) where
  move := move observer
  sound s asked label t moved := by
    cases asked with
    | spawn program can =>
      cases moved
      exact .spawn s program can
    | background change can =>
      cases moved
      exact .background s _ (can s.shared)
    | run index input =>
      simp only [move] at moved
      split at moved
      · next note ready act next seen here =>
          split at moved
          · next enabled =>
              cases moved
              exact .run s index input note ready act next seen here enabled
          · cases moved
      · cases moved

section Checked

variable {S β : Type} {M : System S (PoolLabel σ ι ω ρ)} {guard : S → PoolLabel σ ι ω ρ → Prop}

/-- Only actions that pass a check; all other steps meet the guard. -/
def checked (player : M.Player β) (check : S → Nat → ι → Bool)
    (sound : ∀ s index input, check s index input = true → guard s (.run index input))
    (spawn : ∀ s program, guard s (.spawn program))
    (background : ∀ s shared, guard s (.background shared)) : (M.restrict guard).Player β :=
  player.restrict
    (fun s label => match label with
      | .run index input => check s index input
      | _ => true)
    fun s label passed => match label with
      | .run index input => sound s index input passed
      | .spawn program => spawn s program
      | .background shared => background s shared

/-- A check of the note of the next action. -/
def noteCheck (pool : S → Pool σ ι ω ρ κ) (admits : S → ω → ι → Bool) (s : S) (index : Nat)
    (input : ι) : Bool :=
  match (pool s).threads[index]? with
  | some ⟨.act note _ _ _, _⟩ => admits s note input
  | _ => true

theorem admits_of_noteCheck {pool : S → Pool σ ι ω ρ κ} {admits : S → ω → ι → Bool} {s : S}
    {index : Nat} {input : ι} (passed : noteCheck pool admits s index input = true) {note : ω}
    {ready : σ → Bool} {act : ι → σ → σ} {next : ι → σ → Program σ ι ω ρ} {seen : κ}
    (here : (pool s).threads[index]? = some ⟨.act note ready act next, seen⟩) :
    admits s note input = true := by
  rwa [noteCheck, here] at passed

end Checked

end Pool

/-! ## Rely and guarantee -/

/-- The assertion a thread relies on, the inputs it expects, the states in which it
may have to wait, and what each of its actions grants, all relative to what an
observer has seen of it. -/
structure Contract (σ ι ω κ : Type) where
  relies : κ → σ → Prop
  expects : κ → ω → ι → σ → Prop
  waits : κ → ω → σ → Prop
  grants : κ → ω → ι → σ → σ → Prop

namespace Program

variable {σ ι ω κ α β : Type} (observer : Observer σ ι ω κ) (contract : Contract σ ι ω κ)

/-- Every action of the program, run from a state the thread may rely on, grants
what the contract says, and the program ends with `post`. -/
def Keeps : Program σ ι ω α → κ → (α → κ → Prop) → Prop
  | .done value, seen, post => post value seen
  | .act note ready run next, seen, post =>
    (∀ s, ready s = false → contract.waits seen note s) ∧
    ∀ input s, ready s = true → contract.relies seen s → contract.expects seen note input s →
      contract.grants seen note input s (run input s) ∧
        (next input s).Keeps (observer.see seen note input s) post

/-- The program keeps the contract and leaves the observation as it was. -/
def Steady (program : Program σ ι ω α) (seen : κ) : Prop :=
  program.Keeps observer contract seen (fun _ after => after = seen)

variable {observer contract}

variable {program : Program σ ι ω α} {seen : κ} {post : α → κ → Prop}

theorem Keeps.weaken {post' : α → κ → Prop} (keeps : program.Keeps observer contract seen post)
    (weaker : ∀ value seen, post value seen → post' value seen) :
    program.Keeps observer contract seen post' := by
  induction program generalizing seen with
  | done value => exact weaker value seen keeps
  | act note ready run next ih =>
    refine ⟨keeps.1, ?_⟩
    intro input s isReady relied expected
    obtain ⟨granted, later⟩ := keeps.2 input s isReady relied expected
    exact ⟨granted, ih input s later⟩

theorem Keeps.bind {rest : α → Program σ ι ω β} {q : α → κ → Prop} {post : β → κ → Prop}
    (first : program.Keeps observer contract seen q)
    (second : ∀ value seen, q value seen → (rest value).Keeps observer contract seen post) :
    (program >>= rest).Keeps observer contract seen post := by
  induction program generalizing seen with
  | done value => exact second value seen first
  | act note ready run next ih =>
    refine ⟨first.1, ?_⟩
    intro input s isReady relied expected
    obtain ⟨granted, later⟩ := first.2 input s isReady relied expected
    exact ⟨granted, ih input s later⟩

theorem Keeps.pure {value : α} (here : post value seen) :
    (Pure.pure value : Program σ ι ω α).Keeps observer contract seen post := here

theorem Keeps.update {note : ω} {run : ι → σ → σ} {value : ι → σ → α}
    (granted : ∀ input s, contract.relies seen s → contract.expects seen note input s →
      contract.grants seen note input s (run input s))
    (after : ∀ input s, contract.relies seen s → contract.expects seen note input s →
      post (value input s) (observer.see seen note input s)) :
    (Program.update note run value).Keeps observer contract seen post := by
  refine ⟨nofun, ?_⟩
  intro input s _ relied expected
  exact ⟨granted input s relied expected, after input s relied expected⟩

theorem Keeps.await {note : ω} {ready : σ → Bool} {run : ι → σ → σ} {post : Unit → κ → Prop}
    (waiting : ∀ s, ready s = false → contract.waits seen note s)
    (granted : ∀ input s, contract.relies seen s → contract.expects seen note input s →
      contract.grants seen note input s (run input s))
    (after : ∀ input s, contract.relies seen s → contract.expects seen note input s →
      post () (observer.see seen note input s)) :
    (Program.await note ready run).Keeps observer contract seen post := by
  refine ⟨waiting, ?_⟩
  intro input s _ relied expected
  exact ⟨granted input s relied expected, after input s relied expected⟩

theorem Steady.pure (value : α) :
    (Pure.pure value : Program σ ι ω α).Steady observer contract seen := Keeps.pure rfl

theorem Steady.bind {rest : α → Program σ ι ω β} {post : β → κ → Prop}
    (first : program.Steady observer contract seen)
    (second : ∀ value, (rest value).Keeps observer contract seen post) :
    (program >>= rest).Keeps observer contract seen post := by
  refine Keeps.bind first ?_
  rintro value after rfl
  exact second value

/-- On the larger state a program keeps a contract that agrees on the part, as long as what
its actions grant there is granted on the whole. -/
theorem Keeps.zoom {τ ι' υ : Type} {get : τ → σ} {put : σ → τ → τ} {ask : ι' → ι} {rename : ω → υ}
    {wide : Observer τ ι' υ κ} {wider : Contract τ ι' υ κ} (sees : ∀ seen note input t,
      wide.see seen (rename note) input t = observer.see seen note (ask input) (get t))
    (waits : ∀ seen note t, contract.waits seen note (get t) → wider.waits seen (rename note) t)
    (relies : ∀ seen t, wider.relies seen t → contract.relies seen (get t))
    (expects : ∀ seen note input t, wider.expects seen (rename note) input t →
      contract.expects seen note (ask input) (get t))
    (grants : ∀ seen note input t after, wider.relies seen t →
      contract.grants seen note (ask input) (get t) after →
      wider.grants seen (rename note) input t (put after t))
    (keeps : program.Keeps observer contract seen post) :
    (program.zoom get put ask rename).Keeps wide wider seen post := by
  induction program generalizing seen with
  | done value => exact keeps
  | act note ready run next ih =>
    refine ⟨fun t blocked => waits seen note t (keeps.1 (get t) blocked), ?_⟩
    intro input t isReady relied expected
    obtain ⟨granted, later⟩ := keeps.2 (ask input) (get t) isReady (relies seen t relied)
      (expects seen note input t expected)
    refine ⟨grants seen note input t _ relied granted, ?_⟩
    rw [sees]
    exact ih (ask input) (get t) later

end Program
end UHorse.Lib
