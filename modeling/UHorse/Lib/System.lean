import Mathlib.Data.List.Basic

/-!
# Labelled transition systems and their finite executions

A system says in which states it may start and which labelled steps it can
take. Concurrency is expressed by the labels: a step names the process that
moves and everything it reads from outside, so an execution is one interleaving.

`restrict` keeps only the steps that meet a condition on the state before the
step and its label. An execution of the restricted system is an execution of
the original one all of whose steps meet that condition.
-/

namespace UHorse.Lib

/-- A labelled transition system over states `σ` and step labels `α`. -/
structure System (σ : Type*) (α : Type*) where
  Init : σ → Prop
  Step : σ → α → σ → Prop

namespace System

variable {σ : Type*} {α : Type*}

/-- Finite executions with the labels of their steps, oldest step first. -/
inductive Exec (M : System σ α) : σ → List α → σ → Prop
  | refl (s : σ) : Exec M s [] s
  | snoc {s t u : σ} {labels : List α} {a : α} :
      Exec M s labels t → M.Step t a u → Exec M s (labels ++ [a]) u

/-- States some execution from an initial state ends in. -/
def Reachable (M : System σ α) (t : σ) : Prop :=
  ∃ s labels, M.Init s ∧ M.Exec s labels t

/-- Keep the steps that meet `guard` in the state they start from. -/
def restrict (M : System σ α) (guard : σ → α → Prop) : System σ α where
  Init := M.Init
  Step s a t := guard s a ∧ M.Step s a t

/-- Remember something about the steps that were taken; what is remembered does not
influence them. -/
def observe {κ : Type*} (M : System σ α) (start : κ) (see : κ → σ → α → κ) : System (σ × κ) α where
  Init s := M.Init s.1 ∧ s.2 = start
  Step s a t := M.Step s.1 a t.1 ∧ t.2 = see s.2 s.1 a

variable {M : System σ α} {guard : σ → α → Prop}

theorem Exec.single {s t : σ} {a : α} (step : M.Step s a t) : M.Exec s [a] t :=
  .snoc (.refl s) step

theorem Exec.append {s t u : σ} {first second : List α}
    (left : M.Exec s first t) (right : M.Exec t second u) : M.Exec s (first ++ second) u := by
  induction right with
  | refl => simpa using left
  | snoc _ step ih => simpa only [List.append_assoc] using Exec.snoc ih step

/-- A property that every step preserves holds at the end of an execution. -/
theorem Exec.invariant {P : σ → Prop} (preserved : ∀ s a t, P s → M.Step s a t → P t)
    {s t : σ} {labels : List α} (run : M.Exec s labels t) (start : P s) : P t := by
  induction run with
  | refl => exact start
  | snoc _ step ih => exact preserved _ _ _ ih step

/-- Executions of a system with fewer steps are executions of the larger one. -/
theorem Exec.mono {N : System σ α} (included : ∀ s a t, M.Step s a t → N.Step s a t)
    {s t : σ} {labels : List α} (run : M.Exec s labels t) : N.Exec s labels t := by
  induction run with
  | refl => exact .refl _
  | snoc _ step ih => exact ih.snoc (included _ _ _ step)

theorem Exec.of_restrict {s t : σ} {labels : List α}
    (run : (M.restrict guard).Exec s labels t) : M.Exec s labels t :=
  run.mono (fun _ _ _ step => And.right step)

theorem Reachable.init {s : σ} (start : M.Init s) : M.Reachable s :=
  ⟨s, [], start, .refl s⟩

theorem Reachable.exec {s t : σ} {labels : List α} (reached : M.Reachable s)
    (run : M.Exec s labels t) : M.Reachable t := by
  obtain ⟨origin, before, start, path⟩ := reached
  exact ⟨origin, before ++ labels, start, path.append run⟩

theorem Reachable.step {s t : σ} {a : α} (reached : M.Reachable s) (step : M.Step s a t) :
    M.Reachable t :=
  reached.exec (.single step)

/-- The invariant rule: true at the start and preserved by every step from a
state where it holds. -/
theorem Reachable.invariant {P : σ → Prop} (initial : ∀ s, M.Init s → P s)
    (preserved : ∀ s a t, P s → M.Step s a t → P t) {t : σ} (reached : M.Reachable t) : P t := by
  obtain ⟨s, labels, start, run⟩ := reached
  exact run.invariant preserved (initial s start)

theorem Reachable.mono {N : System σ α} (initial : ∀ s, M.Init s → N.Init s)
    (included : ∀ s a t, M.Step s a t → N.Step s a t) {t : σ} (reached : M.Reachable t) :
    N.Reachable t := by
  obtain ⟨s, labels, start, run⟩ := reached
  exact ⟨s, labels, initial s start, run.mono included⟩

theorem Reachable.of_restrict {t : σ} (reached : (M.restrict guard).Reachable t) :
    M.Reachable t := by
  refine reached.mono ?_ ?_
  · intro s start
    exact start
  · rintro s a t ⟨_, step⟩
    exact step

/-- Whatever is reached is reached with something remembered. -/
theorem Reachable.observed {κ : Type*} (start : κ) (see : κ → σ → α → κ) {t : σ}
    (reached : M.Reachable t) : ∃ seen, (M.observe start see).Reachable (t, seen) := by
  refine reached.invariant (P := fun t => ∃ seen, (M.observe start see).Reachable (t, seen)) ?_ ?_
  · intro s begun
    exact ⟨start, .init ⟨begun, rfl⟩⟩
  · rintro s a t ⟨seen, before⟩ step
    exact ⟨see seen s a, before.step ⟨step, rfl⟩⟩

/-- A condition that every step meets excludes nothing. -/
theorem Reachable.restrict_true {t : σ} (reached : M.Reachable t) :
    (M.restrict fun _ _ => True).Reachable t := by
  refine reached.mono ?_ ?_
  · intro s start
    exact start
  · intro s a t step
    exact ⟨trivial, step⟩

/-! ### Computed steps -/

/-- Steps of a system that can be computed: for an entry of a script, the label of a step and
the state after it. -/
structure Player (M : System σ α) (β : Type*) where
  move : σ → β → Option (α × σ)
  sound : ∀ s b a t, move s b = some (a, t) → M.Step s a t

namespace Player

variable {β : Type*} (player : M.Player β)

/-- Only steps that are admitted, each of which meets the guard. -/
def restrict (admits : σ → α → Bool) (meets : ∀ s a, admits s a = true → guard s a) :
    (M.restrict guard).Player β where
  move s b := (player.move s b).filter fun step => admits s step.1
  sound s b a t moved := by
    obtain ⟨moves, admitted⟩ := Option.filter_eq_some_iff.mp moved
    exact ⟨meets s a admitted, player.sound _ _ _ _ moves⟩

/-- Any steps. -/
def any : (M.restrict fun _ _ => True).Player β :=
  player.restrict (fun _ _ => true) fun _ _ _ => trivial

def observe {κ : Type*} (start : κ) (see : κ → σ → α → κ) : (M.observe start see).Player β where
  move s b := (player.move s.1 b).map fun step => (step.1, step.2, see s.2 s.1 step.1)
  sound s b a t moved := by
    obtain ⟨step, moves, same⟩ := Option.map_eq_some_iff.mp moved
    cases same
    exact ⟨player.sound _ _ _ _ moves, rfl⟩

/-- The state after a script, if every entry of it names a step. -/
def play : σ → List β → Option σ
  | s, [] => some s
  | s, b :: script => (player.move s b).bind fun step => play step.2 script

theorem exec_play {s t : σ} {script : List β} (played : player.play s script = some t) :
    ∃ labels, M.Exec s labels t := by
  induction script generalizing s with
  | nil =>
    cases played
    exact ⟨[], .refl _⟩
  | cons b script ih =>
    obtain ⟨step, moved, rest⟩ := Option.bind_eq_some_iff.mp played
    obtain ⟨labels, run⟩ := ih rest
    exact ⟨_, (Exec.single (player.sound _ _ _ _ moved)).append run⟩

/-- A script that ends in a state with a property shows that such a state is reached. -/
theorem exists_reachable {s : σ} (reached : M.Reachable s) (script : List β) (P : σ → Prop)
    [DecidablePred P] (played : (player.play s script).any P = true) :
    ∃ t, M.Reachable t ∧ P t := by
  obtain ⟨t, ends, holds⟩ := (Option.any_eq_true _ _).mp played
  obtain ⟨labels, run⟩ := player.exec_play ends
  exact ⟨t, reached.exec run, of_decide_eq_true holds⟩

/-- The same for a script and what it goes on to within a guard. -/
theorem exists_exec (within : (M.restrict guard).Player β) {s : σ} (reached : M.Reachable s)
    (script later : List β) (P : σ → σ → Prop) [∀ t u, Decidable (P t u)]
    (played : (player.play s script).any (fun t => (within.play t later).any fun u => P t u) =
      true) :
    ∃ t u labels, M.Reachable t ∧ (M.restrict guard).Exec t labels u ∧ P t u := by
  obtain ⟨t, ends, goesOn⟩ := (Option.any_eq_true _ _).mp played
  obtain ⟨u, played, holds⟩ := (Option.any_eq_true _ _).mp goesOn
  obtain ⟨before, run⟩ := player.exec_play ends
  obtain ⟨labels, more⟩ := within.exec_play played
  exact ⟨t, u, labels, reached.exec run, more, of_decide_eq_true holds⟩

end Player

end System

/-! ## Conditions along a run -/

/-- Every step that `run` takes along the labels meets `P` in the state it starts from. -/
def Along {σ α : Type*} (run : σ → α → σ) (P : σ → α → Prop) : σ → List α → Prop
  | _, [] => True
  | s, a :: rest => P s a ∧ Along run P (run s a) rest

section Along

variable {σ α : Type*} {run : σ → α → σ} {I : σ → Prop} {P Q fits : σ → α → Prop} {s : σ}

/-- Two conditions that agree wherever an invariant holds agree along a run, if steps that
meet the first keep the invariant. -/
theorem along_iff {labels : List α} (kept : ∀ s a, I s → fits s a → P s a → I (run s a))
    (same : ∀ s a, I s → fits s a → (P s a ↔ Q s a)) (start : I s)
    (fitting : Along run fits s labels) : Along run P s labels ↔ Along run Q s labels := by
  induction labels generalizing s with
  | nil => exact Iff.rfl
  | cons a labels ih =>
    obtain ⟨here, later⟩ := fitting
    rw [Along, Along, same s a start here]
    refine and_congr_right fun met => ?_
    exact ih (kept s a start here ((same s a start here).mpr met)) later

theorem along_of_mem {labels : List α} (all : ∀ s, ∀ a ∈ labels, P s a) (s : σ) :
    Along run P s labels := by
  induction labels generalizing s with
  | nil => trivial
  | cons a labels ih =>
    have later : ∀ s, ∀ b ∈ labels, P s b := fun s b member =>
      all s b (List.mem_cons_of_mem a member)
    exact ⟨all s a List.mem_cons_self, ih later (run s a)⟩

theorem along_of_forall (all : ∀ s a, P s a) (s : σ) (labels : List α) : Along run P s labels :=
  along_of_mem (fun s a _ => all s a) s

/-- The same without a condition that every run has to meet. -/
theorem along_congr {labels : List α} (kept : ∀ s a, I s → P s a → I (run s a))
    (same : ∀ s a, I s → (P s a ↔ Q s a)) (start : I s) :
    Along run P s labels ↔ Along run Q s labels := by
  have fitting : Along run (fun _ _ => True) s labels :=
    along_of_forall (fun _ _ => trivial) s labels
  exact along_iff (fun s a holds _ => kept s a holds) (fun s a holds _ => same s a holds) start
    fitting

/-- What follows from a condition where an invariant holds, along a run that meets the condition. -/
theorem Along.imp {labels : List α} (along : Along run P s labels)
    (kept : ∀ s a, I s → P s a → I (run s a)) (gives : ∀ s a, I s → P s a → Q s a)
    (start : I s) : Along run Q s labels := by
  induction labels generalizing s with
  | nil => trivial
  | cons a labels ih =>
    obtain ⟨here, later⟩ := along
    exact ⟨gives s a start here, ih later (kept s a start here)⟩

end Along

end UHorse.Lib
