import Mathlib.Order.Filter.AtTopBot.Basic
import UHorse.Lib.System

/-!
# Infinite behaviours

A behaviour of a system is a state for each time. Between two times the system takes a step or
rests, so a system that stops has behaviours too, and a finite execution is the beginning of one.

What happens again and again is what happens frequently along the times. A measure that never
falls and rises again and again exceeds every bound.
-/

namespace UHorse.Lib

open Filter

variable {σ : Type*} {α : Type*}

structure Behaviour (M : System σ α) where
  state : ℕ → σ
  label : ℕ → Option α
  start : M.Init (state 0)
  next : ∀ i, (label i = none ∧ state (i + 1) = state i) ∨
    ∃ a, label i = some a ∧ M.Step (state i) a (state (i + 1))

namespace Behaviour

variable {M : System σ α} {guard : σ → α → Prop}

theorem step (b : Behaviour M) {i : ℕ} {a : α} (taken : b.label i = some a) :
    M.Step (b.state i) a (b.state (i + 1)) := by
  obtain ⟨rests, -⟩ | ⟨found, same, step⟩ := b.next i
  · cases taken.symm.trans rests
  · cases taken.symm.trans same
    exact step

/-- What relates the states around every step relates every two states in order. -/
theorem relates (b : Behaviour M) (related : σ → σ → Prop) (refl : ∀ s, related s s)
    (trans : ∀ s t u, related s t → related t u → related s u)
    (steps : ∀ s a t, M.Step s a t → related s t) {i j : ℕ} (before : i ≤ j) :
    related (b.state i) (b.state j) := by
  induction before with
  | refl => exact refl _
  | step _ ih =>
    refine trans _ _ _ ih ?_
    obtain ⟨-, same⟩ | ⟨a, -, step⟩ := b.next _
    · rw [same]
      exact refl _
    · exact steps _ _ _ step

theorem reachable (b : Behaviour M) (i : ℕ) : M.Reachable (b.state i) := by
  induction i with
  | zero => exact .init b.start
  | succ i ih =>
    obtain ⟨-, same⟩ | ⟨a, -, step⟩ := b.next i
    · rwa [same]
    · exact ih.step step

/-- Every step of the behaviour meets a condition. -/
def Meets (b : Behaviour M) (guard : σ → α → Prop) : Prop :=
  ∀ i a, b.label i = some a → guard (b.state i) a

/-- From a time on the behaviour rests in a state. -/
def RestsIn (b : Behaviour M) (n : ℕ) (s : σ) : Prop :=
  ∀ i, n ≤ i → b.state i = s ∧ b.label i = none

def resting (s : σ) (start : M.Init s) : Behaviour M where
  state _ := s
  label _ := none
  start := start
  next _ := .inl ⟨rfl, rfl⟩

/-- Take a step instead of going on to rest. -/
def extend (b : Behaviour M) {n : ℕ} {s t : σ} {a : α} (rests : b.RestsIn n s)
    (step : M.Step s a t) : Behaviour M where
  state i := if i ≤ n then b.state i else t
  label i := if i = n then some a else b.label i
  start := by
    rw [if_pos (Nat.zero_le n)]
    exact b.start
  next i := by
    obtain earlier | rfl | later := lt_trichotomy i n
    · rw [if_neg earlier.ne, if_pos earlier.le, if_pos (Nat.succ_le_of_lt earlier)]
      exact b.next i
    · refine .inr ⟨a, if_pos rfl, ?_⟩
      rw [if_pos le_rfl, if_neg (Nat.not_succ_le_self i), (rests i le_rfl).1]
      exact step
    · refine .inl ⟨?_, ?_⟩
      · rw [if_neg later.ne', (rests i later.le).2]
      · rw [if_neg (Nat.not_le_of_gt later), if_neg (by omega)]

theorem restsIn_extend (b : Behaviour M) {n : ℕ} {s t : σ} {a : α} (rests : b.RestsIn n s)
    (step : M.Step s a t) : (b.extend rests step).RestsIn (n + 1) t := by
  intro i late
  refine ⟨if_neg (by omega), ?_⟩
  have distinct : i ≠ n := by omega
  exact (if_neg distinct).trans (rests i (by omega)).2

theorem meets_extend (b : Behaviour M) {n : ℕ} {s t : σ} {a : α} (rests : b.RestsIn n s)
    (step : M.Step s a t) (meets : b.Meets guard) (met : guard s a) :
    (b.extend rests step).Meets guard := by
  intro i c taken
  dsimp only [extend] at taken ⊢
  split at taken
  · next same =>
      subst same
      cases taken
      rw [if_pos le_rfl, (rests i le_rfl).1]
      exact met
  · next distinct =>
      have early : i ≤ n := by
        by_contra late
        rw [(rests i (by omega)).2] at taken
        cases taken
      rw [if_pos early]
      exact meets i c taken

/-- Whatever can be reached, a behaviour reaches and rests in. -/
theorem exists_restsIn {t : σ} (reached : (M.restrict guard).Reachable t) :
    ∃ (b : Behaviour M) (n : ℕ), b.Meets guard ∧ b.RestsIn n t := by
  refine reached.invariant
    (P := fun t => ∃ (b : Behaviour M) (n : ℕ), b.Meets guard ∧ b.RestsIn n t) ?_ ?_
  · intro s start
    exact ⟨resting s start, 0, nofun, fun _ _ => ⟨rfl, rfl⟩⟩
  · rintro s a t ⟨b, n, meets, rests⟩ ⟨met, step⟩
    exact ⟨b.extend rests step, n + 1, b.meets_extend rests step meets met,
      b.restsIn_extend rests step⟩

/-- Something happens again and again. -/
def Recurs (event : ℕ → Prop) : Prop := ∃ᶠ i in atTop, event i

theorem recurs_iff {event : ℕ → Prop} : Recurs event ↔ ∀ n, ∃ i ≥ n, event i :=
  frequently_atTop

theorem RestsIn.recurs {b : Behaviour M} {n : ℕ} {s : σ} (rests : b.RestsIn n s)
    {P : σ → Prop} (here : P s) : Recurs fun i => P (b.state i) := by
  refine recurs_iff.mpr fun m => ⟨max m n, le_max_left _ _, ?_⟩
  rw [(rests _ (le_max_right _ _)).1]
  exact here

theorem RestsIn.not_recurs {b : Behaviour M} {n : ℕ} {s : σ} (rests : b.RestsIn n s)
    {P : σ → Prop} (never : ¬ P s) : ¬ Recurs fun i => P (b.state i) := by
  intro recurs
  obtain ⟨i, late, holds⟩ := recurs_iff.mp recurs n
  rw [(rests i late).1] at holds
  exact never holds

/-- A measure that never falls and rises again and again exceeds every bound. -/
theorem exists_lt_of_recurs {measure : ℕ → ℕ} (monotone : Monotone measure)
    (rises : Recurs fun i => measure i < measure (i + 1)) (bound : ℕ) :
    ∃ i, bound < measure i := by
  induction bound with
  | zero =>
    obtain ⟨i, -, higher⟩ := recurs_iff.mp rises 0
    exact ⟨i + 1, Nat.zero_lt_of_lt higher⟩
  | succ bound ih =>
    obtain ⟨n, above⟩ := ih
    obtain ⟨i, late, higher⟩ := recurs_iff.mp rises n
    have kept : measure n ≤ measure i := monotone late
    exact ⟨i + 1, by omega⟩

end Behaviour

end UHorse.Lib
