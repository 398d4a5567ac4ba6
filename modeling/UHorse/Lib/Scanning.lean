import Mathlib.Data.List.Basic

/-!
# Readers that take one character at a time

A reader is a step that takes a character or finds the text malformed. Two facts about such readers
come from one fact about the step: how much can have been read out of a text, and what is known of
it if nothing of the text was spent on marks.
-/

namespace UHorse.Lib

variable {α σ : Type*} {step : σ → α → Option σ}

theorem foldlM_cons_eq_some {s s' : σ} {a : α} {text : List α} :
    (a :: text).foldlM step s = some s' ↔
      ∃ middle, step s a = some middle ∧ text.foldlM step middle = some s' := by
  rw [List.foldlM_cons]
  exact Option.bind_eq_some_iff

/-- Characters that a stage takes alike are taken one after the other. -/
theorem foldlM_of_taken {P : α → Prop} (after : List α → σ)
    (taken : ∀ front a, P a → step (after front) a = some (after (front ++ [a]))) :
    ∀ {text : List α}, (∀ a ∈ text, P a) → ∀ front,
      text.foldlM step (after front) = some (after (front ++ text))
  | [], _, front => by rw [List.append_nil, List.foldlM_nil]; rfl
  | a :: text, each, front => by
      refine foldlM_cons_eq_some.mpr ⟨_, taken front a (each a List.mem_cons_self), ?_⟩
      rw [foldlM_of_taken after taken (fun b member => each b (List.mem_cons_of_mem a member)),
        List.append_assoc, List.singleton_append]

/-- What a step does to the weight of what has been read out. -/
structure Weighed (step : σ → α → Option σ) (weight : σ → Nat) (clean : σ → Prop) : Prop where
  bounded {s s' : σ} {a : α} : step s a = some s' → weight s' ≤ weight s + 1
  kept {s s' : σ} {a : α} : step s a = some s' → weight s' = weight s + 1 → clean s → clean s'

namespace Weighed

variable {weight : σ → Nat} {clean : σ → Prop}

theorem bounded_run (weighed : Weighed step weight clean) {text : List α} {s s' : σ}
    (reads : text.foldlM step s = some s') : weight s' ≤ weight s + text.length := by
  induction text generalizing s with
  | nil =>
    cases reads
    exact Nat.le_refl _
  | cons a text ih =>
    obtain ⟨middle, one, rest⟩ := foldlM_cons_eq_some.mp reads
    have first := weighed.bounded one
    have later := ih rest
    rw [List.length_cons]
    omega

/-- If every character of a text counts, then every step kept the text clean. -/
theorem kept_run (weighed : Weighed step weight clean) {text : List α} {s s' : σ}
    (reads : text.foldlM step s = some s') (full : weight s + text.length ≤ weight s')
    (here : clean s) : clean s' := by
  induction text generalizing s with
  | nil =>
    cases reads
    exact here
  | cons a text ih =>
    obtain ⟨middle, one, rest⟩ := foldlM_cons_eq_some.mp reads
    have first := weighed.bounded one
    have later := weighed.bounded_run rest
    rw [List.length_cons] at full
    exact ih rest (by omega) (weighed.kept one (by omega) here)

end Weighed

end UHorse.Lib
