import Mathlib.Data.List.Sort
import Mathlib.Order.Lattice

/-!
# Lists in stable order

A list is stably sorted when its elements stand by descending key, and those of one key in
the order of another list. The order survives what keeps the two lists in step: adding
elements and sorting again, and leaving elements out.

The first element of a sorted list that meets a predicate is the foremost one of the other
list: of highest key among those that meet it, and the first of these.
-/

namespace UHorse.Lib

variable {α κ : Type*} [LinearOrder κ]

/-- `sorted` has the elements of `original` by descending key, equal keys in the same order. -/
structure StablySorted (key : α → κ) (original sorted : List α) : Prop where
  perm : sorted.Perm original
  descending : sorted.Pairwise fun a b => key b ≤ key a
  stable : ∀ k, sorted.filter (fun a => key a = k) = original.filter (fun a => key a = k)

/-- The first element of highest key among those that meet `p`. -/
structure Foremost (key : α → κ) (p : α → Bool) (l : List α) (a : α) : Prop where
  meets : p a = true
  first : ∃ before after, l = before ++ a :: after ∧
    (∀ b ∈ before, p b = true → key b < key a) ∧ ∀ b ∈ after, p b = true → key b ≤ key a

/-- A list has one foremost element. -/
theorem Foremost.unique {key : α → κ} {p : α → Bool} {l : List α} {a b : α}
    (one : Foremost key p l a) (other : Foremost key p l b) : a = b := by
  obtain ⟨meets, before, after, rfl, lower, highest⟩ := one
  obtain ⟨meets', before', after', same, lower', highest'⟩ := other
  obtain ⟨gap, rfl, rest⟩ | ⟨gap, rfl, rest⟩ := List.append_eq_append_iff.mp same
  · cases gap with
    | nil => exact (List.cons.inj rest).1
    | cons c gap =>
      obtain ⟨rfl, rfl⟩ := List.cons.inj rest
      have below := lower' a (by simp) meets
      exact absurd below (not_lt.mpr (highest b (by simp) meets'))
  · cases gap with
    | nil => exact (List.cons.inj rest).1.symm
    | cons c gap =>
      obtain ⟨rfl, rfl⟩ := List.cons.inj rest
      have below := lower b (by simp) meets'
      exact absurd below (not_lt.mpr (highest' a (by simp) meets))

namespace StablySorted

variable {key : α → κ} {original sorted : List α} {le : α → α → Bool}

/-- Sorting is stable. -/
theorem of_mergeSort (spec : ∀ a b, le a b = true ↔ key b ≤ key a) (l : List α) :
    StablySorted key l (l.mergeSort le) := by
  have transitive : ∀ a b c, le a b = true → le b c = true → le a c = true := by
    intro a b c first second
    exact (spec a c).mpr (((spec b c).mp second).trans ((spec a b).mp first))
  have total : ∀ a b, (le a b || le b a) = true := by
    intro a b
    rw [Bool.or_eq_true, spec, spec]
    exact le_total _ _
  have sorted := List.pairwise_mergeSort transitive total l
  refine ⟨List.mergeSort_perm l le, sorted.imp fun h => (spec _ _).mp h, ?_⟩
  intro k
  -- The elements of key `k` are in order already, so that sorting keeps them as a sublist.
  have level : (l.filter fun a => key a = k).Pairwise fun a b => le a b = true := by
    refine List.pairwise_of_forall_mem_list ?_
    intro a first b second
    have same := of_decide_eq_true (List.mem_filter.mp first).2
    have same' := of_decide_eq_true (List.mem_filter.mp second).2
    exact (spec a b).mpr (same'.trans same.symm).le
  have kept := List.sublist_mergeSort transitive total level List.filter_sublist
  have inside := kept.filter fun a => decide (key a = k)
  rw [List.filter_filter] at inside
  simp only [Bool.and_self] at inside
  refine (inside.eq_of_length ?_).symm
  exact ((List.mergeSort_perm l le).filter _).length_eq.symm

/-- More elements are added behind a sorted list, and the whole is sorted again. -/
theorem append (order : StablySorted key original sorted)
    (spec : ∀ a b, le a b = true ↔ key b ≤ key a) (more : List α) :
    StablySorted key (original ++ more) ((sorted ++ more).mergeSort le) := by
  obtain ⟨perm, descending, stable⟩ := of_mergeSort spec (sorted ++ more)
  refine ⟨perm.trans (order.perm.append_right more), descending, ?_⟩
  intro k
  rw [stable, List.filter_append, List.filter_append, order.stable]

theorem filter (order : StablySorted key original sorted) (p : α → Bool) :
    StablySorted key (original.filter p) (sorted.filter p) := by
  refine ⟨order.perm.filter p, order.descending.filter p, ?_⟩
  intro k
  have swap : ∀ l : List α, (l.filter p).filter (fun a => key a = k) =
      (l.filter fun a => key a = k).filter p := by
    intro l
    simp only [List.filter_filter, Bool.and_comm]
  rw [swap, swap, order.stable]

/-- Searching the sorted list finds the foremost element. -/
theorem foremost_of_find? (order : StablySorted key original sorted) {p : α → Bool} {a : α}
    (found : sorted.find? p = some a) : Foremost key p original a := by
  obtain ⟨meets, front, back, rfl, refused⟩ := List.find?_eq_some_iff_append.mp found
  have level := order.stable (key a)
  rw [List.filter_append, List.filter_cons_of_pos (by simp)] at level
  obtain ⟨before, rest, rfl, beforeLevel, restLevel⟩ := List.filter_eq_append_iff.mp level.symm
  obtain ⟨skipped, after, rfl, none, -, -⟩ := List.filter_eq_cons_iff.mp restLevel
  have highest : ∀ b ∈ before ++ (skipped ++ a :: after), p b = true → key b ≤ key a := by
    intro b member met
    have inside := order.perm.mem_iff.mpr member
    rw [List.mem_append, List.mem_cons] at inside
    obtain early | rfl | late := inside
    · have unmet := refused b early
      rw [met] at unmet
      cases unmet
    · exact le_rfl
    · have tail := (List.pairwise_append.mp order.descending).2.1
      exact (List.pairwise_cons.mp tail).1 b late
  refine ⟨meets, before ++ skipped, after, by rw [List.append_assoc], ?_, ?_⟩
  · intro b member met
    have low := highest b (by simp only [List.mem_append] at member ⊢; tauto) met
    refine lt_of_le_of_ne low fun same => ?_
    obtain early | late := List.mem_append.mp member
    · -- What stands before it in the original at its own key stands before it when sorted.
      have level : b ∈ before.filter fun c => key c = key a :=
        List.mem_filter.mpr ⟨early, decide_eq_true same⟩
      rw [beforeLevel] at level
      have unmet := refused b (List.mem_filter.mp level).1
      rw [met] at unmet
      cases unmet
    · exact none b late (decide_eq_true same)
  · intro b member met
    exact highest b (by simp only [List.mem_append, List.mem_cons]; tauto) met

end StablySorted

end UHorse.Lib
