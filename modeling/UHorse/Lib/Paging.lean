import Mathlib.Data.List.Basic

/-!
# Page after page

A client that reads a listing in pages of one size asks for page after page until it gets one that
is not full. If a page is what is left of a list after some elements, filtered and cut off, then the
pages together are the filtered list just if the elements on full pages are all wanted: the skipped
elements are counted before the filter.
-/

namespace UHorse.Lib

variable {α : Type*}

/-- The pages from an offset on, one after the other. -/
inductive Paged (page : Nat → List α) (k : Nat) : Nat → List α → Prop
  | last {offset : Nat} (short : (page offset).length < k) : Paged page k offset (page offset)
  | more {offset : Nat} {rest : List α} (full : k ≤ (page offset).length)
      (later : Paged page k (offset + k) rest) : Paged page k offset (page offset ++ rest)

namespace Paged

variable {page : Nat → List α} {k offset : Nat} {result : List α}

theorem unique (paged : Paged page k offset result) {other : List α}
    (paged' : Paged page k offset other) : result = other := by
  induction paged generalizing other with
  | last short =>
    cases paged' with
    | last => rfl
    | more full => exact absurd short (Nat.not_lt.mpr full)
  | more full _ ih =>
    cases paged' with
    | last short => exact absurd short (Nat.not_lt.mpr full)
    | more _ later => rw [ih later]

/-- Reading comes to an end if the pages do. -/
theorem exists_of_bound (positive : 0 < k) {bound : Nat}
    (ends : ∀ offset, bound ≤ offset → (page offset).length < k) (offset : Nat) :
    ∃ result, Paged page k offset result := by
  induction left : bound - offset using Nat.strongRecOn generalizing offset with
  | ind left ih =>
    by_cases short : (page offset).length < k
    · exact ⟨_, .last short⟩
    · have before : offset < bound := by
        by_contra behind
        exact short (ends offset (Nat.not_lt.mp behind))
      obtain ⟨rest, later⟩ := ih (bound - (offset + k)) (by omega) (offset + k) rfl
      exact ⟨_, .more (Nat.not_lt.mp short) later⟩

end Paged

/-! ## Pages of a filtered list -/

/-- A page of the elements that meet `p`. The offset counts all elements. -/
def filteredPage (p : α → Bool) (l : List α) (k offset : Nat) : List α :=
  ((l.drop offset).filter p).take k

section Filtered

variable {p : α → Bool} {l : List α} {k offset : Nat} {result : List α}

theorem filter_take_append_filter_drop (p : α → Bool) (l : List α) (k : Nat) :
    (l.take k).filter p ++ (l.drop k).filter p = l.filter p := by
  rw [← List.filter_append, List.take_append_drop]

theorem exists_paged (p : α → Bool) (l : List α) (positive : 0 < k) (offset : Nat) :
    ∃ result, Paged (filteredPage p l k) k offset result := by
  have ends : ∀ offset, l.length ≤ offset → (filteredPage p l k offset).length < k := by
    intro offset behind
    rw [filteredPage, List.drop_eq_nil_of_le behind, List.filter_nil, List.take_nil]
    exact positive
  exact Paged.exists_of_bound positive ends offset

/-- At least as many elements are read as are wanted. -/
theorem Paged.length_filter_le (paged : Paged (filteredPage p l k) k offset result) :
    ((l.drop offset).filter p).length ≤ result.length := by
  induction paged with
  | last short =>
    rw [filteredPage, List.length_take] at short ⊢
    omega
  | @more offset rest full later ih =>
    have parts := congrArg List.length (filter_take_append_filter_drop p (l.drop offset) k)
    have few := (List.filter_sublist (p := p) (l := (l.drop offset).take k)).length_le
    rw [List.length_append, List.drop_drop] at parts
    rw [List.length_take] at few
    rw [List.length_append]
    omega

/-- What is read is wanted. -/
theorem Paged.meets (paged : Paged (filteredPage p l k) k offset result) {a : α}
    (member : a ∈ result) : p a = true := by
  have inPage : ∀ {offset}, a ∈ filteredPage p l k offset → p a = true :=
    fun inside => (List.mem_filter.mp (List.mem_of_mem_take inside)).2
  induction paged with
  | last => exact inPage member
  | more _ _ ih =>
    obtain inside | later := List.mem_append.mp member
    · exact inPage inside
    · exact ih later

/-- A full page and what is read after it. -/
theorem full_page_iff {rest : List α} (full : k ≤ (l.filter p).length)
    (long : ((l.drop k).filter p).length ≤ rest.length) :
    (l.filter p).take k ++ rest = l.filter p ↔
      (∀ a ∈ l.take k, p a = true) ∧ rest = (l.drop k).filter p := by
  have parts := filter_take_append_filter_drop p l k
  have page : ((l.filter p).take k).length = k := List.length_take_of_le full
  have enough : k ≤ l.length := Nat.le_trans full (List.length_filter_le p l)
  constructor
  · intro same
    have lengths := congrArg List.length (same.trans parts.symm)
    rw [List.length_append, List.length_append, page] at lengths
    have few := List.length_filter_le p (l.take k)
    rw [List.length_take_of_le enough] at few
    have all : ((l.take k).filter p).length = k := by omega
    have wanted : ∀ a ∈ l.take k, p a = true := by
      rw [← List.length_filter_eq_length_iff, all, List.length_take_of_le enough]
    exact ⟨wanted, (List.append_inj (same.trans parts.symm) (page.trans all.symm)).2⟩
  · rintro ⟨wanted, rfl⟩
    rw [← parts, List.filter_eq_self.mpr wanted,
      List.take_left' (List.length_take_of_le enough)]

/-- The full pages are the first one and those of the rest of the list. -/
theorem full_pages_iff (positive : 0 < k) (full : k ≤ (l.filter p).length) :
    (∀ a ∈ l.take (k * ((l.filter p).length / k)), p a = true) ↔
      (∀ a ∈ l.take k, p a = true) ∧
        ∀ a ∈ (l.drop k).take (k * (((l.drop k).filter p).length / k)), p a = true := by
  have parts := congrArg List.length (filter_take_append_filter_drop p l k)
  have enough : k ≤ l.length := Nat.le_trans full (List.length_filter_le p l)
  -- Once the first page is wanted as a whole, the rest has one full page less.
  have fewer : (∀ a ∈ l.take k, p a = true) →
      k * ((l.filter p).length / k) = k + k * (((l.drop k).filter p).length / k) := by
    intro wanted
    rw [List.length_append, List.filter_eq_self.mpr wanted, List.length_take_of_le enough] at parts
    rw [← parts, Nat.add_div_left _ positive, Nat.mul_succ, Nat.add_comm]
  constructor
  · intro all
    have first : k ≤ k * ((l.filter p).length / k) :=
      Nat.le_mul_of_pos_right k (Nat.div_pos full positive)
    have wanted : ∀ a ∈ l.take k, p a = true :=
      fun a member => all a ((List.take_sublist_take_left first).subset member)
    rw [fewer wanted, List.take_add] at all
    exact ⟨wanted, fun a member => all a (List.mem_append_right _ member)⟩
  · rintro ⟨wanted, later⟩
    rw [fewer wanted, List.take_add]
    exact List.forall_mem_append.mpr ⟨wanted, later⟩

/-- The pages together are the filtered list just if every element on a full page is wanted. -/
theorem Paged.eq_filter_iff (positive : 0 < k)
    (paged : Paged (filteredPage p l k) k offset result) :
    result = (l.drop offset).filter p ↔
      ∀ a ∈ (l.drop offset).take (k * (((l.drop offset).filter p).length / k)), p a = true := by
  induction paged with
  | @last offset short =>
    rw [filteredPage, List.length_take] at short
    have few : ((l.drop offset).filter p).length < k := by omega
    rw [Nat.div_eq_of_lt few, Nat.mul_zero, filteredPage,
      List.take_of_length_le (Nat.le_of_lt few)]
    simp
  | @more offset rest full later ih =>
    have long := later.length_filter_le
    rw [filteredPage, List.length_take, Nat.le_min] at full
    rw [← List.drop_drop] at long ih
    rw [filteredPage, full_page_iff full.2 long, full_pages_iff positive full.2, ih]

end Filtered

end UHorse.Lib
