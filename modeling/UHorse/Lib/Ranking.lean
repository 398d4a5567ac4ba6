import Mathlib.Data.List.Count
import Mathlib.Data.List.Nodup
import Mathlib.Order.Lattice

/-!
# Ranks in a stable order

The rank of an element of a list is the number of elements that come before it when the list is
sorted: those that are less, and those that are as great and stand earlier. The first elements of
the sorted list are those of low rank.
-/

namespace UHorse.Lib

variable {α : Type*}

variable {lt : α → α → Bool} {l : List α} {a : α}

/-- In a strictly sorted list as many elements are less than an element as stand before it. -/
theorem countP_of_sorted (asymm : ∀ a b, lt a b = true → lt b a = false)
    (sorted : l.Pairwise fun a b => lt a b = true) {k : Nat} (here : l[k]? = some a) :
    l.countP (lt · a) = k := by
  have irrefl : ∀ a, lt a a = false := by
    intro a
    cases less : lt a a with
    | false => rfl
    | true => exact less.symm.trans (asymm a a less)
  induction l generalizing k with
  | nil => cases here
  | cons head rest ih =>
    obtain ⟨first, sorted⟩ := List.pairwise_cons.mp sorted
    cases k with
    | zero =>
      cases here
      have none : rest.countP (lt · a) = 0 := by
        rw [List.countP_eq_zero]
        intro b member
        rw [asymm a b (first b member)]
        exact Bool.false_ne_true
      have itself : ¬ lt a a = true := by
        rw [irrefl]
        exact Bool.false_ne_true
      rw [List.countP_cons_of_neg (p := (lt · a)) itself, none]
    | succ k =>
      have less : lt head a = true := first a (List.mem_of_getElem? here)
      rw [List.countP_cons_of_pos (p := (lt · a)) less, ih sorted here]

/-- The elements of low rank are the first ones of the sorted list. -/
theorem mem_take_of_sorted (asymm : ∀ a b, lt a b = true → lt b a = false)
    (sorted : l.Pairwise fun a b => lt a b = true) {n : Nat} :
    a ∈ l.take n ↔ a ∈ l ∧ l.countP (lt · a) < n := by
  constructor
  · intro member
    obtain ⟨k, here⟩ := List.getElem?_of_mem member
    rw [List.getElem?_take] at here
    split at here
    · next inside =>
        rw [countP_of_sorted asymm sorted here]
        exact ⟨List.mem_of_getElem? here, inside⟩
    · cases here
  · rintro ⟨member, low⟩
    obtain ⟨k, here⟩ := List.getElem?_of_mem member
    rw [countP_of_sorted asymm sorted here] at low
    refine List.mem_of_getElem? (i := k) ?_
    rw [List.getElem?_take, if_pos low]
    exact here

theorem mem_drop_of_sorted (asymm : ∀ a b, lt a b = true → lt b a = false)
    (sorted : l.Pairwise fun a b => lt a b = true) {n : Nat} :
    a ∈ l.drop n ↔ a ∈ l ∧ n ≤ l.countP (lt · a) := by
  constructor
  · intro member
    obtain ⟨k, here⟩ := List.getElem?_of_mem member
    rw [List.getElem?_drop] at here
    rw [countP_of_sorted asymm sorted here]
    exact ⟨List.mem_of_getElem? here, Nat.le_add_right n k⟩
  · rintro ⟨member, high⟩
    obtain ⟨k, here⟩ := List.getElem?_of_mem member
    rw [countP_of_sorted asymm sorted here] at high
    refine List.mem_of_getElem? (i := k - n) ?_
    rw [List.getElem?_drop, Nat.add_sub_cancel' high]
    exact here

/-! ## Sorting by a key, the greatest first -/

section Latest

variable {κ : Type*} [LinearOrder κ] (key : α → κ)

/-- `sort_by` with the keys compared the other way around. -/
def sortDescending (l : List α) : List α := l.mergeSort fun a b => decide (key b ≤ key a)

/-- Whether an entry of a list comes before another one, with the places of both. -/
def comesBefore (a b : α × Nat) : Bool :=
  decide (key b.1 < key a.1) || decide (key a.1 = key b.1) && decide (a.2 < b.2)

/-- How many entries of the list come before the one at a place. -/
def rank (l : List α) (entry : α × Nat) : Nat := l.zipIdx.countP (comesBefore key · entry)

variable {key}

theorem comesBefore_asymm (a b : α × Nat) (before : comesBefore key a b = true) :
    comesBefore key b a = false := by
  simp only [comesBefore, Bool.or_eq_true, Bool.and_eq_true, decide_eq_true_eq,
    Bool.or_eq_false_iff, Bool.and_eq_false_iff, decide_eq_false_iff_not] at before ⊢
  obtain less | ⟨same, earlier⟩ := before
  · exact ⟨less.asymm, .inl less.ne⟩
  · exact ⟨same.not_lt, .inr (Nat.lt_asymm earlier)⟩

theorem exists_sorted (key : α → κ) (l : List α) :
    ∃ sorted : List (α × Nat), sorted.Perm l.zipIdx ∧ sorted.map Prod.fst = sortDescending key l ∧
    sorted.Pairwise fun a b => comesBefore key a b = true := by
  let le : α → α → Bool := fun a b => decide (key b ≤ key a)
  refine ⟨l.zipIdx.mergeSort (List.zipIdxLE le), List.mergeSort_perm _ _,
    List.mergeSort_zipIdx, ?_⟩
  have trans : ∀ a b c : α, le a b = true → le b c = true → le a c = true := by
    intro a b c first second
    exact decide_eq_true ((of_decide_eq_true second).trans (of_decide_eq_true first))
  have total : ∀ a b : α, (le a b || le b a) = true := by
    intro a b
    simpa [le] using le_total (key b) (key a)
  have ordered := List.pairwise_mergeSort (List.zipIdxLE_trans trans)
    (List.zipIdxLE_total total) l.zipIdx
  have distinct : (l.zipIdx.mergeSort (List.zipIdxLE le)).Pairwise fun a b => a.2 ≠ b.2 := by
    have places : (l.zipIdx.map Prod.snd).Nodup := by
      rw [List.zipIdx_map_snd]
      exact List.nodup_range'
    exact ((List.mergeSort_perm l.zipIdx _).pairwise_iff fun ne => Ne.symm ne).mpr
      (List.pairwise_map.mp places)
  refine (ordered.and distinct).imp ?_
  rintro ⟨a, i⟩ ⟨b, j⟩ ⟨before, apart⟩
  simp only [List.zipIdxLE, le] at before
  simp only [comesBefore, Bool.or_eq_true, Bool.and_eq_true, decide_eq_true_eq]
  split at before
  · next down =>
      split at before
      · next up =>
          have same := le_antisymm (of_decide_eq_true up) (of_decide_eq_true down)
          exact .inr ⟨same, Nat.lt_of_le_of_ne (of_decide_eq_true before) apart⟩
      · next up => exact .inl (not_le.mp fun le => up (decide_eq_true le))
  · cases before

/-- The first `n` entries of the sorted list are those of a rank below `n`. -/
theorem mem_take_sortDescending {l : List α} {n : Nat} {a : α} :
    a ∈ (sortDescending key l).take n ↔ ∃ i, l[i]? = some a ∧ rank key l (a, i) < n := by
  obtain ⟨sorted, perm, image, strict⟩ := exists_sorted key l
  rw [← image, ← List.map_take, List.mem_map]
  constructor
  · rintro ⟨⟨a, i⟩, member, rfl⟩
    obtain ⟨inside, low⟩ := (mem_take_of_sorted comesBefore_asymm strict).mp member
    refine ⟨i, List.mem_zipIdx_iff_getElem?.mp (perm.mem_iff.mp inside), ?_⟩
    rwa [rank, ← perm.countP_eq]
  · rintro ⟨i, here, low⟩
    refine ⟨(a, i), (mem_take_of_sorted comesBefore_asymm strict).mpr ⟨?_, ?_⟩, rfl⟩
    · exact perm.mem_iff.mpr (List.mem_zipIdx_iff_getElem?.mpr here)
    · rwa [rank, ← perm.countP_eq] at low

theorem mem_drop_sortDescending {l : List α} {n : Nat} {a : α} :
    a ∈ (sortDescending key l).drop n ↔ ∃ i, l[i]? = some a ∧ n ≤ rank key l (a, i) := by
  obtain ⟨sorted, perm, image, strict⟩ := exists_sorted key l
  rw [← image, ← List.map_drop, List.mem_map]
  constructor
  · rintro ⟨⟨a, i⟩, member, rfl⟩
    obtain ⟨inside, high⟩ := (mem_drop_of_sorted comesBefore_asymm strict).mp member
    refine ⟨i, List.mem_zipIdx_iff_getElem?.mp (perm.mem_iff.mp inside), ?_⟩
    rwa [rank, ← perm.countP_eq]
  · rintro ⟨i, here, high⟩
    refine ⟨(a, i), (mem_drop_of_sorted comesBefore_asymm strict).mpr ⟨?_, ?_⟩, rfl⟩
    · exact perm.mem_iff.mpr (List.mem_zipIdx_iff_getElem?.mpr here)
    · rwa [rank, ← perm.countP_eq] at high

end Latest

end UHorse.Lib
