import Mathlib.Data.List.Nodup

/-!
# Marked positions

The positions of a list that bear a mark, in order, and the elements that bear none. Elements may be
erased at the marked positions one after the other if the last position comes first.
-/

namespace UHorse.Lib.Positions

variable {α : Type*}

/-- The positions with a mark, counted from a first one on. -/
def marked (first : Nat) : List Bool → List Nat
  | [] => []
  | mark :: marks => if mark then first :: marked (first + 1) marks else marked (first + 1) marks

/-- The elements without a mark. -/
def unmarked : List α → List Bool → List α
  | a :: l, mark :: marks => if mark then unmarked l marks else a :: unmarked l marks
  | _, _ => []

/-- Erase the elements at positions, the last one first. -/
def eraseAt (positions : List Nat) (l : List α) : List α := positions.reverse.foldl List.eraseIdx l

theorem marked_cons_true (first : Nat) (marks : List Bool) :
    marked first (true :: marks) = first :: marked (first + 1) marks := rfl

theorem eraseAt_cons (i : Nat) (positions : List Nat) (l : List α) :
    eraseAt (i :: positions) l = (eraseAt positions l).eraseIdx i := by
  rw [eraseAt, List.reverse_cons, List.foldl_append]
  rfl

variable {l : List α} {marks : List Bool} {i : Nat} {a : α}

/-- What remains when the elements at the marked positions are erased. -/
theorem eraseAt_marked_append (front : List α) (same : l.length = marks.length) :
    eraseAt (marked front.length marks) (front ++ l) = front ++ unmarked l marks := by
  induction l generalizing front marks with
  | nil =>
    obtain rfl := List.length_eq_zero_iff.mp same.symm
    rfl
  | cons a l ih =>
    obtain ⟨mark, marks, rfl⟩ := List.exists_cons_of_length_eq_add_one same.symm
    have inner : eraseAt (marked (front.length + 1) marks) (front ++ a :: l) =
        front ++ a :: unmarked l marks := by
      have longer := ih (front ++ [a]) (Nat.succ.inj same)
      simpa using longer
    cases mark with
    | false => exact inner
    | true =>
      rw [marked_cons_true, eraseAt_cons, inner,
        List.eraseIdx_append_of_length_le (Nat.le_refl _), Nat.sub_self]
      rfl

theorem eraseAt_marked (same : l.length = marks.length) :
    eraseAt (marked 0 marks) l = unmarked l marks := eraseAt_marked_append [] same

/-- The position that the element at a position had before the marked ones were erased. -/
def positionBefore : List Bool → Nat → Nat
  | [], i => i
  | true :: marks, i => positionBefore marks i + 1
  | false :: _, 0 => 0
  | false :: marks, i + 1 => positionBefore marks i + 1

theorem getElem?_unmarked (same : l.length = marks.length) (i : Nat) :
    (unmarked l marks)[i]? = l[positionBefore marks i]? := by
  induction l generalizing marks i with
  | nil => simp [unmarked]
  | cons a l ih =>
    obtain ⟨mark, marks, rfl⟩ := List.exists_cons_of_length_eq_add_one same.symm
    have inner := ih (Nat.succ.inj same)
    cases mark with
    | true => exact inner i
    | false =>
      cases i with
      | zero => rfl
      | succ i => exact inner i

theorem not_marked_before (marks : List Bool) (i : Nat) :
    marks[positionBefore marks i]? ≠ some true := by
  induction marks generalizing i with
  | nil => simp
  | cons mark marks ih =>
    cases mark with
    | true => exact ih i
    | false =>
      cases i with
      | zero => simp [positionBefore]
      | succ i => exact ih i

theorem length_unmarked {β : Type*} {l' : List β} (same : l.length = marks.length)
    (same' : l'.length = marks.length) :
    (unmarked l marks).length = (unmarked l' marks).length := by
  induction marks generalizing l l' with
  | nil =>
    obtain rfl := List.length_eq_zero_iff.mp same
    obtain rfl := List.length_eq_zero_iff.mp same'
    rfl
  | cons mark marks ih =>
    obtain ⟨a, l, rfl⟩ := List.exists_cons_of_length_eq_add_one same
    obtain ⟨b, l', rfl⟩ := List.exists_cons_of_length_eq_add_one same'
    have inner := ih (Nat.succ.inj same) (Nat.succ.inj same')
    cases mark with
    | true => exact inner
    | false => simpa [unmarked] using inner

theorem forall₂_at {β : Type*} {R : α → β → Prop} {l' : List β} (all : List.Forall₂ R l l')
    (here : l[i]? = some a) : ∃ b, l'[i]? = some b ∧ R a b := by
  induction all generalizing i with
  | nil => cases here
  | cons holds _ ih =>
    cases i with
    | zero =>
      obtain rfl := Option.some_inj.mp here
      exact ⟨_, rfl, holds⟩
    | succ i => exact ih here

theorem unmarked_sublist (l : List α) (marks : List Bool) : (unmarked l marks).Sublist l := by
  induction l generalizing marks with
  | nil => exact List.Sublist.refl _
  | cons a l ih =>
    cases marks with
    | nil => exact List.nil_sublist _
    | cons mark marks =>
      cases mark with
      | false => exact (ih marks).cons_cons a
      | true => exact (ih marks).cons a

/-- An element stays just if its position is not marked. -/
theorem mem_unmarked (distinct : l.Nodup) (same : l.length = marks.length) (here : l[i]? = some a) :
    a ∈ unmarked l marks ↔ marks[i]? = some false := by
  induction l generalizing marks i with
  | nil => cases here
  | cons b l ih =>
    obtain ⟨mark, marks, rfl⟩ := List.exists_cons_of_length_eq_add_one same.symm
    obtain ⟨absent, distinct⟩ := List.nodup_cons.mp distinct
    have outside : b ∉ unmarked l marks :=
      fun member => absent ((unmarked_sublist l marks).subset member)
    cases i with
    | zero =>
      obtain rfl := Option.some_inj.mp here
      cases mark with
      | false => simp [unmarked]
      | true => simp [unmarked, outside]
    | succ i =>
      have there : l[i]? = some a := here
      have different : a ≠ b := by
        rintro rfl
        exact absent (List.mem_of_getElem? there)
      have rest := ih distinct (Nat.succ.inj same) there
      cases mark with
      | false => simpa [unmarked, different] using rest
      | true => simpa [unmarked] using rest

theorem count_unmarked [DecidableEq α] (distinct : l.Nodup) (same : l.length = marks.length)
    (here : l[i]? = some a) :
    (unmarked l marks).count a = if marks[i]? = some false then 1 else 0 := by
  have once : (unmarked l marks).Nodup := distinct.sublist (unmarked_sublist l marks)
  have member := mem_unmarked distinct same here
  split
  · next unset => exact List.count_eq_one_of_mem once (member.mpr unset)
  · next set => exact List.count_eq_zero_of_not_mem fun inside => set (member.mp inside)

theorem count_unmarked_le [DecidableEq α] (distinct : l.Nodup) (marks : List Bool) (a : α) :
    (unmarked l marks).count a ≤ 1 :=
  List.nodup_iff_count_le_one.mp (distinct.sublist (unmarked_sublist l marks)) a

end UHorse.Lib.Positions
