import Mathlib.Data.List.Count
import UHorse.Lib.HashMap

/-!
# Counting occurrences across containers

Conservation arguments count how often an item occurs in lists, in maps and in
the local variables of processes. Every operation is described by the number it
adds to or removes from the count of one fixed item, so that a conservation
proof is a sum of such equations.
-/

namespace UHorse.Lib

section Tick

variable {α β : Type*} [DecidableEq α]

/-- The occurrences of `t` in the single item `x`. -/
def tick (x t : α) : Nat := if x = t then 1 else 0

@[simp] theorem tick_self (t : α) : tick t t = 1 := if_pos rfl

variable {t : α} {l : List β} {i : Nat} {a : β}

theorem tick_of_ne {x : α} (h : x ≠ t) : tick x t = 0 := if_neg h

/-- The occurrences of `t` in an optional item. -/
def tick? (x : Option α) (t : α) : Nat := x.elim 0 (fun item => tick item t)

@[simp] theorem tick?_none (t : α) : tick? (none : Option α) t = 0 := rfl

@[simp] theorem tick?_some (x t : α) : tick? (some x) t = tick x t := rfl

theorem count_cons_tick (x t : α) (l : List α) : (x :: l).count t = l.count t + tick x t := by
  simp [List.count_cons, tick]

theorem count_singleton_tick (x t : α) : [x].count t = tick x t := by
  simp [count_cons_tick]

theorem count_append_singleton (x t : α) (l : List α) :
    (l ++ [x]).count t = l.count t + tick x t := by
  rw [List.count_append, count_singleton_tick]

theorem count_filterMap_cons (f : β → Option α) (b : β) (l : List β) (t : α) :
    ((b :: l).filterMap f).count t = (l.filterMap f).count t + tick? (f b) t := by
  cases image : f b with
  | none => simp [image]
  | some x => simp [image, count_cons_tick]

/-- Replacing one element of a list moves the count by the two images. -/
theorem count_filterMap_set (f : β → Option α) (here : l[i]? = some a) (b : β) (t : α) :
    ((l.set i b).filterMap f).count t + tick? (f a) t =
      (l.filterMap f).count t + tick? (f b) t := by
  induction l generalizing i with
  | nil => simp at here
  | cons head rest ih =>
    cases i with
    | zero =>
      obtain rfl : head = a := by simpa using here
      rw [List.set_cons_zero, count_filterMap_cons, count_filterMap_cons]
      omega
    | succ i =>
      have later := ih (i := i) (by simpa using here)
      rw [List.set_cons_succ, count_filterMap_cons, count_filterMap_cons]
      omega

theorem count_filterMap_concat (f : β → Option α) (l : List β) (b : β) (t : α) :
    ((l ++ [b]).filterMap f).count t = (l.filterMap f).count t + tick? (f b) t := by
  rw [List.filterMap_append, List.count_append, count_filterMap_cons]
  simp

/-- An element that holds the item is counted. -/
theorem tick?_le_count (f : β → Option α) (member : a ∈ l) (t : α) :
    tick? (f a) t ≤ (l.filterMap f).count t := by
  induction l with
  | nil => cases member
  | cons head rest ih =>
    rw [count_filterMap_cons]
    obtain rfl | later := List.mem_cons.mp member
    · omega
    · exact Nat.le_trans (ih later) (Nat.le_add_right _ _)

theorem one_le_count (f : β → Option α) (member : a ∈ l) (holds : f a = some t) :
    1 ≤ (l.filterMap f).count t := by
  have counted := tick?_le_count f member t
  rwa [holds, tick?_some, tick_self] at counted

/-- Two different elements that hold the item are both counted. -/
theorem tick?_add_le_count (f : β → Option α) {j : Nat} {b : β} (first : l[i]? = some a)
    (second : l[j]? = some b) (distinct : i ≠ j) (t : α) :
    tick? (f a) t + tick? (f b) t ≤ (l.filterMap f).count t := by
  induction l generalizing i j with
  | nil => simp at first
  | cons head rest ih =>
    rw [count_filterMap_cons]
    cases i with
    | zero =>
      obtain rfl : head = a := by simpa using first
      cases j with
      | zero => exact absurd rfl distinct
      | succ j =>
        have member : b ∈ rest := List.mem_of_getElem? (by simpa using second)
        have counted := tick?_le_count f member t
        omega
    | succ i =>
      cases j with
      | zero =>
        obtain rfl : head = b := by simpa using second
        have member : a ∈ rest := List.mem_of_getElem? (by simpa using first)
        have counted := tick?_le_count f member t
        omega
      | succ j =>
        have counted := ih (i := i) (j := j) (by simpa using first) (by simpa using second)
          (by omega)
        omega

/-- Two elements that hold an item counted at most once are the same. -/
theorem eq_of_count_le_one (f : β → Option α) {b : β} (once : (l.filterMap f).count t ≤ 1)
    (first : a ∈ l) (second : b ∈ l) (holdsA : f a = some t) (holdsB : f b = some t) : a = b := by
  obtain ⟨i, atI⟩ := List.getElem?_of_mem first
  obtain ⟨j, atJ⟩ := List.getElem?_of_mem second
  by_cases same : i = j
  · subst same
    exact Option.some.inj (atI.symm.trans atJ)
  · have counted := tick?_add_le_count f atI atJ same t
    rw [holdsA, holdsB, tick?_some, tick_self] at counted
    omega

/-- As `count_filterMap_set`, for elements that hold several items. -/
theorem count_flatMap_set (f : β → List α) (here : l[i]? = some a) (b : β) (t : α) :
    ((l.set i b).flatMap f).count t + (f a).count t = (l.flatMap f).count t + (f b).count t := by
  induction l generalizing i with
  | nil => simp at here
  | cons head rest ih =>
    cases i with
    | zero =>
      obtain rfl : head = a := by simpa using here
      simp only [List.set_cons_zero, List.flatMap_cons, List.count_append]
      omega
    | succ i =>
      have later := ih (i := i) (by simpa using here)
      simp only [List.set_cons_succ, List.flatMap_cons, List.count_append]
      omega

end Tick

/-- Replacing one element of a list moves a count by the two elements. -/
theorem countP_set_add {β : Type*} (p : β → Bool) {l : List β} {i : Nat} {a : β}
    (here : l[i]? = some a) (b : β) :
    (l.set i b).countP p + (p a).toNat = l.countP p + (p b).toNat := by
  induction l generalizing i with
  | nil => simp at here
  | cons head rest ih =>
    cases i with
    | zero =>
      obtain rfl : head = a := by simpa using here
      rw [List.set_cons_zero, List.countP_cons, List.countP_cons]
      cases p head <;> cases p b <;>
        simp only [Bool.toNat_true, Bool.toNat_false, Bool.false_eq_true, if_true, if_false]
    | succ i =>
      have later := ih (i := i) (by simpa using here)
      simp only [List.set_cons_succ, List.countP_cons]
      omega

/-- What is counted at most once stands at one place. -/
theorem index_eq_of_countP_le_one {β : Type*} {p : β → Bool} {l : List β}
    (once : l.countP p ≤ 1) {i j : Nat} {a b : β} (here : l[i]? = some a) (met : p a = true)
    (there : l[j]? = some b) (met' : p b = true) : i = j := by
  induction l generalizing i j with
  | nil => cases here
  | cons head rest ih =>
    have later : ∀ {k : Nat} {c : β}, rest[k]? = some c → p c = true → p head = true → False := by
      intro k c found meets first
      have counted := List.countP_pos_iff.mpr ⟨c, List.mem_of_getElem? found, meets⟩
      rw [List.countP_cons_of_pos first] at once
      omega
    have fewer : rest.countP p ≤ 1 := by
      rw [List.countP_cons] at once
      omega
    cases i with
    | zero =>
      cases here
      cases j with
      | zero => rfl
      | succ j => cases later there met' met
    | succ i =>
      cases j with
      | zero =>
        cases there
        cases later here met met'
      | succ j => exact congrArg Nat.succ (ih fewer here there)

/-- What is counted at most once is one element. -/
theorem eq_of_countP_le_one {β : Type*} {p : β → Bool} {l : List β} (once : l.countP p ≤ 1)
    {a b : β} (inside : a ∈ l) (met : p a = true) (inside' : b ∈ l) (met' : p b = true) :
    a = b := by
  obtain ⟨i, here⟩ := List.mem_iff_getElem?.mp inside
  obtain ⟨j, there⟩ := List.mem_iff_getElem?.mp inside'
  obtain rfl := index_eq_of_countP_le_one once here met there met'
  exact Option.some.inj (here.symm.trans there)

section Ledger

variable {α β : Type*} [DecidableEq α]

/-- Every item that an element owes or has made was issued. -/
def Covers (issued : List α) (owed : β → Option α) (made : β → List α) (l : List β) : Prop :=
  ∀ t, (l.filterMap owed).count t + (l.flatMap made).count t ≤ issued.count t

namespace Covers

variable {issued : List α} {owed : β → Option α} {made : β → List α} {l : List β}

theorem concat (covers : Covers issued owed made l) {b : β} (idle : owed b = none)
    (unmade : made b = []) : Covers issued owed made (l ++ [b]) := by
  intro t
  have before := covers t
  rw [count_filterMap_concat, idle, List.flatMap_append, List.flatMap_singleton, unmade]
  simpa using before

/-- An element may owe what has just been issued and make what it owed. -/
theorem set (covers : Covers issued owed made l) {i : Nat} {a b : β} (here : l[i]? = some a)
    {more : List α}
    (moved : ∀ t, tick? (owed b) t + (made b).count t ≤
      tick? (owed a) t + (made a).count t + more.count t) :
    Covers (issued ++ more) owed made (l.set i b) := by
  intro t
  have before := covers t
  have owes := count_filterMap_set owed here b t
  have makes := count_flatMap_set made here b t
  have change := moved t
  rw [List.count_append]
  omega

/-- What is owed has not been made. -/
theorem unmade_of_owed (covers : Covers issued owed made l) (once : issued.Nodup) {a : β} {t : α}
    (member : a ∈ l) (owes : owed a = some t) : t ∉ l.flatMap made := by
  intro makes
  have counted := covers t
  have issues := List.nodup_iff_count_le_one.mp once t
  have first := one_le_count owed member owes
  have second := List.count_pos_iff.mpr makes
  omega

end Covers
end Ledger

section Replaced

variable {α β : Type*} {l : List β} {i : Nat} {a b : β}

/-- Replacing one element keeps the others. -/
theorem eq_or_mem_set (here : l[i]? = some a) {x : β} (member : x ∈ l) :
    x = a ∨ x ∈ l.set i b := by
  obtain ⟨j, there⟩ := List.mem_iff_getElem?.mp member
  by_cases same : i = j
  · subst same
    exact .inl (Option.some.inj (there.symm.trans here))
  · refine .inr (List.mem_iff_getElem?.mpr ⟨j, ?_⟩)
    rwa [List.getElem?_set_ne same]

theorem mem_set_of_getElem? (here : l[i]? = some a) : b ∈ l.set i b :=
  List.mem_set (List.getElem?_eq_some_iff.mp here).1 b

theorem flatMap_subset_set (here : l[i]? = some a) {f : β → List α} (grows : f a ⊆ f b) :
    l.flatMap f ⊆ (l.set i b).flatMap f := by
  intro x found
  obtain ⟨y, member, inside⟩ := List.mem_flatMap.mp found
  obtain rfl | kept := eq_or_mem_set (b := b) here member
  · exact List.mem_flatMap.mpr ⟨b, mem_set_of_getElem? here, grows inside⟩
  · exact List.mem_flatMap.mpr ⟨y, kept, inside⟩

theorem mem_flatMap_of_mem_set {f : β → List α} {x : α} (found : x ∈ (l.set i b).flatMap f) :
    x ∈ l.flatMap f ∨ x ∈ f b := by
  obtain ⟨y, member, inside⟩ := List.mem_flatMap.mp found
  obtain old | rfl := List.mem_or_eq_of_mem_set member
  · exact .inl (List.mem_flatMap.mpr ⟨y, old, inside⟩)
  · exact .inr inside

/-- An element that gains items adds them to all items. -/
theorem flatMap_set_perm (here : l[i]? = some a) {f : β → List α} {more : List α}
    (grows : f b = f a ++ more) : ((l.set i b).flatMap f).Perm (l.flatMap f ++ more) := by
  induction l generalizing i with
  | nil => simp at here
  | cons head rest ih =>
    cases i with
    | zero =>
      obtain rfl : head = a := by simpa using here
      simp only [List.set_cons_zero, List.flatMap_cons, grows, List.append_assoc]
      exact List.perm_append_comm.append_left (f head)
    | succ i =>
      have later := ih (i := i) (by simpa using here)
      simp only [List.set_cons_succ, List.flatMap_cons, List.append_assoc]
      exact later.append_left (f head)

end Replaced

namespace HashMap

variable {K V : Type*} [DecidableEq K]

/-- The occurrences of a key in a map. -/
def present (m : HashMap K V) (t : K) : Nat := if t ∈ m then 1 else 0

theorem present_eq_zero {m : HashMap K V} {t : K} : m.present t = 0 ↔ t ∉ m := by
  rw [present]
  split <;> simp_all

theorem present_of_mem {m : HashMap K V} {t : K} (member : t ∈ m) : m.present t = 1 := if_pos member

theorem present_le_one (m : HashMap K V) (t : K) : m.present t ≤ 1 := by
  rw [present]
  split <;> omega

theorem present_insert {m : HashMap K V} {k : K} (absent : k ∉ m) (v : V) (t : K) :
    present (m.insert k v) t = m.present t + tick k t := by
  by_cases same : k = t
  · subst same
    rw [present_of_mem (by simp), present_eq_zero.mpr absent, tick_self]
  · have unchanged : t ∈ m.insert k v ↔ t ∈ m := by simp [Finmap.mem_insert, Ne.symm same]
    simp only [present, unchanged, tick_of_ne same, Nat.add_zero]

theorem present_erase {m : HashMap K V} {k : K} (member : k ∈ m) (t : K) :
    present (m.erase k) t + tick k t = m.present t := by
  by_cases same : k = t
  · subst same
    rw [present_of_mem member, present_eq_zero.mpr Finmap.notMem_erase_self, tick_self]
  · have unchanged : t ∈ m.erase k ↔ t ∈ m := by simp [Finmap.mem_erase, Ne.symm same]
    simp only [present, unchanged, tick_of_ne same, Nat.add_zero]

theorem present_eraseAll {m : HashMap K V} {keys : List K} (nodup : keys.Nodup)
    (members : ∀ k ∈ keys, k ∈ m) (t : K) :
    present (m.eraseAll keys) t + keys.count t = m.present t := by
  by_cases removed : t ∈ keys
  · have once := List.count_eq_one_of_mem nodup removed
    have gone : t ∉ m.eraseAll keys := fun member => ((mem_eraseAll m keys t).mp member).1 removed
    rw [present_eq_zero.mpr gone, present_of_mem (members t removed), once]
  · have unchanged : t ∈ m.eraseAll keys ↔ t ∈ m := by simp [mem_eraseAll, removed]
    simp only [present, unchanged, List.count_eq_zero_of_not_mem removed, Nat.add_zero]

end HashMap
end UHorse.Lib
