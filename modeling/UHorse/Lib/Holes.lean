import Mathlib.Data.Finset.Lattice.Lemmas
import Mathlib.Data.List.Infix
import Mathlib.Logic.Function.Basic

/-!
# Texts with holes

A text with holes is written down with a mark for each hole. Filling replaces the marks one after
the other by texts. The holes are filled at once when no mark is found between the steps where the
text has no hole.
-/

namespace UHorse.Lib.Holes

variable {κ α : Type*}

inductive Piece (κ α : Type*)
  | letter (a : α)
  | hole (name : κ)
deriving DecidableEq

/-- A text in which the holes are shown as texts. -/
def fill (shown : κ → List α) : List (Piece κ α) → List α
  | [] => []
  | .letter a :: rest => a :: fill shown rest
  | .hole name :: rest => shown name ++ fill shown rest

/-- Where the holes begin. -/
def places (shown : κ → List α) : List (Piece κ α) → List (Nat × κ)
  | [] => []
  | .letter _ :: rest => (places shown rest).map fun hole => (hole.1 + 1, hole.2)
  | .hole name :: rest =>
    (0, name) :: (places shown rest).map fun hole => (hole.1 + (shown name).length, hole.2)

section Replacing

variable [DecidableEq α]

/-- Replace the occurrences of a pattern from left to right, behind some letters to skip. -/
def replaceFrom (pattern value : List α) : Nat → List α → List α
  | _, [] => []
  | skip + 1, _ :: text => replaceFrom pattern value skip text
  | 0, a :: text =>
    if pattern <+: a :: text then value ++ replaceFrom pattern value (pattern.length - 1) text
    else a :: replaceFrom pattern value 0 text

/-- Where occurrences are replaced. -/
def foundFrom (pattern : List α) : Nat → List α → List Nat
  | _, [] => []
  | skip + 1, _ :: text => (foundFrom pattern skip text).map Nat.succ
  | 0, a :: text =>
    if pattern <+: a :: text then 0 :: (foundFrom pattern (pattern.length - 1) text).map Nat.succ
    else (foundFrom pattern 0 text).map Nat.succ

/-- An empty pattern occurs in front of every letter and at the end. -/
def replace (pattern value text : List α) : List α :=
  if pattern = [] then value ++ text.flatMap (fun a => a :: value)
  else replaceFrom pattern value 0 text

/-- Replace marks by values in an order. -/
def replaceAll (mark values : κ → List α) (order : List κ) (text : List α) : List α :=
  order.foldl (fun text name => replace (mark name) (values name) text) text

variable {pattern value text : List α}

theorem replaceAll_append (mark values : κ → List α) (order more : List κ) (text : List α) :
    replaceAll mark values (order ++ more) text =
      replaceAll mark values more (replaceAll mark values order text) :=
  List.foldl_append

theorem replaceFrom_eq_drop (skip : Nat) (text : List α) :
    replaceFrom pattern value skip text = replaceFrom pattern value 0 (text.drop skip) := by
  induction text generalizing skip with
  | nil => simp [replaceFrom]
  | cons a text ih =>
    cases skip with
    | zero => rfl
    | succ skip => exact ih skip

theorem foundFrom_eq_drop (skip : Nat) (text : List α) :
    foundFrom pattern skip text = (foundFrom pattern 0 (text.drop skip)).map (· + skip) := by
  induction text generalizing skip with
  | nil => simp [foundFrom]
  | cons a text ih =>
    cases skip with
    | zero => simp
    | succ skip =>
      rw [foundFrom, ih, List.map_map]
      rfl

/-- An occurrence at the front is replaced. -/
theorem replaceFrom_append (nonempty : pattern ≠ []) (text : List α) :
    replaceFrom pattern value 0 (pattern ++ text) = value ++ replaceFrom pattern value 0 text := by
  obtain ⟨a, rest, rfl⟩ := List.exists_cons_of_ne_nil nonempty
  rw [List.cons_append, replaceFrom, if_pos ⟨text, rfl⟩, replaceFrom_eq_drop, List.length_cons,
    Nat.add_sub_cancel, List.drop_left]

theorem foundFrom_append (nonempty : pattern ≠ []) (text : List α) :
    foundFrom pattern 0 (pattern ++ text) =
      0 :: (foundFrom pattern 0 text).map (· + pattern.length) := by
  obtain ⟨a, rest, rfl⟩ := List.exists_cons_of_ne_nil nonempty
  rw [List.cons_append, foundFrom, if_pos ⟨text, rfl⟩, foundFrom_eq_drop, List.length_cons,
    Nat.add_sub_cancel, List.drop_left, List.map_map]
  rfl

/-- Letters in which no replaced occurrence begins are kept. -/
theorem replaceFrom_of_behind {front : List α}
    (behind : ∀ place ∈ foundFrom pattern 0 (front ++ text), front.length ≤ place) :
    replaceFrom pattern value 0 (front ++ text) = front ++ replaceFrom pattern value 0 text ∧
    foundFrom pattern 0 (front ++ text) =
      (foundFrom pattern 0 text).map (· + front.length) := by
  induction front with
  | nil => exact ⟨rfl, (List.map_id _).symm⟩
  | cons a front ih =>
    rw [List.cons_append, foundFrom] at behind
    rw [List.cons_append, replaceFrom, foundFrom]
    by_cases first : pattern <+: a :: (front ++ text)
    · rw [if_pos first] at behind
      exact absurd (behind 0 List.mem_cons_self) (Nat.not_succ_le_zero _)
    · rw [if_neg first] at behind
      obtain ⟨replaced, found⟩ := ih fun place member =>
        Nat.le_of_succ_le_succ (behind _ (List.mem_map.mpr ⟨place, member, rfl⟩))
      rw [if_neg first, if_neg first, replaced, found, List.map_map]
      exact ⟨rfl, rfl⟩

end Replacing

section Filling

variable {shown : κ → List α} {name : κ} {pieces : List (Piece κ α)}

theorem fill_append (front back : List (Piece κ α)) :
    fill shown (front ++ back) = fill shown front ++ fill shown back := by
  induction front with
  | nil => rfl
  | cons piece front ih =>
    cases piece with
    | letter a => exact congrArg (a :: ·) ih
    | hole name => exact (congrArg (shown name ++ ·) ih).trans (List.append_assoc _ _ _).symm

/-- Only what is shown of the holes of a text matters. -/
theorem fill_congr {other : κ → List α}
    (same : ∀ name, .hole name ∈ pieces → shown name = other name) :
    fill shown pieces = fill other pieces := by
  induction pieces with
  | nil => rfl
  | cons piece rest ih =>
    have later := ih fun name member => same name (List.mem_cons_of_mem _ member)
    cases piece with
    | letter a => exact congrArg (a :: ·) later
    | hole name => rw [fill, fill, same name List.mem_cons_self, later]

/-- What is shown of a hole occurs only where the text has the hole. -/
def OccursInHoles (shown : κ → List α) (name : κ) (pieces : List (Piece κ α)) : Prop :=
  ∀ place < (fill shown pieces).length, shown name <+: (fill shown pieces).drop place →
    (place, name) ∈ places shown pieces

/-- What is shown of a hole is replaced only where the text has the hole. -/
def FoundInHoles [DecidableEq α] (shown : κ → List α) (name : κ) (pieces : List (Piece κ α)) :
    Prop :=
  ∀ place ∈ foundFrom (shown name) 0 (fill shown pieces), (place, name) ∈ places shown pieces

instance [DecidableEq κ] [DecidableEq α] : Decidable (OccursInHoles shown name pieces) :=
  inferInstanceAs (Decidable (∀ place < _, _ → _))

instance [DecidableEq κ] [DecidableEq α] : Decidable (FoundInHoles shown name pieces) :=
  inferInstanceAs (Decidable (∀ place ∈ foundFrom _ _ _, _))

theorem mem_places_letter {a : α} {place : Nat} :
    (place, name) ∈ places shown (.letter a :: pieces) ↔
      ∃ before, place = before + 1 ∧ (before, name) ∈ places shown pieces := by
  constructor
  · intro member
    obtain ⟨⟨before, _⟩, inside, same⟩ := List.mem_map.mp member
    cases same
    exact ⟨before, rfl, inside⟩
  · rintro ⟨before, rfl, inside⟩
    exact List.mem_map.mpr ⟨(before, name), inside, rfl⟩

theorem mem_places_hole {other : κ} {place : Nat} :
    (place, name) ∈ places shown (.hole other :: pieces) ↔ place = 0 ∧ name = other ∨
      ∃ before, place = before + (shown other).length ∧ (before, name) ∈ places shown pieces := by
  rw [places, List.mem_cons, Prod.mk.injEq]
  refine or_congr_right ⟨fun member => ?_, ?_⟩
  · obtain ⟨⟨before, _⟩, inside, same⟩ := List.mem_map.mp member
    cases same
    exact ⟨before, rfl, inside⟩
  · rintro ⟨before, rfl, inside⟩
    exact List.mem_map.mpr ⟨(before, name), inside, rfl⟩

theorem isPrefix_of_mem_places {place : Nat} (found : (place, name) ∈ places shown pieces) :
    shown name <+: (fill shown pieces).drop place := by
  induction pieces generalizing place with
  | nil => cases found
  | cons piece rest ih =>
    cases piece with
    | letter a =>
      obtain ⟨before, rfl, inside⟩ := mem_places_letter.mp found
      exact ih inside
    | hole other =>
      rw [fill]
      obtain ⟨rfl, rfl⟩ | ⟨before, rfl, inside⟩ := mem_places_hole.mp found
      · exact List.prefix_append _ _
      · rw [Nat.add_comm, ← List.drop_drop, List.drop_left]
        exact ih inside

theorem mem_of_mem_places {place : Nat} (found : (place, name) ∈ places shown pieces) :
    .hole name ∈ pieces := by
  induction pieces generalizing place with
  | nil => cases found
  | cons piece rest ih =>
    cases piece with
    | letter a =>
      obtain ⟨before, -, inside⟩ := mem_places_letter.mp found
      exact List.mem_cons_of_mem _ (ih inside)
    | hole other =>
      obtain ⟨-, rfl⟩ | ⟨before, -, inside⟩ := mem_places_hole.mp found
      · exact List.mem_cons_self
      · exact List.mem_cons_of_mem _ (ih inside)

variable [DecidableEq α]

theorem FoundInHoles.of_letter {a : α} (found : FoundInHoles shown name (.letter a :: pieces)) :
    (¬ shown name <+: a :: fill shown pieces) ∧ FoundInHoles shown name pieces := by
  rw [FoundInHoles, fill, foundFrom] at found
  by_cases first : shown name <+: a :: fill shown pieces
  · rw [if_pos first] at found
    obtain ⟨before, same, -⟩ := mem_places_letter.mp (found 0 List.mem_cons_self)
    cases same
  · rw [if_neg first] at found
    refine ⟨first, fun place member => ?_⟩
    obtain ⟨before, same, inside⟩ :=
      mem_places_letter.mp (found _ (List.mem_map.mpr ⟨place, member, rfl⟩))
    rwa [Nat.succ.inj same]

theorem FoundInHoles.of_hole (nonempty : shown name ≠ [])
    (found : FoundInHoles shown name (.hole name :: pieces)) : FoundInHoles shown name pieces := by
  intro place member
  rw [FoundInHoles, fill, foundFrom_append nonempty] at found
  obtain ⟨first, -⟩ | ⟨before, same, inside⟩ := mem_places_hole.mp
    (found _ (List.mem_cons_of_mem _ (List.mem_map.mpr ⟨place, member, rfl⟩)))
  · have positive := List.length_pos_of_ne_nil nonempty
    omega
  · rwa [Nat.add_right_cancel same]

/-- Nothing is found in what is shown of another hole. -/
theorem FoundInHoles.of_other {other : κ} (distinct : other ≠ name)
    (found : FoundInHoles shown name (.hole other :: pieces)) (value : List α) :
    replaceFrom (shown name) value 0 (shown other ++ fill shown pieces) =
      shown other ++ replaceFrom (shown name) value 0 (fill shown pieces) ∧
    FoundInHoles shown name pieces := by
  have behind : ∀ place ∈ foundFrom (shown name) 0 (shown other ++ fill shown pieces),
      (shown other).length ≤ place := by
    intro place member
    obtain ⟨-, same⟩ | ⟨before, same, -⟩ := mem_places_hole.mp (found place member)
    · exact absurd same.symm distinct
    · omega
  obtain ⟨kept, places⟩ := replaceFrom_of_behind behind
  refine ⟨kept, fun place member => ?_⟩
  rw [FoundInHoles, fill, places] at found
  obtain ⟨-, same⟩ | ⟨before, same, inside⟩ := mem_places_hole.mp
    (found _ (List.mem_map.mpr ⟨place, member, rfl⟩))
  · exact absurd same.symm distinct
  · rwa [Nat.add_right_cancel same]

variable [DecidableEq κ]

/-- Where a mark is found only in its holes, replacing it fills these holes. -/
theorem replaceFrom_fill (nonempty : shown name ≠ []) (found : FoundInHoles shown name pieces)
    (value : List α) :
    replaceFrom (shown name) value 0 (fill shown pieces) =
      fill (Function.update shown name value) pieces := by
  induction pieces with
  | nil => rfl
  | cons piece rest ih =>
    cases piece with
    | letter a =>
      obtain ⟨first, later⟩ := found.of_letter
      rw [fill, replaceFrom, if_neg first, ih later]
      rfl
    | hole filled =>
      rw [fill, fill]
      by_cases same : filled = name
      · subst same
        rw [replaceFrom_append nonempty, ih (found.of_hole nonempty), Function.update_self]
      · obtain ⟨kept, later⟩ := found.of_other same value
        rw [kept, ih later, Function.update_of_ne same]

theorem replace_fill (nonempty : shown name ≠ []) (found : FoundInHoles shown name pieces)
    (value : List α) :
    replace (shown name) value (fill shown pieces) =
      fill (Function.update shown name value) pieces := by
  rw [replace, if_neg nonempty]
  exact replaceFrom_fill nonempty found value

end Filling

section Order

variable [DecidableEq κ] {mark values : κ → List α} {pieces : List (Piece κ α)}

/-- Holes that are filled, among others that show their marks. -/
def partly (mark values : κ → List α) (filled : Finset κ) (name : κ) : List α :=
  if name ∈ filled then values name else mark name

theorem partly_insert (filled : Finset κ) (name : κ) :
    Function.update (partly mark values filled) name (values name) =
      partly mark values (insert name filled) := by
  funext other
  by_cases same : other = name
  · subst same
    rw [Function.update_self, partly, if_pos (Finset.mem_insert_self _ _)]
  · have whether : other ∈ insert name filled ↔ other ∈ filled := by simp [same]
    rw [Function.update_of_ne same, partly, partly]
    simp only [whether]

variable [DecidableEq α]

/-- Filling the holes one after the other, where every mark is found only in its holes when its turn
comes. -/
theorem replaceAll_fill {order : List κ} (nodup : order.Nodup)
    (nonempty : ∀ name ∈ order, mark name ≠ [])
    (found : ∀ front name back, order = front ++ name :: back →
      FoundInHoles (partly mark values front.toFinset) name pieces) :
    replaceAll mark values order (fill mark pieces) =
      fill (partly mark values order.toFinset) pieces := by
  induction order using List.reverseRecOn with
  | nil => exact fill_congr fun name _ => (if_neg (Finset.notMem_empty name)).symm
  | append_singleton order name ih =>
    have fresh : name ∉ order := fun member =>
      List.disjoint_of_nodup_append nodup member (List.mem_singleton_self _)
    have shown : partly mark values order.toFinset name = mark name :=
      if_neg fun member => fresh (List.mem_toFinset.mp member)
    have marked : partly mark values order.toFinset name ≠ [] := by
      rw [shown]
      exact nonempty name (List.mem_append_right _ (List.mem_singleton_self _))
    have before := ih nodup.of_append_left
      (fun other member => nonempty other (List.mem_append_left _ member))
      fun front other back split => found front other (back ++ [name]) (by simp [split])
    have step := replace_fill marked (found order name [] rfl) (values name)
    rw [shown, partly_insert] at step
    have all : (order ++ [name]).toFinset = insert name order.toFinset := by
      rw [List.toFinset_append, Finset.union_comm]
      rfl
    rw [replaceAll_append, before, all]
    exact step

/-- When nothing but holes is filled in any step, every mark is found only in its holes. -/
theorem foundInHoles_of_steps {order : List κ} (nodup : order.Nodup)
    (nonempty : ∀ name ∈ order, mark name ≠ [])
    (steps : ∀ front name back, order = front ++ name :: back →
      ∀ place ∈ foundFrom (mark name) 0 (replaceAll mark values front (fill mark pieces)),
        (place, name) ∈ places (partly mark values front.toFinset) pieces)
    {front : List κ} {name : κ} {back : List κ} (split : order = front ++ name :: back) :
    FoundInHoles (partly mark values front.toFinset) name pieces := by
  induction length : front.length using Nat.strong_induction_on generalizing front name back with
  | _ n ih =>
    subst length
    rw [split] at nodup nonempty
    have filled : replaceAll mark values front (fill mark pieces) =
        fill (partly mark values front.toFinset) pieces := by
      refine replaceAll_fill nodup.of_append_left
        (fun other member => nonempty other (List.mem_append_left _ member)) ?_
      rintro earlier other between rfl
      refine ih earlier.length ?_ (by rw [split, List.append_assoc]; rfl) rfl
      rw [List.length_append, List.length_cons]
      omega
    have shown : partly mark values front.toFinset name = mark name := by
      refine if_neg fun member => ?_
      exact List.disjoint_of_nodup_append nodup (List.mem_toFinset.mp member) List.mem_cons_self
    rw [FoundInHoles, shown, ← filled]
    exact steps front name back split

end Order

end UHorse.Lib.Holes
