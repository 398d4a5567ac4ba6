import Mathlib.Data.List.Basic

/-!
# Rings searched in the order of their nodes

A ring places nodes at positions. The successor of a key is the node with the least position that
is not below it, or with the least of all if there is none. A ring that is kept in the order of
its nodes and searched for the first position that is not below the key finds the successor as
long as the positions rise with the nodes, and only then is each node found for some key.
-/

namespace UHorse.Lib.HashRing

set_option linter.unusedSectionVars false

variable {ν κ : Type*} [LE κ] [LT κ] [DecidableLE κ] [Std.IsLinearOrder κ] [Std.LawfulOrderLT κ]
  {position : ν → κ} {ring : List ν} {key : κ} {node : ν}

variable (position) in
/-- The first node whose position is not below the key, or the first of all. -/
def target (ring : List ν) (key : κ) : Option ν :=
  (ring.find? fun node => key ≤ position node) <|> ring.head?

variable (position ring key) in
/-- A node is not below the key, and none with a lower position is; or all are below it, and none
has a lower position. -/
structure IsSuccessor (node : ν) : Prop where
  member : node ∈ ring
  least : (key ≤ position node ∧
      ∀ other ∈ ring, key ≤ position other → position node ≤ position other) ∨
    (∀ other ∈ ring, position other < key) ∧ ∀ other ∈ ring, position node ≤ position other

/-- The target is found, or it is the first node and all positions are below the key. -/
theorem target_eq_some (found : target position ring key = some node) :
    (ring.find? fun node => decide (key ≤ position node)) = some node ∧ key ≤ position node ∨
      (∀ other ∈ ring, position other < key) ∧ ring.head? = some node := by
  rw [target] at found
  cases search : ring.find? fun node => decide (key ≤ position node) with
  | some first =>
    rw [search] at found
    obtain rfl : first = node := Option.some.inj found
    have reaches := List.find?_some search
    exact .inl ⟨rfl, of_decide_eq_true reaches⟩
  | none =>
    rw [search] at found
    refine .inr ⟨fun other inside => ?_, found⟩
    exact Std.not_le.mp (of_decide_eq_false
      (Bool.not_eq_true _ ▸ List.find?_eq_none.mp search other inside))

theorem mem_of_target (found : target position ring key = some node) : node ∈ ring := by
  obtain ⟨search, -⟩ | ⟨-, first⟩ := target_eq_some found
  · exact List.mem_of_find?_eq_some search
  · exact List.mem_of_mem_head? first

/-- There is a target on a ring with nodes. -/
theorem exists_target (nonempty : ring ≠ []) (key : κ) :
    ∃ node, target position ring key = some node := by
  obtain ⟨first, rest, rfl⟩ := List.exists_cons_of_ne_nil nonempty
  rw [target]
  cases (first :: rest).find? fun node => decide (key ≤ position node) with
  | some node => exact ⟨node, rfl⟩
  | none => exact ⟨first, rfl⟩

section Ordered

variable [LE ν] [LT ν] [Std.IsLinearOrder ν] [Std.LawfulOrderLT ν]

variable (position ring) in
/-- Positions rise with the nodes. -/
def Rises : Prop :=
  ∀ first ∈ ring, ∀ second ∈ ring, first < second → position first < position second

/-- What is found first on an ordered ring is the least node that qualifies. -/
theorem le_of_find? (ordered : ring.Pairwise (· ≤ ·)) {qualifies : ν → Bool}
    (search : ring.find? qualifies = some node) {other : ν} (inside : other ∈ ring)
    (also : qualifies other = true) : node ≤ other := by
  obtain ⟨-, before, after, rfl, skipped⟩ := List.find?_eq_some_iff_append.mp search
  obtain early | late := List.mem_append.mp inside
  · exact absurd also (by simpa using skipped other early)
  · obtain rfl | later := List.mem_cons.mp late
    · exact Std.le_refl _
    · exact List.rel_of_pairwise_cons (List.pairwise_append.mp ordered).2.1 later

theorem le_of_head? (ordered : ring.Pairwise (· ≤ ·)) (first : ring.head? = some node) {other : ν}
    (inside : other ∈ ring) : node ≤ other := by
  obtain ⟨rest, rfl⟩ := List.head?_eq_some_iff.mp first
  obtain rfl | later := List.mem_cons.mp inside
  · exact Std.le_refl _
  · exact List.rel_of_pairwise_cons ordered later

theorem Rises.le (rises : Rises position ring) {first second : ν} (inside : first ∈ ring)
    (inside' : second ∈ ring) (before : first ≤ second) : position first ≤ position second := by
  obtain less | rfl := Std.le_iff_lt_or_eq.mp before
  · exact Std.le_of_lt (rises first inside second inside' less)
  · exact Std.le_refl _

/-- Where positions rise with the nodes, the target is the successor. -/
theorem Rises.isSuccessor (rises : Rises position ring) (ordered : ring.Pairwise (· ≤ ·))
    (found : target position ring key = some node) : IsSuccessor position ring key node := by
  have inside := mem_of_target found
  refine ⟨inside, ?_⟩
  obtain ⟨search, reached⟩ | ⟨below, first⟩ := target_eq_some found
  · refine .inl ⟨reached, fun other inside' reaches => ?_⟩
    exact rises.le inside inside' (le_of_find? ordered search inside' (decide_eq_true reaches))
  · refine .inr ⟨below, fun other inside' => ?_⟩
    exact rises.le inside inside' (le_of_head? ordered first inside')

/-- Positions rise with the nodes just when each node is the target of some key. -/
theorem rises_iff_onto (ordered : ring.Pairwise (· ≤ ·)) :
    Rises position ring ↔ ∀ node ∈ ring, ∃ key, target position ring key = some node := by
  constructor
  · intro rises node inside
    obtain ⟨found, searched⟩ := exists_target (List.ne_nil_of_mem inside) (position node)
    refine ⟨position node, searched.trans (congrArg some ?_)⟩
    obtain ⟨search, reaches⟩ | ⟨below, -⟩ := target_eq_some searched
    · have before := le_of_find? ordered search inside (decide_eq_true (Std.le_refl _))
      refine Std.le_antisymm before (Std.not_lt.mp fun less => ?_)
      exact absurd (rises _ (mem_of_target searched) _ inside less) (Std.not_lt.mpr reaches)
    · exact absurd (below node inside) (Std.lt_irrefl)
  · intro onto first inside second inside' less
    obtain ⟨key, found⟩ := onto second inside'
    obtain ⟨search, reached⟩ | ⟨-, head⟩ := target_eq_some found
    · refine Std.lt_of_lt_of_le ?_ reached
      refine Std.not_le.mp fun reaches => ?_
      exact absurd less
        (Std.not_lt.mpr (le_of_find? ordered search inside (decide_eq_true reaches)))
    · exact absurd less (Std.not_lt.mpr (le_of_head? ordered head inside))

end Ordered

/-- A target stays the target while other nodes leave. -/
theorem target_filter {stays : ν → Bool} (found : target position ring key = some node)
    (kept : stays node = true) : target position (ring.filter stays) key = some node := by
  obtain ⟨search, -⟩ | ⟨below, first⟩ := target_eq_some found
  · obtain ⟨reaches, before, after, rfl, skipped⟩ := List.find?_eq_some_iff_append.mp search
    have still : (((before ++ node :: after).filter stays).find?
        fun node => decide (key ≤ position node)) = some node := by
      rw [List.filter_append, List.filter_cons_of_pos kept]
      refine List.find?_eq_some_iff_append.mpr ⟨reaches, _, _, rfl, fun other inside => ?_⟩
      exact skipped other (List.mem_of_mem_filter inside)
    rw [target, still]
    rfl
  · obtain ⟨rest, rfl⟩ := List.head?_eq_some_iff.mp first
    have nothing : (((node :: rest).filter stays).find?
        fun node => decide (key ≤ position node)) = none := by
      refine List.find?_eq_none.mpr fun other inside reaches => ?_
      exact absurd (of_decide_eq_true reaches)
        (Std.not_le.mpr (below other (List.mem_of_mem_filter inside)))
    rw [target, nothing, List.filter_cons_of_pos kept]
    rfl

end UHorse.Lib.HashRing
