import Mathlib.Data.Finmap

/-!
# Finite maps with an unspecified iteration order

A hash map is a `Finmap`: finitely many keys, one value each, and no order of
iteration. Code that iterates takes the order it happened to see as an argument
and a proof that it lists the map's entries.

The lookup lemmas state insertion and removal as one conditional each, which is
the form case analysis on keys needs.
-/

namespace UHorse.Lib

/-- A finite map from `K` to `V`. -/
abbrev HashMap (K : Type*) (V : Type*) := Finmap (fun _ : K => V)

namespace HashMap

variable {K V : Type*} [DecidableEq K]

@[grind =]
theorem lookup_insert_ite (m : HashMap K V) (k k' : K) (v : V) :
    (m.insert k v).lookup k' = if k' = k then some v else m.lookup k' := by
  by_cases same : k' = k
  · subst same
    rw [if_pos rfl, Finmap.lookup_insert]
  · rw [if_neg same, Finmap.lookup_insert_of_ne _ same]

@[grind =]
theorem lookup_erase_ite (m : HashMap K V) (k k' : K) :
    (m.erase k).lookup k' = if k' = k then none else m.lookup k' := by
  by_cases same : k' = k
  · subst same
    rw [if_pos rfl, Finmap.lookup_erase]
  · rw [if_neg same, Finmap.lookup_erase_ne same]

variable {m : HashMap K V} {k : K} {order : List (K × V)}

theorem mem_of_lookup {v : V} (found : m.lookup k = some v) : k ∈ m :=
  Finmap.mem_of_lookup_eq_some found

/-- `order` lists the entries of `m`, as one iteration over the map sees them. -/
def Lists (m : HashMap K V) (order : List (K × V)) : Prop :=
  (order.map Prod.fst).Nodup ∧ ∀ k v, (k, v) ∈ order ↔ m.lookup k = some v

theorem Lists.mem_keys (listed : m.Lists order) (k : K) : k ∈ order.map Prod.fst ↔ k ∈ m := by
  constructor
  · intro member
    obtain ⟨⟨k', v⟩, entry, rfl⟩ := List.mem_map.mp member
    exact mem_of_lookup ((listed.2 k' v).mp entry)
  · intro member
    obtain ⟨v, found⟩ := Finmap.mem_iff.mp member
    exact List.mem_map.mpr ⟨(k, v), (listed.2 k v).mpr found, rfl⟩

theorem lists_empty : Lists (∅ : HashMap K V) [] :=
  ⟨List.nodup_nil, fun k v => by simp⟩

theorem Lists.insert (listed : m.Lists order) (fresh : k ∉ m) (v : V) :
    Lists (m.insert k v) ((k, v) :: order) := by
  refine ⟨List.nodup_cons.mpr ⟨fun member => fresh ((listed.mem_keys k).mp member), listed.1⟩, ?_⟩
  intro k' v'
  rw [lookup_insert_ite, List.mem_cons, Prod.mk.injEq]
  by_cases same : k' = k
  · subst same
    rw [if_pos rfl, listed.2, Finmap.lookup_eq_none.mpr fresh]
    simp [eq_comm]
  · rw [if_neg same, listed.2]
    simp [same]

theorem Lists.perm {other : List (K × V)} (listed : m.Lists order) (perm : other.Perm order) :
    m.Lists other :=
  ⟨(perm.map Prod.fst).nodup_iff.mpr listed.1, fun k v => perm.mem_iff.trans (listed.2 k v)⟩

/-- Every map has an iteration order. -/
theorem exists_lists (m : HashMap K V) : ∃ order, m.Lists order := by
  induction m using Finmap.induction_on with
  | _ entries =>
    refine ⟨entries.entries.map (fun entry => (entry.1, entry.2)), ?_, ?_⟩
    · simpa [List.map_map, Function.comp_def, List.NodupKeys, List.keys] using
        entries.nodupKeys
    · intro k v
      rw [Finmap.lookup_toFinmap, AList.lookup, ← Option.mem_def,
        List.mem_dlookup_iff entries.nodupKeys]
      simp only [List.mem_map, Prod.mk.injEq]
      constructor
      · rintro ⟨⟨k', v'⟩, member, rfl, rfl⟩
        exact member
      · intro member
        exact ⟨⟨k, v⟩, member, rfl, rfl⟩

/-- The entries at these keys, in the order of the keys. -/
def listing (m : HashMap K V) (keys : List K) : List (K × V) :=
  keys.filterMap fun k => (m.lookup k).map (k, ·)

theorem lists_listing {keys : List K} (distinct : keys.Nodup) (covers : ∀ k ∈ m.keys, k ∈ keys) :
    m.Lists (m.listing keys) := by
  have names : (m.listing keys).map Prod.fst = keys.filter fun k => (m.lookup k).isSome := by
    rw [listing, List.map_filterMap, ← List.filterMap_eq_filter]
    refine List.filterMap_congr fun k _ => ?_
    cases found : m.lookup k <;> simp [found, Option.guard]
  refine ⟨names ▸ distinct.filter _, fun k v => ?_⟩
  simp only [listing, List.mem_filterMap, Option.map_eq_some_iff, Prod.mk.injEq]
  constructor
  · rintro ⟨k, -, v, found, rfl, rfl⟩
    exact found
  · intro found
    exact ⟨k, covers k (Finmap.mem_keys.mpr (mem_of_lookup found)), v, found, rfl, rfl⟩

/-- An iteration may see some entries first and then a given one. -/
theorem exists_lists_behind (m : HashMap K V) (first : Finset K) {v : V}
    (found : m.lookup k = some v) (later : k ∉ first) :
    ∃ front back, m.Lists (front ++ (k, v) :: back) ∧
      ∀ entry, entry ∈ front ↔ m.lookup entry.1 = some entry.2 ∧ entry.1 ∈ first := by
  obtain ⟨order, listed⟩ := m.exists_lists
  have member : (k, v) ∈ order.filter fun entry => !decide (entry.1 ∈ first) :=
    List.mem_filter.mpr ⟨(listed.2 k v).mpr found, by simp [later]⟩
  obtain ⟨before, after, split⟩ := List.append_of_mem member
  refine ⟨order.filter fun entry => entry.1 ∈ first, before ++ after, listed.perm ?_, ?_⟩
  · refine .trans (.append_left _ (List.perm_middle.symm.trans (.of_eq split.symm))) ?_
    exact List.filter_append_perm _ order
  · intro entry
    rw [List.mem_filter, listed.2, decide_eq_true_iff]

/-- Change every value of the map. -/
def mapValues {W : Type*} (f : V → W) (m : HashMap K V) : HashMap K W where
  entries := m.entries.map fun entry => ⟨entry.1, f entry.2⟩
  nodupKeys := by
    rw [← Multiset.nodup_keys, Multiset.keys, Multiset.map_map]
    exact m.nodupKeys.nodup_keys

@[simp] theorem lookup_mapValues {W : Type*} (f : V → W) (m : HashMap K V) (k : K) :
    (m.mapValues f).lookup k = (m.lookup k).map f := by
  induction m using Finmap.induction_on with
  | _ entries => exact List.dlookup_map₂ (f := fun _ => f) k

/-- Keep the entries whose value meets `p`. -/
def retain (m : HashMap K V) (p : V → Bool) : HashMap K V where
  entries := m.entries.filter fun entry => p entry.2
  nodupKeys := by
    rw [← Multiset.nodup_keys, Multiset.keys]
    exact Multiset.nodup_of_le (Multiset.map_le_map (Multiset.filter_le _ _))
      m.nodupKeys.nodup_keys

@[simp] theorem lookup_retain (m : HashMap K V) (p : V → Bool) (k : K) :
    (m.retain p).lookup k = (m.lookup k).filter p := by
  induction m using Finmap.induction_on with
  | _ entries =>
    have kept : (entries.entries.filter fun entry => decide (p entry.2 = true)).NodupKeys :=
      entries.nodupKeys.sublist List.filter_sublist
    refine Option.ext fun v => ?_
    rw [Option.filter_eq_some_iff]
    show v ∈ List.dlookup k (entries.entries.filter fun entry => decide (p entry.2 = true)) ↔
      v ∈ List.dlookup k entries.entries ∧ _
    rw [List.mem_dlookup_iff kept, List.mem_dlookup_iff entries.nodupKeys, List.mem_filter,
      decide_eq_true_iff]

/-- Remove several keys, one after the other. -/
def eraseAll (m : HashMap K V) (keys : List K) : HashMap K V :=
  keys.foldl (fun remaining k => remaining.erase k) m

theorem lookup_eraseAll (m : HashMap K V) (keys : List K) (k : K) :
    (m.eraseAll keys).lookup k = if k ∈ keys then none else m.lookup k := by
  induction keys generalizing m with
  | nil => simp [eraseAll]
  | cons head tail ih =>
    have unfolded : m.eraseAll (head :: tail) = eraseAll (m.erase head) tail := rfl
    rw [unfolded, ih, lookup_erase_ite]
    by_cases inTail : k ∈ tail
    · simp [inTail]
    · by_cases same : k = head <;> simp [inTail, same]

theorem mem_eraseAll (m : HashMap K V) (keys : List K) (k : K) :
    k ∈ m.eraseAll keys ↔ k ∉ keys ∧ k ∈ m := by
  rw [← Finmap.lookup_isSome, ← Finmap.lookup_isSome, lookup_eraseAll]
  by_cases removed : k ∈ keys <;> simp [removed]

theorem Lists.card_keys (listed : m.Lists order) : m.keys.card = order.length := by
  have keys : m.keys = (order.map Prod.fst).toFinset := by
    ext k
    rw [List.mem_toFinset, listed.mem_keys, Finmap.mem_keys]
  rw [keys, List.toFinset_card_of_nodup listed.1, List.length_map]

theorem card_keys_insert_le (m : HashMap K V) (k : K) (v : V) :
    (m.insert k v).keys.card ≤ m.keys.card + 1 := by
  refine (Finset.card_le_card (t := insert k m.keys) fun k' member => ?_).trans
    (Finset.card_insert_le _ _)
  rw [Finmap.mem_keys, Finmap.mem_insert] at member
  rwa [Finset.mem_insert, Finmap.mem_keys]

theorem card_keys_eraseAll {keys : List K} (distinct : keys.Nodup) (inside : ∀ k ∈ keys, k ∈ m) :
    (m.eraseAll keys).keys.card = m.keys.card - keys.length := by
  have left : (m.eraseAll keys).keys = m.keys \ keys.toFinset := by
    ext k
    rw [Finmap.mem_keys, mem_eraseAll, Finset.mem_sdiff, Finmap.mem_keys, List.mem_toFinset,
      and_comm]
  rw [left, Finset.card_sdiff_of_subset, List.toFinset_card_of_nodup distinct]
  exact fun k member => Finmap.mem_keys.mpr (inside k (List.mem_toFinset.mp member))

/-- The keys whose value meets `p`. -/
def keysWith (m : HashMap K V) (p : V → Bool) : Finset K :=
  m.keys.filter fun k => (m.lookup k).any p

theorem mem_keysWith {p : V → Bool} : k ∈ m.keysWith p ↔ ∃ v, m.lookup k = some v ∧ p v = true := by
  rw [keysWith, Finset.mem_filter, Option.any_eq_true]
  constructor
  · rintro ⟨-, found⟩
    exact found
  · rintro ⟨v, found, met⟩
    exact ⟨Finmap.mem_keys.mpr (mem_of_lookup found), v, found, met⟩

theorem card_keysWith_erase_le (m : HashMap K V) (p : V → Bool) (k : K) :
    (keysWith (m.erase k) p).card ≤ (m.keysWith p).card := by
  refine Finset.card_le_card fun k' member => ?_
  obtain ⟨v, found, met⟩ := mem_keysWith.mp member
  rw [lookup_erase_ite] at found
  split at found
  · cases found
  · exact mem_keysWith.mpr ⟨v, found, met⟩

theorem card_keysWith_insert_le (m : HashMap K V) (p : V → Bool) (k : K) (v : V) :
    (keysWith (m.insert k v) p).card ≤ (m.keysWith p).card + (p v).toNat := by
  have kept : ∀ k' ∈ keysWith (m.insert k v) p, k' = k ∧ p v = true ∨ k' ∈ m.keysWith p := by
    intro k' member
    obtain ⟨v', found, met⟩ := mem_keysWith.mp member
    rw [lookup_insert_ite] at found
    split at found
    · next same =>
        cases found
        exact .inl ⟨same, met⟩
    · exact .inr (mem_keysWith.mpr ⟨v', found, met⟩)
  cases met : p v with
  | false =>
    refine Finset.card_le_card fun k' member => ?_
    obtain ⟨-, impossible⟩ | old := kept k' member
    · exact absurd (met.symm.trans impossible) Bool.false_ne_true
    · exact old
  | true =>
    refine (Finset.card_le_card (t := insert k (m.keysWith p)) fun k' member => ?_).trans
      (Finset.card_insert_le _ _)
    obtain ⟨rfl, -⟩ | old := kept k' member
    · exact Finset.mem_insert_self _ _
    · exact Finset.mem_insert_of_mem old

end HashMap
end UHorse.Lib
