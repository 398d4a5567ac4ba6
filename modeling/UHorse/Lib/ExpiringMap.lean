import Mathlib.Data.List.Basic
import Mathlib.Order.Lattice

/-!
# Maps whose entries expire

Every entry has a deadline. A key is live as long as the deadline of its entry is to come; an entry
that has expired stays in the map and is not seen any more. Time is any linear order.
-/

namespace UHorse.Lib

/-- The entries, with their values and deadlines; the first one of a key counts. -/
abbrev ExpiringMap (K V T : Type*) := List (K × V × T)

namespace ExpiringMap

variable {K V T : Type*} [DecidableEq K]

/-! ## Entries -/

/-- The entry of a key, expired or not. -/
def entry (m : ExpiringMap K V T) (k : K) : Option (V × T) :=
  (m.find? fun found => found.1 = k).map Prod.snd

def eraseWhere (m : ExpiringMap K V T) (p : K → Bool) : ExpiringMap K V T :=
  m.filter fun found => !p found.1

def erase (m : ExpiringMap K V T) (k : K) : ExpiringMap K V T := m.eraseWhere fun other => other = k

def insert (m : ExpiringMap K V T) (k : K) (value : V) (deadline : T) : ExpiringMap K V T :=
  (k, value, deadline) :: m.erase k

variable {m : ExpiringMap K V T} {k k' : K} {value : V} {deadline : T}

theorem entry_eraseWhere (p : K → Bool) :
    (m.eraseWhere p).entry k = if p k then none else m.entry k := by
  unfold entry eraseWhere
  induction m with
  | nil => exact (ite_self _).symm
  | cons head rest ih =>
    by_cases same : head.1 = k
    · subst same
      by_cases removed : p head.1
      · rw [List.filter_cons_of_neg (by simp [removed]), ih, if_pos removed, if_pos removed]
      · rw [List.filter_cons_of_pos (by simp [removed]), if_neg removed,
          List.find?_cons_of_pos (by simp), List.find?_cons_of_pos (by simp)]
    · have skipped := List.find?_cons_of_neg (p := fun found => decide (found.1 = k))
        (l := rest) (show ¬ decide (head.1 = k) = true by simpa using same)
      rw [skipped, ← ih]
      by_cases removed : p head.1
      · rw [List.filter_cons_of_neg (by simp [removed])]
      · rw [List.filter_cons_of_pos (by simp [removed]), List.find?_cons_of_neg (by simp [same])]

theorem entry_insert : (m.insert k value deadline).entry k' =
    if k' = k then some (value, deadline) else m.entry k' := by
  by_cases same : k' = k
  · subst same
    rw [if_pos rfl, entry, insert, List.find?_cons_of_pos (by simp)]
    rfl
  · have others : (m.insert k value deadline).entry k' = (m.erase k).entry k' := by
      rw [entry, insert, List.find?_cons_of_neg (by simpa using Ne.symm same)]
      rfl
    rw [others, erase, entry_eraseWhere, if_neg (by simpa using same), if_neg same]

/-! ## Live keys -/

variable [LinearOrder T] {now : T}

/-- The value of a live key. -/
def live (m : ExpiringMap K V T) (now : T) (k : K) : Option V :=
  match m.entry k with
  | some (value, deadline) => if now < deadline then some value else none
  | none => none

/-- A live key gets another deadline. -/
def extend (m : ExpiringMap K V T) (now : T) (k : K) (deadline : T) : ExpiringMap K V T :=
  match m.live now k with
  | some value => m.insert k value deadline
  | none => m

/-- The live keys that meet `p`. -/
def liveKeys (m : ExpiringMap K V T) (now : T) (p : K → Bool) : List K :=
  (m.map Prod.fst).filter fun k => p k && (m.live now k).isSome

theorem live_eq_some : m.live now k = some value ↔
    ∃ deadline, m.entry k = some (value, deadline) ∧ now < deadline := by
  rw [live]
  constructor
  · intro found
    split at found
    · next value' deadline here =>
        split at found
        · next alive =>
            cases found
            exact ⟨deadline, here, alive⟩
        · cases found
    · cases found
  · rintro ⟨deadline, here, alive⟩
    rw [here]
    exact if_pos alive

theorem live_eraseWhere (p : K → Bool) :
    (m.eraseWhere p).live now k = if p k then none else m.live now k := by
  rw [live]
  rw [entry_eraseWhere]
  split_ifs <;> rfl

theorem live_erase : (m.erase k).live now k' = if k' = k then none else m.live now k' := by
  rw [erase, live_eraseWhere]
  simp only [decide_eq_true_eq]

theorem live_insert : (m.insert k value deadline).live now k' =
    if k' = k then if now < deadline then some value else none else m.live now k' := by
  unfold live
  rw [entry_insert]
  by_cases same : k' = k
  · rw [if_pos same, if_pos same]
  · rw [if_neg same, if_neg same]

/-- What is live later is live before. -/
theorem live_of_le {later : T} (after : now ≤ later) (found : m.live later k = some value) :
    m.live now k = some value := by
  obtain ⟨deadline, here, alive⟩ := live_eq_some.mp found
  exact live_eq_some.mpr ⟨deadline, here, lt_of_le_of_lt after alive⟩

/-- A key that has expired does not come back. -/
theorem live_eq_none {later : T} (after : now ≤ later) (gone : m.live now k = none) :
    m.live later k = none := by
  cases found : m.live later k with
  | none => rfl
  | some value => exact (live_of_le after found).symm.trans gone

theorem live_extend {later : T} (after : now ≤ later) : (m.extend now k deadline).live later k' =
    if k' = k then if later < deadline then m.live now k else none else m.live later k' := by
  rw [extend]
  split
  · next value here =>
      rw [live_insert, here]
  · next gone =>
      rw [gone]
      by_cases same : k' = k
      · rw [if_pos same, ite_self, same, live_eq_none after gone]
      · rw [if_neg same]

theorem mem_of_live (found : m.live now k = some value) : ∃ deadline, (k, value, deadline) ∈ m := by
  obtain ⟨deadline, here, -⟩ := live_eq_some.mp found
  obtain ⟨⟨key, entry⟩, first, rfl⟩ := Option.map_eq_some_iff.mp here
  have same := List.find?_some first
  obtain rfl : key = k := of_decide_eq_true same
  exact ⟨deadline, List.mem_of_find?_eq_some first⟩

theorem mem_liveKeys {p : K → Bool} :
    k ∈ m.liveKeys now p ↔ p k = true ∧ (m.live now k).isSome = true := by
  rw [liveKeys]
  rw [List.mem_filter, Bool.and_eq_true, and_iff_right_iff_imp]
  rintro ⟨-, isLive⟩
  obtain ⟨value, found⟩ := Option.isSome_iff_exists.mp isLive
  obtain ⟨deadline, member⟩ := mem_of_live found
  exact List.mem_map.mpr ⟨_, member, rfl⟩

end ExpiringMap
end UHorse.Lib
