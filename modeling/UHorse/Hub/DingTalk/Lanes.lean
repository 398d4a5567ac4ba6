import UHorse.Hub.DingTalk.Staging
import UHorse.Lib.Occurrences

/-!
# The lane of a session

`run_serialized` lets one handler of a session work at a time: the lane of a session
is held by at most one handler, and only while it is among the lanes that are taken.
-/

namespace UHorse.Hub.DingTalk

open UHorse.Lib UHorse.Protocol

variable {κ : Type}

def laneOf (member : κ × Stage) : Option String := member.2.lane

/-- Every lane has at most one holder, and a held lane is taken. -/
structure Laned (s : Web) (crew : List (κ × Stage)) : Prop where
  alone : ∀ key, (crew.filterMap laneOf).count key ≤ 1
  taken : ∀ member ∈ crew, ∀ key, laneOf member = some key → key ∈ s.lanes

/-- An action keeps the lane of its handler, takes a free one or gives the lane up. -/
theorem Move.lanes {stage after : Stage} {note : Note} {env : WebEnv} {s t : Web}
    (move : Move stage note env s after t) :
    (after.lane = stage.lane ∧ t.lanes = s.lanes) ∨
    (∃ key, stage.lane = none ∧ after.lane = some key ∧ key ∉ s.lanes ∧
      t.lanes = insert key s.lanes) ∨
    ∃ key, stage.lane = some key ∧ after.lane = none ∧ t.lanes = s.lanes.erase key := by
  cases move with
  | quiet _ same => exact .inl ⟨rfl, same.lanes⟩
  | enter free => exact .inr (.inl ⟨_, rfl, rfl, free, rfl⟩)
  | hold free => exact .inr (.inl ⟨_, rfl, rfl, free, rfl⟩)
  | leave held => exact .inr (.inr ⟨_, held, rfl, rfl⟩)
  | _ => exact .inl ⟨rfl, rfl⟩

namespace Laned

variable {s t : Web} {crew : List (κ × Stage)}

theorem empty (s : Web) : Laned s ([] : List (κ × Stage)) := ⟨by simp, by simp⟩

theorem spawn (laned : Laned s crew) {member : κ × Stage} (idle : laneOf member = none) :
    Laned s (crew ++ [member]) := by
  refine ⟨?_, ?_⟩
  · intro key
    rw [count_filterMap_concat, idle]
    exact laned.alone key
  · intro other present key held
    obtain old | new := List.mem_append.mp present
    · exact laned.taken other old key held
    · cases List.mem_singleton.mp new
      rw [idle] at held
      cases held

variable {index : Nat} {seen later : κ} {stage after : Stage}

/-- No other handler holds the lane that one holds. -/
theorem unique (laned : Laned s crew) {other : Nat} {first second : κ × Stage} {key : String}
    (here : crew[index]? = some first) (there : crew[other]? = some second)
    (holds : laneOf first = some key) (also : laneOf second = some key) : index = other := by
  by_contra distinct
  have counted := tick?_add_le_count laneOf here there distinct key
  have alone := laned.alone key
  rw [holds, also, tick?_some, tick_self] at counted
  omega

theorem run (laned : Laned s crew) (here : crew[index]? = some (seen, stage)) {note : Note}
    {env : WebEnv} (move : Move stage note env s after t) :
    Laned t (crew.set index (later, after)) := by
  have member : (seen, stage) ∈ crew := List.mem_of_getElem? here
  have moved : ∀ key, ((crew.set index (later, after)).filterMap laneOf).count key +
      tick? stage.lane key = (crew.filterMap laneOf).count key + tick? after.lane key :=
    fun key => count_filterMap_set laneOf here (later, after) key
  obtain ⟨same, lanes⟩ | ⟨key, idle, holds, free, lanes⟩ | ⟨key, holds, idle, lanes⟩ := move.lanes
  · refine ⟨?_, ?_⟩
    · intro key
      have counted := moved key
      have alone := laned.alone key
      rw [same] at counted
      omega
    · intro other present key held
      rw [lanes]
      obtain old | rfl := List.mem_or_eq_of_mem_set present
      · exact laned.taken other old key held
      · exact laned.taken _ member key (same.symm.trans held)
  · -- Nobody holds a lane that is free.
    have unheld : (crew.filterMap laneOf).count key = 0 := by
      apply List.count_eq_zero_of_not_mem
      intro found
      obtain ⟨other, present, held⟩ := List.mem_filterMap.mp found
      exact free (laned.taken other present key held)
    refine ⟨?_, ?_⟩
    · intro other
      have counted := moved other
      have alone := laned.alone other
      rw [idle, holds, tick?_none, tick?_some] at counted
      by_cases same : key = other
      · subst same
        rw [tick_self] at counted
        omega
      · rw [tick_of_ne same] at counted
        omega
    · intro other present key' held
      rw [lanes]
      obtain old | rfl := List.mem_or_eq_of_mem_set present
      · exact Finset.mem_insert_of_mem (laned.taken other old key' held)
      · cases holds.symm.trans held
        exact Finset.mem_insert_self key s.lanes
  · refine ⟨?_, ?_⟩
    · intro other
      have counted := moved other
      have alone := laned.alone other
      rw [idle, tick?_none] at counted
      omega
    · intro other present key' held
      rw [lanes]
      obtain ⟨position, there⟩ := List.mem_iff_getElem?.mp present
      by_cases same : index = position
      · subst same
        rw [List.getElem?_set_self', here] at there
        cases there
        have held : after.lane = some key' := held
        rw [idle] at held
        cases held
      · rw [List.getElem?_set_ne same] at there
        refine Finset.mem_erase.mpr ⟨?_, laned.taken other (List.mem_of_getElem? there) key' held⟩
        rintro rfl
        exact same (laned.unique here there holds held)

end Laned
end UHorse.Hub.DingTalk
