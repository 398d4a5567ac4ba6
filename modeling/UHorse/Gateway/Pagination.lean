import UHorse.Lib.Binary64
import UHorse.Lib.HashMap

/-!
# Pages of the gateway

A listing skips `(page - 1) * per_page` items, which is computed with 32 bits, and the answer tells
the number of pages, which is computed with floating-point numbers. The two agree wherever the
first does not leave its 32 bits.
-/

namespace UHorse.Gateway

open UHorse.Lib

/-- `((page - 1) * per_page) as usize`; `none` where the 32 bits do not suffice. -/
def skip (page perPage : UInt32) : Option Nat :=
  if page.toNat = 0 then none
  else if (page.toNat - 1) * perPage.toNat < 2 ^ 32 then some ((page.toNat - 1) * perPage.toNat)
  else none

/-- One page of the items, with their number. -/
def pageOf {α : Type} (items : List α) (total : Nat) (page perPage : UInt32) :
    Option (List α × Nat) :=
  (skip page perPage).map fun skip => ((items.drop skip).take perPage.toNat, total)

structure MemoryStore (Agent Skill Session SessionMessage : Type) where
  agents : HashMap String Agent
  skills : HashMap String Skill
  sessions : HashMap String Session
  messages : HashMap String (List SessionMessage)

variable {Agent Skill Session SessionMessage : Type}

namespace MemoryStore

variable (store : MemoryStore Agent Skill Session SessionMessage)

/-- The order in which the maps are iterated while the store is unchanged. -/
structure Iteration where
  agents : List (String × Agent)
  skills : List (String × Skill)
  sessions : List (String × Session)
  listsAgents : store.agents.Lists agents
  listsSkills : store.skills.Lists skills
  listsSessions : store.sessions.Lists sessions

variable (iteration : store.Iteration) (page perPage : UInt32)

def listAgents : Option (List Agent × Nat) :=
  pageOf (iteration.agents.map Prod.snd) store.agents.keys.card page perPage

def listSkills : Option (List Skill × Nat) :=
  pageOf (iteration.skills.map Prod.snd) store.skills.keys.card page perPage

def listSessions : Option (List Session × Nat) :=
  pageOf (iteration.sessions.map Prod.snd) store.sessions.keys.card page perPage

def sessionMessages (sessionId : String) : List SessionMessage :=
  (store.messages.lookup sessionId).getD []

def getSessionMessages (sessionId : String) : Option (List SessionMessage × Nat) :=
  pageOf (store.sessionMessages sessionId) (store.sessionMessages sessionId).length page perPage

end MemoryStore

structure PaginatedResponse (α : Type) where
  items : List α
  total : Nat
  page : UInt32
  perPage : UInt32
  totalPages : Nat

/-- The floating-point numbers of 32 and 64 bits, divided, rounded up and cast to 32 bits. -/
def PaginatedResponse.new {α : Type} (items : List α) (total : Nat) (page perPage : UInt32) :
    PaginatedResponse α where
  items := items
  total := total
  page := page
  perPage := perPage
  totalPages :=
    if 0 < perPage.toNat then
      min ⌈Binary64.div (Binary64.nearest total) (Binary64.nearest perPage.toNat)⌉.toNat
        (2 ^ 32 - 1)
    else 0

/-- What a handler answers. -/
def respond {α : Type} (listed : UInt32 → UInt32 → Option (List α × Nat))
    (page perPage : UInt32) : Option (PaginatedResponse α) :=
  (listed page perPage).map fun found => .new found.1 found.2 page perPage

/-- The page is computed, and below `2 ^ 32` items the pages 1 to `total_pages` of a positive size
are the items, this page is empty if it is a later one, and no smaller number of pages holds the
items. -/
def ExactPages {α : Type} (listed : UInt32 → UInt32 → Option (List α × Nat)) (items : List α)
    (page perPage : UInt32) : Prop :=
  ∃ response, respond listed page perPage = some response ∧
    (0 < perPage.toNat → items.length < 2 ^ 32 →
      (∃ pages : List (List α), pages.flatten = items ∧ pages.length = response.totalPages ∧
        ∀ index < response.totalPages,
          (respond listed (.ofNat (index + 1)) perPage).map PaginatedResponse.items =
            pages[index]?) ∧
      (response.totalPages < page.toNat → response.items = []) ∧
      items.length ≤ response.totalPages * perPage.toNat ∧
      ∀ few, items.length ≤ few * perPage.toNat → response.totalPages ≤ few)

section Pages

variable {α : Type} {items : List α} {page perPage : UInt32}

theorem skip_eq_some {skipped : Nat} : skip page perPage = some skipped ↔
    (1 ≤ page.toNat ∧ (page.toNat - 1) * perPage.toNat < 2 ^ 32) ∧
      skipped = (page.toNat - 1) * perPage.toNat := by
  rw [skip]
  split
  · next zero => simp [zero]
  · next positive =>
      rw [and_iff_right (Nat.one_le_iff_ne_zero.mpr positive)]
      split
      · next fits => rw [Option.some.injEq, and_iff_right fits, eq_comm]
      · next larger => exact iff_of_false nofun fun computed => larger computed.1

/-- The quotient, rounded up, is the least number of pages that hold the items. -/
theorem div_pages {size : Nat} (positive : 0 < size) (count : Nat) :
    count ≤ (count + size - 1) / size * size ∧
      ∀ few, count ≤ few * size → (count + size - 1) / size ≤ few := by
  constructor
  · have parts := Nat.div_add_mod (count + size - 1) size
    have rest := Nat.mod_lt (count + size - 1) positive
    rw [Nat.mul_comm] at parts
    omega
  · intro few enough
    rw [← Nat.lt_succ_iff, Nat.div_lt_iff_lt_mul positive, Nat.succ_mul]
    omega

theorem totalPages_new (positive : 0 < perPage.toNat) (small : items.length < 2 ^ 32)
    (page : UInt32) (found : List α) :
    (PaginatedResponse.new found items.length page perPage).totalPages =
      (items.length + perPage.toNat - 1) / perPage.toNat := by
  obtain ⟨enough, least⟩ := div_pages positive items.length
  have few := least items.length (Nat.le_mul_of_pos_right _ positive)
  have size : (0 : ℚ) < perPage.toNat := by exact_mod_cast positive
  have width := perPage.toNat_lt
  have ceil : ⌈(items.length : ℚ) / perPage.toNat⌉ =
      ((items.length + perPage.toNat - 1) / perPage.toNat : ℕ) := by
    refine le_antisymm (Int.ceil_le.mpr ?_) ?_
    · rw [div_le_iff₀ size]
      exact_mod_cast enough
    · have above := Int.le_ceil ((items.length : ℚ) / perPage.toNat)
      rw [div_le_iff₀ size] at above
      obtain ⟨pages, whole⟩ := Int.eq_ofNat_of_zero_le
        (Int.ceil_nonneg (div_nonneg (Nat.cast_nonneg items.length) size.le))
      rw [whole] at above ⊢
      exact Int.ofNat_le.mpr (least pages (by exact_mod_cast above))
  rw [PaginatedResponse.new, if_pos positive, Binary64.nearest_natCast (by omega),
    Binary64.nearest_natCast (by omega), Binary64.ceil_div_eq small positive, ceil,
    Int.toNat_natCast]
  exact Nat.min_eq_left (by omega)

/-- The first pages are the beginning of the items. -/
theorem flatten_pages (items : List α) (size count : Nat) :
    ((List.range count).map fun index => (items.drop (index * size)).take size).flatten =
      items.take (count * size) := by
  induction count with
  | zero => simp
  | succ count ih =>
    rw [List.range_succ, List.map_append, List.flatten_append, ih, Nat.succ_mul, List.take_add]
    simp

/-- Wherever the offset is computed, all pages are right. -/
theorem exactPages_pageOf (items : List α) (page perPage : UInt32) :
    ExactPages (pageOf items items.length) items page perPage ↔
      1 ≤ page.toNat ∧ (page.toNat - 1) * perPage.toNat < 2 ^ 32 := by
  constructor
  · rintro ⟨response, answered, -⟩
    obtain ⟨found, listed, -⟩ := Option.map_eq_some_iff.mp answered
    obtain ⟨skipped, computed, -⟩ := Option.map_eq_some_iff.mp listed
    exact (skip_eq_some.mp computed).1
  · intro fits
    have listed : ∀ (page : UInt32),
        1 ≤ page.toNat ∧ (page.toNat - 1) * perPage.toNat < 2 ^ 32 →
        respond (pageOf items items.length) page perPage =
          some (.new ((items.drop ((page.toNat - 1) * perPage.toNat)).take perPage.toNat)
            items.length page perPage) := by
      intro page fits
      rw [respond, pageOf, skip_eq_some.mpr ⟨fits, rfl⟩]
      rfl
    refine ⟨_, listed page fits, fun positive small => ?_⟩
    obtain ⟨enough, least⟩ := div_pages positive items.length
    rw [totalPages_new positive small]
    refine ⟨⟨_, (flatten_pages items perPage.toNat _).trans (List.take_of_length_le enough),
      by simp, fun index inside => ?_⟩, fun later => ?_, enough, least⟩
    · have before : index * perPage.toNat < items.length := by
        by_contra behind
        exact absurd (least index (not_lt.mp behind)) (not_le.mpr inside)
      have few := least items.length (Nat.le_mul_of_pos_right _ positive)
      have number : (UInt32.ofNat (index + 1)).toNat = index + 1 := by
        exact UInt32.toNat_ofNat_of_lt' (show index + 1 < 2 ^ 32 by omega)
      rw [listed _ (by rw [number, Nat.add_sub_cancel]; omega), number, Nat.add_sub_cancel,
        List.getElem?_map, List.getElem?_range inside]
      rfl
    · have behind : items.length ≤ (page.toNat - 1) * perPage.toNat :=
        enough.trans (Nat.mul_le_mul_right _ (by omega))
      change (items.drop _).take _ = []
      rw [List.drop_of_length_le behind, List.take_nil]

end Pages

variable (store : MemoryStore Agent Skill Session SessionMessage) (iteration : store.Iteration)

/-- In every store each of the four listings is right on exactly the pages whose offset fits into 32
bits. -/
theorem pages_exact_iff (page perPage : UInt32) (sessionId : String) :
    (ExactPages (store.listAgents iteration) (iteration.agents.map Prod.snd) page perPage ↔
      1 ≤ page.toNat ∧ (page.toNat - 1) * perPage.toNat < 2 ^ 32) ∧
    (ExactPages (store.listSkills iteration) (iteration.skills.map Prod.snd) page perPage ↔
      1 ≤ page.toNat ∧ (page.toNat - 1) * perPage.toNat < 2 ^ 32) ∧
    (ExactPages (store.listSessions iteration) (iteration.sessions.map Prod.snd) page perPage ↔
      1 ≤ page.toNat ∧ (page.toNat - 1) * perPage.toNat < 2 ^ 32) ∧
    (ExactPages (fun page perPage => store.getSessionMessages page perPage sessionId)
        (store.sessionMessages sessionId) page perPage ↔
      1 ≤ page.toNat ∧ (page.toNat - 1) * perPage.toNat < 2 ^ 32) := by
  have agents := exactPages_pageOf (iteration.agents.map Prod.snd) page perPage
  have skills := exactPages_pageOf (iteration.skills.map Prod.snd) page perPage
  have sessions := exactPages_pageOf (iteration.sessions.map Prod.snd) page perPage
  rw [List.length_map] at agents skills sessions
  rw [← iteration.listsAgents.card_keys] at agents
  rw [← iteration.listsSkills.card_keys] at skills
  rw [← iteration.listsSessions.card_keys] at sessions
  exact ⟨agents, skills, sessions, exactPages_pageOf _ page perPage⟩

def emptyStore : MemoryStore Unit Unit Unit Unit := ⟨∅, ∅, ∅, ∅⟩

def emptyIteration : emptyStore.Iteration :=
  ⟨[], [], [], HashMap.lists_empty, HashMap.lists_empty, HashMap.lists_empty⟩

/-- On page 0 the subtraction underflows, and on a far page the product overflows. -/
theorem pages_not_exact :
    ¬ ExactPages (emptyStore.listAgents emptyIteration) [] 0 20 ∧
      ¬ ExactPages (emptyStore.listAgents emptyIteration) [] 65537 65536 := by
  constructor
  · rintro ⟨response, answered, -⟩
    have none : skip 0 20 = none := by decide
    rw [respond, MemoryStore.listAgents, pageOf, none] at answered
    cases answered
  · rintro ⟨response, answered, -⟩
    have none : skip 65537 65536 = none := by decide
    rw [respond, MemoryStore.listAgents, pageOf, none] at answered
    cases answered

end UHorse.Gateway
