import Mathlib.Data.List.Chain
import Mathlib.Data.List.Forall2

/-!
# Hash chains

In a hash chain every entry carries the hash of the entry before it. If a relation between
entries together with equal hashes makes them equal, then two chains that are related entry by
entry and end with the same hash are equal.
-/

namespace UHorse.Lib

variable {α : Type*} {β : Type*} (hash : α → β) (prev : α → Option β)

/-- Every entry but the first carries the hash of the one before it. -/
def HashChain (entries : List α) : Prop :=
  entries.IsChain fun before after => prev after = some (hash before)

namespace HashChain

variable {hash prev} {entries : List α}

theorem concat {entry : α} (chain : HashChain hash prev entries)
    (links : ∀ last ∈ entries.getLast?, prev entry = some (hash last)) :
    HashChain hash prev (entries ++ [entry]) := by
  refine List.isChain_append.mpr ⟨chain, List.isChain_singleton _, ?_⟩
  intro last isLast first isFirst
  obtain rfl : entry = first := by simpa using isFirst
  exact links last isLast

/-- Chains with the latest entry first. -/
theorem eq_of_forall₂_flip {related : α → α → Prop}
    (determined : ∀ entry other, related entry other → hash entry = hash other → entry = other)
    {others : List α} (pairs : List.Forall₂ related entries others)
    (chain : entries.IsChain fun after before => prev after = some (hash before))
    (otherChain : others.IsChain fun after before => prev after = some (hash before))
    (first : entries.head?.map hash = others.head?.map hash) : entries = others := by
  induction pairs with
  | nil => rfl
  | @cons entry other entries others here rest ih =>
    obtain rfl : entry = other := determined _ _ here (Option.some.inj first)
    refine congrArg (entry :: ·) (ih chain.tail otherChain.tail ?_)
    cases rest with
    | nil => rfl
    | cons _ _ =>
      have links := (List.isChain_cons_cons.mp chain).1
      have otherLinks := (List.isChain_cons_cons.mp otherChain).1
      exact links.symm.trans otherLinks

/-- Chains of related entries that end with the same hash are equal. -/
theorem eq_of_forall₂ {related : α → α → Prop}
    (determined : ∀ entry other, related entry other → hash entry = hash other → entry = other)
    {others : List α} (chain : HashChain hash prev entries)
    (otherChain : HashChain hash prev others) (pairs : List.Forall₂ related entries others)
    (last : entries.getLast?.map hash = others.getLast?.map hash) : entries = others := by
  have backwards : entries.reverse.IsChain fun after before => prev after = some (hash before) :=
    List.isChain_reverse.mpr chain
  have otherBackwards :
      others.reverse.IsChain fun after before => prev after = some (hash before) :=
    List.isChain_reverse.mpr otherChain
  refine List.reverse_injective (eq_of_forall₂_flip determined
    (List.forall₂_reverse_iff.mpr pairs) backwards otherBackwards ?_)
  rwa [List.head?_reverse, List.head?_reverse]

/-- Any part of a chain is one. -/
theorem of_isInfix {part : List α} (chain : HashChain hash prev entries)
    (inside : part <:+: entries) : HashChain hash prev part :=
  List.IsChain.infix chain inside

end HashChain

/-! ## Numbered entries -/

/-- The entries are numbered one by one after `before`. -/
def Numbered (number : α → Nat) (before : Nat) (entries : List α) : Prop :=
  ∀ (i : Nat) entry, entries[i]? = some entry → number entry = before + i + 1

namespace Numbered

variable {number : α → Nat} {before : Nat} {entries : List α} {entry : α}

theorem tail (numbered : Numbered number before (entry :: entries)) :
    Numbered number (before + 1) entries := by
  intro i other found
  have := numbered (i + 1) other found
  omega

theorem concat (numbered : Numbered number before entries)
    (next : number entry = before + entries.length + 1) :
    Numbered number before (entries ++ [entry]) := by
  intro i other found
  rw [List.getElem?_append] at found
  split at found
  · exact numbered i other found
  · next late =>
      have here := List.getElem?_eq_some_iff.mp found
      obtain ⟨short, rfl⟩ := here
      rw [List.length_singleton] at short
      rw [List.getElem_singleton, next]
      omega

/-- The entries with a number between two bounds are next to each other. -/
theorem filter_eq (numbered : Numbered number before entries) (low high : Nat) :
    entries.filter (fun entry => low ≤ number entry && number entry ≤ high) =
      (entries.take (high - before)).drop (low - (before + 1)) := by
  induction entries generalizing before with
  | nil => simp
  | cons entry entries ih =>
    have first : number entry = before + 1 := numbered 0 entry rfl
    rw [List.filter_cons, ih numbered.tail, first]
    by_cases above : before + 1 ≤ high
    · obtain ⟨room, fits⟩ : ∃ room, high - before = room + 1 := ⟨high - (before + 1), by omega⟩
      have fewer : high - (before + 1) = room := by omega
      rw [fits, fewer, List.take_succ_cons]
      by_cases below : low ≤ before + 1
      · have none : low - (before + 1) = 0 := by omega
        have none' : low - (before + 1 + 1) = 0 := by omega
        simp [below, above, none, none']
      · obtain ⟨less, drops⟩ : ∃ less, low - (before + 1) = less + 1 :=
          ⟨low - (before + 1 + 1), by omega⟩
        have drops' : low - (before + 1 + 1) = less := by omega
        simp [below, drops, drops']
    · have none : high - before = 0 := by omega
      have none' : high - (before + 1) = 0 := by omega
      simp [above, none, none']

theorem filter_isInfix (numbered : Numbered number before entries) (low high : Nat) :
    entries.filter (fun entry => low ≤ number entry && number entry ≤ high) <:+: entries := by
  rw [numbered.filter_eq]
  exact (List.drop_suffix _ _).isInfix.trans (List.take_prefix _ _).isInfix

end Numbered

end UHorse.Lib
