import UHorse.Gateway.WeightedBalancing
import UHorse.Lib.Doing
import UHorse.Lib.HashMap

/-!
# Least connections

A selection reads the counts of the instances one after the other, each under the lock, and raises
the count of the first instance with the least count in a section of its own. As long as the counts
that a selection read are those of the map when it raises one of them, the counts that started equal
stay within one of each other.

A count that cannot be raised any more wraps around.
-/

namespace UHorse.Gateway

open UHorse.Lib

/-- The counts of the connections. -/
abbrev Connections := HashMap String UInt32

/-- Notes name the instance of a section. -/
inductive SelectNote
  | read (id : String)
  | raise (id : String)

namespace LeastConnectionLoadBalancer

abbrev Process (α : Type) := Program Connections Unit SelectNote α

/-- A count that is missing is zero. -/
def countOf (connections : Connections) (id : String) : UInt32 := (connections.lookup id).getD 0

def getConnections (id : String) : Process UInt32 :=
  Program.query (.read id) fun _ connections => countOf connections id

/-- The section that raises a count. -/
def raise (id : String) : Process Unit :=
  Program.update (.raise id)
    (fun _ connections => connections.insert id (countOf connections id + 1)) fun _ _ => ()

/-- The loop over the instances, with the least count and the instance that has it. -/
def findLeast : List ServiceInstance → UInt32 → Option ServiceInstance →
    Process (Option ServiceInstance)
  | [], _, selected => pure selected
  | instance_ :: rest, minConnections, selected => do
      let connections ← getConnections instance_.id
      if connections < minConnections then findLeast rest connections (some instance_)
      else findLeast rest minConnections selected

def select (instances : List ServiceInstance) : Process (Option ServiceInstance) :=
  if instances.isEmpty then pure none
  else do
    let selected ← findLeast instances 0xFFFFFFFF none
    match selected with
    | some instance_ =>
      raise instance_.id
      pure selected
    | none => pure none

end LeastConnectionLoadBalancer

open LeastConnectionLoadBalancer

/-! ## What a selection has read -/

/-- The counts a selection has read, until it has raised one. -/
inductive SelectPhase
  | reading (reads : List (String × UInt32))
  | raised

def selecting : Observer Connections Unit SelectNote SelectPhase where
  start := .reading []
  see seen note _ s :=
    match seen, note with
    | .reading reads, .read id => .reading (reads ++ [(id, countOf s id)])
    | _, _ => .raised

/-- The least of the counts that were read, with the instance it was read for. -/
structure Scanned (reads : List (String × UInt32)) (least : UInt32)
    (selected : Option ServiceInstance) : Prop where
  least_le : ∀ read ∈ reads, least ≤ read.2
  found : ∀ instance_ ∈ selected, (instance_.id, least) ∈ reads ∧ least < 0xFFFFFFFF
  missing : selected = none → least = 0xFFFFFFFF

variable (instances : List ServiceInstance)

/-- What an action does, and what the selection has read for it. -/
def SelectNote.Does (note : SelectNote) (seen : SelectPhase) (s t : Connections) : Prop :=
  match note with
  | .read _ => t = s
  | .raise id => t = s.insert id (countOf s id + 1) ∧ ∃ reads least selected,
      seen = .reading reads ∧ reads.map Prod.fst = instances.map (·.id) ∧
        Scanned reads least (some selected) ∧ selected.id = id

/-- A selection has raised the count of the instance it returns, unless all counts it read are the
greatest. -/
def Selected (answer : Option ServiceInstance) (seen : SelectPhase) : Prop :=
  match answer with
  | some instance_ => instance_ ∈ instances ∧ seen = .raised
  | none => ∃ reads, seen = .reading reads ∧ reads.map Prod.fst = instances.map (·.id) ∧
      ∀ read ∈ reads, read.2 = 0xFFFFFFFF

abbrev Selects {α : Type} (process : Process α) (seen : SelectPhase)
    (post : α → SelectPhase → Prop) : Prop :=
  process.Doing selecting (fun seen note _ s t => note.Does instances seen s t) seen post

variable {instances}

namespace Scanned

variable {reads : List (String × UInt32)} {least : UInt32} {selected : Option ServiceInstance}

theorem nil : Scanned [] 0xFFFFFFFF none := by
  refine ⟨List.forall_mem_nil _, ?_, fun _ => rfl⟩
  intro instance_ found
  cases found

theorem lower (scanned : Scanned reads least selected) {instance_ : ServiceInstance}
    {connections : UInt32} (below : connections < least) :
    Scanned (reads ++ [(instance_.id, connections)]) connections (some instance_) := by
  refine ⟨?_, ?_, fun none_ => by cases none_⟩
  · refine List.forall_mem_append.mpr ⟨fun read member => ?_, ?_⟩
    · exact UInt32.le_trans (UInt32.le_of_lt below) (scanned.least_le read member)
    · exact List.forall_mem_singleton.mpr (UInt32.le_refl _)
  · rintro _ ⟨⟩
    refine ⟨List.mem_append_right _ (List.mem_singleton_self _), ?_⟩
    refine UInt32.lt_of_lt_of_le below (UInt32.le_iff_toNat_le.mpr ?_)
    exact Nat.le_of_lt_succ least.toNat_lt

theorem keep (scanned : Scanned reads least selected) {id : String} {connections : UInt32}
    (above : least ≤ connections) : Scanned (reads ++ [(id, connections)]) least selected := by
  refine ⟨?_, ?_, scanned.missing⟩
  · refine List.forall_mem_append.mpr ⟨scanned.least_le, ?_⟩
    exact List.forall_mem_singleton.mpr above
  · intro instance_ member
    obtain ⟨inside, below⟩ := scanned.found instance_ member
    exact ⟨List.mem_append_left _ inside, below⟩

end Scanned

theorem selects_findLeast {rest : List ServiceInstance} (within : ∀ i ∈ rest, i ∈ instances)
    {reads : List (String × UInt32)} {least : UInt32} {selected : Option ServiceInstance}
    (chosen : ∀ i ∈ selected, i ∈ instances) (scanned : Scanned reads least selected) :
    Selects instances (findLeast rest least selected) (.reading reads) fun answer after =>
      (∀ i ∈ answer, i ∈ instances) ∧ ∃ reads' least', after = .reading reads' ∧
        reads'.map Prod.fst = reads.map Prod.fst ++ rest.map (·.id) ∧
        Scanned reads' least' answer := by
  induction rest generalizing reads least selected with
  | nil =>
    refine Program.Keeps.pure ⟨chosen, reads, least, rfl, ?_, scanned⟩
    rw [List.map_nil, List.append_nil]
  | cons instance_ rest ih =>
    obtain ⟨first, others⟩ := List.forall_mem_cons.mp within
    have reads_ : Selects instances (getConnections instance_.id) (.reading reads)
        fun connections after => after = .reading (reads ++ [(instance_.id, connections)]) :=
      Program.Doing.update (fun _ _ => rfl) fun _ _ => rfl
    refine Program.Keeps.bind reads_ ?_
    rintro connections _ rfl
    have ids : ∀ reads' : List (String × UInt32),
        reads'.map Prod.fst =
          (reads ++ [(instance_.id, connections)]).map Prod.fst ++ rest.map (·.id) →
        reads'.map Prod.fst = reads.map Prod.fst ++ (instance_ :: rest).map (·.id) := by
      intro reads' same
      rw [same, List.map_append, List.append_assoc]
      rfl
    split
    · next below =>
        refine (ih others ?_ (scanned.lower below)).weaken ?_
        · rintro _ ⟨⟩
          exact first
        · rintro answer _ ⟨inside, reads', least', rfl, same, scanned'⟩
          exact ⟨inside, reads', least', rfl, ids reads' same, scanned'⟩
    · next above =>
        refine (ih others chosen (scanned.keep (UInt32.not_lt.mp above))).weaken ?_
        rintro answer _ ⟨inside, reads', least', rfl, same, scanned'⟩
        exact ⟨inside, reads', least', rfl, ids reads' same, scanned'⟩

theorem selects_select (nonempty : instances ≠ []) :
    Selects instances (select instances) (.reading []) (Selected instances) := by
  rw [select, if_neg (by simpa using nonempty)]
  refine Program.Keeps.bind (selects_findLeast (fun _ member => member)
    (fun _ none_ => by cases none_) Scanned.nil) ?_
  rintro answer _ ⟨inside, reads, least, rfl, ids, scanned⟩
  cases answer with
  | none =>
    refine Program.Keeps.pure ⟨reads, rfl, ids, fun read member => ?_⟩
    refine UInt32.le_antisymm (UInt32.le_iff_toNat_le.mpr (Nat.le_of_lt_succ read.2.toNat_lt)) ?_
    rw [← scanned.missing rfl]
    exact scanned.least_le read member
  | some instance_ =>
    have raises : Selects instances (raise instance_.id) (.reading reads)
        fun _ after => after = .raised :=
      Program.Doing.update (fun _ _ => ⟨rfl, reads, least, instance_, rfl, ids, scanned, rfl⟩)
        fun _ _ => rfl
    refine Program.Keeps.bind raises ?_
    rintro _ _ rfl
    exact Program.Keeps.pure ⟨inside instance_ rfl, rfl⟩

/-! ## All interleavings -/

abbrev SelectPool := Pool Connections Unit SelectNote (Option ServiceInstance) SelectPhase

variable (instances)

def EqualCounts (connections : Connections) : Prop :=
  ∀ a ∈ instances, ∀ b ∈ instances, countOf connections a.id = countOf connections b.id

/-- The counts of two instances differ by at most one. -/
def Balanced (connections : Connections) : Prop :=
  ∀ a ∈ instances, ∀ b ∈ instances,
    (countOf connections a.id).toNat ≤ (countOf connections b.id).toNat + 1

/-- Any number of selections among the instances, whose counts start equal. -/
def selects : System SelectPool (PoolLabel Connections Unit SelectNote (Option ServiceInstance)) :=
  Pool.system selecting (· = select instances) (fun _ _ => False) (EqualCounts instances)

/-- Some count can still be raised. -/
def CountsBelow (connections : Connections) : Prop :=
  ∃ instance_ ∈ instances, countOf connections instance_.id < 0xFFFFFFFF

/-- The counts that were read are those of the map. -/
def SelectPhase.Fresh (seen : SelectPhase) (connections : Connections) : Prop :=
  ∀ reads, seen = .reading reads → ∀ read ∈ reads, countOf connections read.1 = read.2

/-- A count is read while some count can still be raised, and raised while the counts that were read
are those of the map. -/
def Fits (s : SelectPool) : PoolLabel Connections Unit SelectNote (Option ServiceInstance) → Prop
  | .run index _ => ∀ note ready act next seen,
      s.threads[index]? = some ⟨.act note ready act next, seen⟩ →
        match note with
        | .read _ => CountsBelow instances s.shared
        | .raise _ => seen.Fresh s.shared
  | _ => True

def selectsFresh :
    System SelectPool (PoolLabel Connections Unit SelectNote (Option ServiceInstance)) :=
  (selects instances).restrict (Fits instances)

/-! ## What holds of all of them -/

variable {instances}

theorem countOf_insert (connections : Connections) (id other : String) (count : UInt32) :
    countOf (connections.insert id count) other =
      if other = id then count else countOf connections other := by
  rw [countOf, HashMap.lookup_insert_ite]
  split <;> rfl

/-- The counts that were read are at most those of the map. -/
def SelectPhase.Behind (seen : SelectPhase) (connections : Connections) : Prop :=
  ∀ reads, seen = .reading reads → ∀ read ∈ reads, read.2 ≤ countOf connections read.1

variable (instances) in
/-- When all counts were read, one of them can still be raised. -/
def SelectPhase.Open (seen : SelectPhase) : Prop :=
  ∀ reads, seen = .reading reads → reads.map Prod.fst = instances.map (·.id) →
    ∃ read ∈ reads, read.2 < 0xFFFFFFFF

/-- To raise the least count keeps the counts balanced, and lowers none. -/
theorem Balanced.raise {connections : Connections} (balanced : Balanced instances connections)
    {reads : List (String × UInt32)} {least : UInt32} {selected : ServiceInstance}
    (ids : reads.map Prod.fst = instances.map (·.id))
    (scanned : Scanned reads least (some selected))
    (fresh : (SelectPhase.reading reads).Fresh connections) :
    Balanced instances
        (connections.insert selected.id (countOf connections selected.id + 1)) ∧
      ∀ id, countOf connections id ≤
        countOf (connections.insert selected.id (countOf connections selected.id + 1)) id := by
  obtain ⟨inside, below⟩ := scanned.found selected rfl
  have current : countOf connections selected.id = least := fresh reads rfl _ inside
  have next : (countOf connections selected.id + 1).toNat =
      (countOf connections selected.id).toNat + 1 := by
    rw [UInt32.lt_iff_toNat_lt] at below
    have bound : (0xFFFFFFFF : UInt32).toNat = 2 ^ 32 - 1 := rfl
    rw [current, UInt32.toNat_add, UInt32.toNat_one]
    omega
  have least_ : ∀ a ∈ instances,
      (countOf connections selected.id).toNat ≤ (countOf connections a.id).toNat := by
    intro a member
    have named : a.id ∈ reads.map Prod.fst := by
      rw [ids]
      exact List.mem_map_of_mem member
    obtain ⟨read, inside, same⟩ := List.mem_map.mp named
    rw [current, ← same, fresh reads rfl read inside]
    exact UInt32.le_iff_toNat_le.mp (scanned.least_le read inside)
  constructor
  · intro a memberA b memberB
    have leastB := least_ b memberB
    have apart := balanced a memberA b memberB
    rw [countOf_insert, countOf_insert]
    split
    · split
      · omega
      · omega
    · split
      · next same =>
          rw [same] at apart
          omega
      · exact apart
  · intro id
    rw [countOf_insert]
    split
    · next same =>
        rw [same, UInt32.le_iff_toNat_le]
        omega
    · exact UInt32.le_refl _

variable (instances) in
/-- The selections act on counts that they may still rely on, and the counts are balanced. -/
structure Levelled (s : SelectPool) : Prop where
  ending : s.Ending selecting (fun seen note _ s t => note.Does instances seen s t)
    (Selected instances)
  behind : ∀ thread ∈ s.threads, thread.seen.Behind s.shared
  open_ : ∀ thread ∈ s.threads, thread.seen.Open instances
  balanced : Balanced instances s.shared

namespace Levelled

variable {s : SelectPool} {index : Nat} {seen : SelectPhase}
  {program : Process (Option ServiceInstance)}

/-- A count is read. -/
theorem read (levelled : Levelled instances s) (room : CountsBelow instances s.shared) (id : String)
    (here : s.threads[index]? = some ⟨program, seen⟩) :
    (selecting.see seen (.read id) () s.shared).Behind s.shared ∧
      (selecting.see seen (.read id) () s.shared).Open instances := by
  have member := List.mem_of_getElem? here
  cases seen with
  | raised =>
    constructor
    · intro reads same
      cases same
    · intro reads same
      cases same
  | reading reads =>
    have behind :
        (SelectPhase.reading (reads ++ [(id, countOf s.shared id)])).Behind s.shared := by
      rintro _ ⟨⟩
      refine List.forall_mem_append.mpr ⟨levelled.behind _ member reads rfl, ?_⟩
      exact List.forall_mem_singleton.mpr (UInt32.le_refl _)
    refine ⟨behind, ?_⟩
    rintro _ ⟨⟩ ids
    obtain ⟨instance_, inside, below⟩ := room
    have named : instance_.id ∈ (reads ++ [(id, countOf s.shared id)]).map Prod.fst := by
      rw [ids]
      exact List.mem_map_of_mem inside
    obtain ⟨read, inside, same⟩ := List.mem_map.mp named
    refine ⟨read, inside, UInt32.lt_of_le_of_lt ?_ below⟩
    rw [← same]
    exact behind _ rfl read inside

theorem step (levelled : Levelled instances s) (nonempty : instances ≠ []) {t : SelectPool}
    {label : PoolLabel Connections Unit SelectNote (Option ServiceInstance)}
    (step : (selectsFresh instances).Step s label t) : Levelled instances t := by
  obtain ⟨fits, step⟩ := step
  have ending := levelled.ending.step (fun program same => same ▸ selects_select nonempty) step
  cases step with
  | spawn program starts =>
    refine ⟨ending, ?_, ?_, levelled.balanced⟩
    · refine List.forall_mem_append.mpr ⟨levelled.behind, List.forall_mem_singleton.mpr ?_⟩
      rintro _ ⟨⟩
      exact List.forall_mem_nil _
    · refine List.forall_mem_append.mpr ⟨levelled.open_, List.forall_mem_singleton.mpr ?_⟩
      rintro _ ⟨⟩ ids
      exact absurd (List.map_eq_nil_iff.mp ids.symm) nonempty
  | run index input note ready act next seen here enabled =>
    have does := levelled.ending.action here enabled input
    have fits := fits _ _ _ _ _ here
    cases note with
    | read id =>
      have same : act input s.shared = s.shared := does
      obtain ⟨behind, open_⟩ := levelled.read fits id here
      refine ⟨ending, ?_, ?_, ?_⟩
      · rw [same]
        intro thread member
        obtain old | rfl := List.mem_or_eq_of_mem_set member
        · exact levelled.behind thread old
        · exact behind
      · intro thread member
        obtain old | rfl := List.mem_or_eq_of_mem_set member
        · exact levelled.open_ thread old
        · exact open_
      · rw [same]
        exact levelled.balanced
    | raise id =>
      obtain ⟨after, reads, least, selected, rfl, ids, scanned, rfl⟩ := does
      obtain ⟨balanced, grows⟩ := levelled.balanced.raise ids scanned fits
      refine ⟨ending, ?_, ?_, ?_⟩
      · rw [after]
        intro thread member
        obtain old | rfl := List.mem_or_eq_of_mem_set member
        · intro reads' same read inside
          exact UInt32.le_trans (levelled.behind thread old reads' same read inside) (grows _)
        · intro reads' same
          cases same
      · intro thread member
        obtain old | rfl := List.mem_or_eq_of_mem_set member
        · exact levelled.open_ thread old
        · intro reads' same
          cases same
      · rw [after]
        exact balanced
  | background shared never => cases never

theorem of_reachable (nonempty : instances ≠ [])
    (reached : (selectsFresh instances).Reachable s) : Levelled instances s := by
  refine reached.invariant ?_ fun s label t levelled step => levelled.step nonempty step
  rintro s ⟨nobody, equal⟩
  have nobody : s.threads = [] := nobody
  have equal : EqualCounts instances s.shared := equal
  refine ⟨?_, by simp [nobody], by simp [nobody], ?_⟩
  · rw [Pool.Ending, nobody]
    exact List.forall_mem_nil _
  · intro a memberA b memberB
    rw [equal a memberA b memberB]
    exact Nat.le_succ _

/-- A selection that has ended returns an instance. -/
theorem selects_instance (levelled : Levelled instances s) {answer : Option ServiceInstance}
    (member : ⟨.done answer, seen⟩ ∈ s.threads) :
    ∃ instance_ ∈ instances, answer = some instance_ := by
  have selected : Selected instances answer seen := levelled.ending _ member
  cases answer with
  | some instance_ => exact ⟨instance_, selected.1, rfl⟩
  | none =>
    obtain ⟨reads, rfl, ids, full⟩ := selected
    obtain ⟨read, inside, below⟩ := levelled.open_ _ member reads rfl ids
    rw [full read inside] at below
    exact absurd below (UInt32.lt_irrefl _)

end Levelled

theorem immediate_findLeast (rest : List ServiceInstance) (least : UInt32)
    (selected : Option ServiceInstance) : (findLeast rest least selected).Immediate := by
  induction rest generalizing least selected with
  | nil => trivial
  | cons instance_ rest ih =>
    rw [findLeast]
    refine Program.Immediate.bind (Program.immediate_update _ _ _) fun connections => ?_
    split
    · exact ih _ _
    · exact ih _ _

theorem immediate_select (instances : List ServiceInstance) : (select instances).Immediate := by
  rw [select]
  split
  · trivial
  · refine Program.Immediate.bind (immediate_findLeast _ _ _) fun selected => ?_
    cases selected with
    | none => trivial
    | some instance_ =>
      exact Program.Immediate.bind (Program.immediate_update _ _ _) fun _ => trivial

/-- As long as counts are raised by selections that have read the present ones, and some count can
still be raised, every selection goes on without waiting and returns an instance, and the counts
stay within one of each other. -/
theorem least_connections_balanced (instances : List ServiceInstance) (nonempty : instances ≠ [])
    {s : SelectPool} (reached : (selectsFresh instances).Reachable s) :
    (∀ thread ∈ s.threads, thread.program.Immediate ∧ ∀ answer, thread.program = .done answer →
        ∃ instance_ ∈ instances, answer = some instance_) ∧
      Balanced instances s.shared := by
  have levelled := Levelled.of_reachable nonempty reached
  refine ⟨fun thread member => ⟨?_, ?_⟩, levelled.balanced⟩
  · exact Pool.immediate_of_reachable (fun _ same => same ▸ immediate_select instances)
      reached.of_restrict thread member
  · rintro answer done
    obtain ⟨program, seen⟩ := thread
    obtain rfl : program = .done answer := done
    exact levelled.selects_instance member

/-! ### Two selections -/

def sampleInstance (id : String) : ServiceInstance := ⟨⟨id, "api"⟩, "10.0.0.1", 80, ⟨none⟩⟩

def sampleInstances : List ServiceInstance := [sampleInstance "1", sampleInstance "2"]

/-- Whether the selection at a place may perform its next action. -/
def fitsAt (instances : List ServiceInstance) (s : SelectPool) (index : Nat) (_ : Unit) : Bool :=
  match s.threads[index]? with
  | some ⟨.act (.read _) _ _ _, _⟩ =>
    instances.any fun instance_ => decide (countOf s.shared instance_.id < 0xFFFFFFFF)
  | some ⟨.act (.raise _) _ _ _, .reading reads⟩ =>
    reads.all fun read => decide (countOf s.shared read.1 = read.2)
  | _ => true

theorem fits_of_fitsAt (s : SelectPool) (index : Nat) (input : Unit)
    (checked : fitsAt instances s index input = true) : Fits instances s (.run index input) := by
  intro note ready act next seen here
  rw [fitsAt, here] at checked
  cases note with
  | read id =>
    obtain ⟨instance_, inside, below⟩ := List.any_eq_true.mp checked
    exact ⟨instance_, inside, of_decide_eq_true below⟩
  | raise id =>
    rintro reads rfl read inside
    exact of_decide_eq_true (List.all_eq_true.mp checked read inside)

abbrev SelectMove : Type := Pool.Move (· = select sampleInstances) fun _ _ => False

def selectPlayer : (selects sampleInstances).Player SelectMove :=
  Pool.player selecting (· = select sampleInstances) (fun _ _ => False) _

/-- Two selections start and take turns. -/
def takingTurns (indices : List Nat) : List SelectMove :=
  [.spawn _ rfl, .spawn _ rfl] ++ Pool.running (indices.map (·, ()))

theorem nothing_selected
    {guard : SelectPool → PoolLabel Connections Unit SelectNote (Option ServiceInstance) → Prop} :
    ((selects sampleInstances).restrict guard).Reachable ⟨∅, []⟩ :=
  .init ⟨rfl, fun _ _ _ _ => rfl⟩

/-- One selection after the other. -/
theorem least_connections_balanced_sample : ∃ s, (selectsFresh sampleInstances).Reachable s ∧
    (countOf s.shared "1" = 1 ∧ countOf s.shared "2" = 1) ∧ Balanced sampleInstances s.shared := by
  obtain ⟨s, reached, counts⟩ := (Pool.checked selectPlayer (fitsAt sampleInstances)
    fits_of_fitsAt (fun _ _ => trivial) fun _ _ => trivial).exists_reachable nothing_selected
    (takingTurns [0, 0, 0, 1, 1, 1])
    (fun s => countOf s.shared "1" = 1 ∧ countOf s.shared "2" = 1) (by decide)
  exact ⟨s, reached, counts,
    (least_connections_balanced sampleInstances (List.cons_ne_nil _ _) reached).2⟩

/-- Both selections read the counts before one of them raises a count, and both raise the first. -/
theorem least_connections_unbalanced : ¬ ∀ (instances : List ServiceInstance) (s : SelectPool),
    instances ≠ [] → (selects instances).Reachable s → Balanced instances s.shared := by
  intro always
  obtain ⟨s, reached, first, second⟩ := selectPlayer.any.exists_reachable nothing_selected
    (takingTurns [0, 0, 1, 1, 0, 1])
    (fun s => countOf s.shared (sampleInstance "1").id = 2 ∧
      countOf s.shared (sampleInstance "2").id = 0) (by decide)
  have balanced := always sampleInstances s (List.cons_ne_nil _ _) reached.of_restrict
    (sampleInstance "1") (by decide) (sampleInstance "2") (by decide)
  rw [first, second] at balanced
  exact absurd balanced (by decide)

end UHorse.Gateway
