import UHorse.Lib.DescendingPath

/-!
# Procedures on a tree of files

A disk says what is at each location. It has no links, so that a path leads where its components
say. A procedure changes the disk and fails or returns a value; what it did before it failed stays.
It is confined to an area when it changes nothing outside, whether it fails or not.
-/

namespace UHorse.Lib.Unix

variable {C α β : Type}

inductive Node (C : Type)
  | dir
  | file (content : C)
deriving DecidableEq

abbrev Disk (C : Type) := Location → Option (Node C)

/-! ## Where paths lead -/

/-- The locations that components pass, from a location on. -/
def descend : Location → List Component → Option (List Location)
  | _, [] => some []
  | loc, part :: rest =>
    match part with
    | .curDir => (descend loc rest).map (loc :: ·)
    | .parentDir => (descend loc.dropLast rest).map (loc.dropLast :: ·)
    | .normal name =>
      if legalName name then (descend (loc ++ [name]) rest).map ((loc ++ [name]) :: ·) else none

/-- Components that never climb above the location they start from, `depth` levels below which they
already are. -/
def Encloses : Nat → List Component → Prop
  | _, [] => True
  | depth, .curDir :: rest => Encloses depth rest
  | depth, .normal _ :: rest => Encloses (depth + 1) rest
  | 0, .parentDir :: _ => False
  | depth + 1, .parentDir :: rest => Encloses depth rest

section Descend

variable {base loc rel : Location} {parts first second : List Component} {passed : List Location}

theorem Encloses.mono {depth more : Nat} (encloses : Encloses depth parts) (deeper : depth ≤ more) :
    Encloses more parts := by
  induction parts generalizing depth more with
  | nil => trivial
  | cons part rest ih =>
    cases part with
    | curDir => exact ih encloses deeper
    | normal name => exact ih encloses (Nat.succ_le_succ deeper)
    | parentDir =>
      cases depth with
      | zero => exact encloses.elim
      | succ depth =>
        obtain ⟨more, rfl⟩ := Nat.exists_eq_succ_of_ne_zero (Nat.ne_zero_of_lt deeper)
        exact ih encloses (Nat.le_of_succ_le_succ deeper)

theorem Encloses.append {depth : Nat} (outer : Encloses depth first) (inner : Encloses 0 second) :
    Encloses depth (first ++ second) := by
  induction first generalizing depth with
  | nil => exact inner.mono (Nat.zero_le depth)
  | cons part rest ih =>
    cases part with
    | curDir => exact ih outer
    | normal name => exact ih outer
    | parentDir =>
      cases depth with
      | zero => exact outer.elim
      | succ depth => exact ih outer

theorem Encloses.left {depth : Nat} (encloses : Encloses depth (first ++ second)) :
    Encloses depth first := by
  induction first generalizing depth with
  | nil => trivial
  | cons part rest ih =>
    cases part with
    | curDir => exact ih encloses
    | normal name => exact ih encloses
    | parentDir =>
      cases depth with
      | zero => exact encloses.elim
      | succ depth => exact ih encloses

/-- Components that never climb too high stay below where they start. -/
theorem descend_below (encloses : Encloses rel.length parts)
    (leads : descend (base ++ rel) parts = some passed) : ∀ loc ∈ passed, base <+: loc := by
  induction parts generalizing rel passed with
  | nil =>
    cases leads
    exact List.forall_mem_nil _
  | cons part rest ih =>
    cases part with
    | curDir =>
      obtain ⟨later, onward, rfl⟩ := Option.map_eq_some_iff.mp leads
      exact List.forall_mem_cons.mpr ⟨List.prefix_append base rel, ih encloses onward⟩
    | normal name =>
      rw [descend] at leads
      split at leads
      · obtain ⟨later, onward, rfl⟩ := Option.map_eq_some_iff.mp leads
        rw [List.append_assoc] at onward ⊢
        refine List.forall_mem_cons.mpr ⟨List.prefix_append _ _, ih ?_ onward⟩
        rw [List.length_append]
        exact encloses
      · cases leads
    | parentDir =>
      obtain ⟨later, onward, rfl⟩ := Option.map_eq_some_iff.mp leads
      obtain rfl | ⟨front, last, rfl⟩ := List.eq_nil_or_concat rel
      · exact encloses.elim
      · rw [List.concat_eq_append] at encloses onward ⊢
        rw [List.length_append] at encloses
        rw [← List.append_assoc, List.dropLast_concat] at onward ⊢
        exact List.forall_mem_cons.mpr ⟨List.prefix_append base front, ih encloses onward⟩

end Descend

/-- A path from a directory on that is there. -/
structure Place where
  base : Location
  parts : List Component

namespace Place

/-- `PathBuf::join`: an absolute text takes the place of the path. -/
def join (place : Place) (text : String) : Place :=
  if (Path.parse text).absolute then ⟨[], (Path.parse text).parts⟩
  else ⟨place.base, place.parts ++ (Path.parse text).parts⟩

def child (place : Place) (name : String) : Place :=
  ⟨place.base, place.parts ++ [.normal name]⟩

/-- The path as a text. -/
def text (place : Place) : String := Path.render (place.base.map .normal ++ place.parts)

/-- The locations the path passes; the last one is where it leads. -/
def route (place : Place) : Option (List Location) := descend place.base place.parts

def parent? (place : Place) : Option Place :=
  (Path.parent? ⟨false, place.parts⟩).map fun path => ⟨place.base, path.parts⟩

end Place

namespace Disk

def isDir (disk : Disk C) (loc : Location) : Bool := disk loc matches some .dir

def isFile (disk : Disk C) (loc : Location) : Bool := disk loc matches some (.file _)

/-- Where a path leads, if all it passes before are directories. -/
def locate (disk : Disk C) (place : Place) : Option Location :=
  place.route.bind fun passed =>
    if passed.dropLast.all disk.isDir then some (passed.getLastD place.base) else none

def stat (disk : Disk C) (place : Place) : Option (Node C) := (disk.locate place).bind disk

def makeDirs (disk : Disk C) (passed : List Location) : Disk C := fun loc =>
  match disk loc with
  | some node => some node
  | none => if loc ∈ passed then some .dir else none

/-- Replace all that is at a location and below it. -/
def putTree (disk : Disk C) (loc : Location) (tree : Disk C) : Disk C := fun other =>
  if loc <+: other then tree (other.drop loc.length) else disk other

/-- The kernel refuses to move a directory into itself, and to replace a directory by a file, a file
by a directory or what contains the source. Whether a directory that is replaced is empty is left
open. -/
def rename (disk : Disk C) (source target : Location) : Option (Disk C) :=
  let moved := (disk.putTree source fun _ => none).putTree target fun rest => disk (source ++ rest)
  if source = target then some disk
  else if source <+: target ∨ target <+: source then none
  else match disk source, disk target with
  | some _, none | some .dir, some .dir | some (.file _), some (.file _) => some moved
  | _, _ => none

end Disk

/-! ## Procedures -/

abbrev Procedure (C α : Type) := ExceptT String (StateM (Disk C)) α

namespace Procedure

/-- The value or the error, and the disk afterwards. -/
def exec (procedure : Procedure C α) (disk : Disk C) : Except String α × Disk C :=
  (procedure.run).run disk

/-- What happens outside decides whether this succeeds. -/
def check (outcome : Except String α) : Procedure C α := ExceptT.mk (pure outcome)

/-- The text of errors of the operating system is left open. -/
def refused : String := "os error"

/-- Change the disk, if that is possible. -/
def change (next : Disk C → Option (Disk C)) : Procedure C Unit := do
  match next (← get) with
  | some disk => set disk
  | none => throw refused

/-- Clean up, whether the procedure fails or not. -/
def cleaning (procedure : Procedure C α) (cleanup : Disk C → Disk C) : Procedure C α :=
  ExceptT.mk fun disk => ((procedure.exec disk).1, cleanup (procedure.exec disk).2)

theorem exec_bind (procedure : Procedure C α) (rest : α → Procedure C β) (disk : Disk C) :
    (procedure >>= rest).exec disk =
      match procedure.exec disk with
      | (.ok value, after) => (rest value).exec after
      | (.error message, after) => (.error message, after) := by
  change (ExceptT.bindCont rest (procedure.exec disk).1).run (procedure.exec disk).2 = _
  obtain ⟨result, after⟩ := procedure.exec disk
  cases result <;> rfl

theorem exec_get (disk : Disk C) : (get : Procedure C (Disk C)).exec disk = (.ok disk, disk) := rfl

theorem exec_change (next : Disk C → Option (Disk C)) (disk : Disk C) :
    (change next).exec disk =
      match next disk with
      | some after => (.ok (), after)
      | none => (.error refused, disk) := by
  rw [change, exec_bind, exec_get]
  dsimp only
  cases next disk <;> rfl

/-- Nothing outside the area changes. -/
def Confined (area : Set Location) (procedure : Procedure C α) : Prop :=
  ∀ disk, ∀ loc ∉ area, (procedure.exec disk).2 loc = disk loc

section Confined

variable {area : Set Location} {procedure : Procedure C α} {rest : α → Procedure C β}

theorem Confined.pure (value : α) : (Pure.pure value : Procedure C α).Confined area :=
  fun _ _ _ => rfl

theorem Confined.check (outcome : Except String α) :
    (check outcome : Procedure C α).Confined area := fun _ _ _ => rfl

theorem Confined.get : (get : Procedure C (Disk C)).Confined area := fun _ _ _ => rfl

theorem Confined.throw (message : String) : (throw message : Procedure C α).Confined area :=
  fun _ _ _ => rfl

theorem Confined.bind (first : procedure.Confined area)
    (second : ∀ value, (rest value).Confined area) :
    (procedure >>= rest).Confined area := by
  intro disk loc outside
  have before := first disk loc outside
  rw [exec_bind]
  split
  · next value after ran =>
      rw [ran] at before
      exact (second value after loc outside).trans before
  · next message after ran =>
      rw [ran] at before
      exact before

theorem Confined.change {next : Disk C → Option (Disk C)}
    (keeps : ∀ disk after, next disk = some after → ∀ loc ∉ area, after loc = disk loc) :
    (change next).Confined area := by
  intro disk loc outside
  rw [exec_change]
  split
  · next after here => exact keeps disk after here loc outside
  · rfl

end Confined

/-! ### Operations of the file system -/

/-- Make every directory that is missing. A failure comes with how many it has passed before. -/
def createDirAll (place : Place) (failure : Option (Nat × String)) : Procedure C Unit := do
  change fun disk => place.route.bind fun passed =>
    if passed.any disk.isFile then none
    else some (disk.makeDirs (passed.take ((failure.map Prod.fst).getD passed.length)))
  match failure with
  | none => pure ()
  | some (_, message) => throw message

def createFile (place : Place) (content : C) (outcome : Except String Unit) :
    Procedure C Unit := do
  check outcome
  change fun disk => (disk.locate place).bind fun loc =>
    if disk.isDir loc then none else some (Function.update disk loc (some (.file content)))

def rename (source target : Place) (outcome : Except String Unit) : Procedure C Unit := do
  check outcome
  change fun disk => (disk.locate source).bind fun source =>
    (disk.locate target).bind fun target => disk.rename source target

/-- Remove a directory. A failure comes with what is left. -/
def removeDirAll (place : Place) (failure : Option ((Location → Bool) × String)) :
    Procedure C Unit := do
  change fun disk => (disk.locate place).bind fun loc =>
    if disk.isDir loc then
      some (disk.putTree loc fun rest =>
        if (failure.map Prod.fst).any (· rest) then disk (loc ++ rest) else none)
    else none
  match failure with
  | none => pure ()
  | some (_, message) => throw message

/-- Something else puts a tree in a place and then may fail. -/
def putTree (place : Place) (tree : Disk C) (outcome : Except String Unit) : Procedure C Unit := do
  change fun disk => (disk.locate place).map fun loc => disk.putTree loc tree
  check outcome

end Procedure

/-! ## Staying inside a directory -/

/-- What is at a location and below it. -/
def below (loc : Location) : Set Location := {other | loc <+: other}

/-- Wherever the path leads, it passes nothing outside the directory. -/
structure Place.Inside (place : Place) (loc : Location) : Prop where
  starts : loc <+: place.base
  stays : ∀ passed, place.route = some passed → ∀ other ∈ passed, loc <+: other

/-- Where the path leads, whatever is there. -/
def Place.target (place : Place) : Option Location :=
  place.route.map fun passed => passed.getLastD place.base

section Inside

variable {place : Place} {disk : Disk C} {loc other : Location}

theorem Place.inside_of_encloses {base : Location} {parts : List Component}
    (encloses : Encloses 0 parts) : Place.Inside ⟨base, parts⟩ base := by
  refine ⟨List.prefix_rfl, fun passed leads => ?_⟩
  have start : descend (base ++ []) parts = some passed := by
    rw [List.append_nil]
    exact leads
  exact descend_below (show Encloses ([] : Location).length parts from encloses) start

theorem Disk.target_of_locate (located : disk.locate place = some loc) :
    place.target = some loc := by
  obtain ⟨passed, leads, located⟩ := Option.bind_eq_some_iff.mp located
  split at located
  · rw [Place.target, leads]
    exact located
  · cases located

theorem Place.Inside.target (inside : place.Inside loc) (leads : place.target = some other) :
    loc <+: other := by
  obtain ⟨passed, route, rfl⟩ := Option.map_eq_some_iff.mp leads
  have stays := inside.stays passed route
  obtain rfl | ⟨front, last, rfl⟩ := List.eq_nil_or_concat passed
  · exact inside.starts
  · rw [List.concat_eq_append, List.getLastD_concat]
    exact stays last (by simp)

theorem Place.Inside.locate (inside : place.Inside loc) (located : disk.locate place = some other) :
    loc <+: other := inside.target (Disk.target_of_locate located)

theorem Disk.putTree_of_not_below (disk tree : Disk C) (outside : ¬ loc <+: other) :
    disk.putTree loc tree other = disk other := if_neg outside

theorem Disk.putTree_append (disk tree : Disk C) (loc rest : Location) :
    disk.putTree loc tree (loc ++ rest) = tree rest := by
  rw [Disk.putTree, if_pos (List.prefix_append loc rest), List.drop_left]

theorem Disk.makeDirs_of_notMem (disk : Disk C) {passed : List Location} (outside : loc ∉ passed) :
    disk.makeDirs passed loc = disk loc := by
  rw [Disk.makeDirs]
  split
  · next node here => rw [here]
  · next here => rw [if_neg outside, here]

theorem Disk.file_of_makeDirs {passed : List Location} {content : C}
    (here : disk.makeDirs passed loc = some (.file content)) :
    disk loc = some (.file content) := by
  rw [Disk.makeDirs] at here
  split at here
  · next node same => exact same.trans here
  · split at here <;> cases here

/-- What a move that succeeds leaves. -/
theorem Disk.rename_apply {after : Disk C} {source target : Location} (apart : source ≠ target)
    (moved : disk.rename source target = some after) :
    (disk source).isSome ∧ (∀ rest, after (target ++ rest) = disk (source ++ rest)) ∧
      ∀ other, ¬ source <+: other → ¬ target <+: other → after other = disk other := by
  rw [Disk.rename] at moved
  rw [if_neg apart] at moved
  split at moved
  · cases moved
  · refine ⟨?_, ?_, ?_⟩
    · split at moved
      · next here _ => rw [here]; rfl
      · next here _ => rw [here]; rfl
      · next here _ => rw [here]; rfl
      · cases moved
    · intro rest
      split at moved <;> cases moved <;> exact Disk.putTree_append _ _ target rest
    · intro other outside away
      split at moved <;> cases moved <;>
        rw [Disk.putTree_of_not_below _ _ away, Disk.putTree_of_not_below _ _ outside]

end Inside

namespace Procedure

section Confined

variable {place source target : Place} {loc : Location} {area : Set Location}

theorem Confined.createDirAll {failure : Option (Nat × String)}
    (inside : ∀ passed, place.route = some passed → ∀ loc ∈ passed, loc ∈ area) :
    (createDirAll place failure : Procedure C Unit).Confined area := by
  refine Confined.bind (Confined.change fun disk after made loc outside => ?_) fun _ => ?_
  · obtain ⟨passed, route, made⟩ := Option.bind_eq_some_iff.mp made
    split at made
    · cases made
    · cases made
      refine Disk.makeDirs_of_notMem disk fun member => ?_
      exact outside (inside passed route loc (List.mem_of_mem_take member))
  · split
    · exact Confined.pure ()
    · exact Confined.throw _

theorem Confined.createFile {content : C} {outcome : Except String Unit}
    (inside : ∀ loc, place.target = some loc → loc ∈ area) :
    (createFile place content outcome).Confined area := by
  refine Confined.bind (Confined.check outcome) fun _ => Confined.change ?_
  intro disk after made loc outside
  obtain ⟨other, located, made⟩ := Option.bind_eq_some_iff.mp made
  split at made
  · cases made
  · cases made
    refine Function.update_of_ne ?_ _ _
    rintro rfl
    exact outside (inside loc (Disk.target_of_locate located))

theorem Confined.rename {outcome : Except String Unit} (first : source.Inside loc)
    (second : target.Inside loc) : (rename source target outcome : Procedure C Unit).Confined
      (below loc) := by
  refine Confined.bind (Confined.check outcome) fun _ => Confined.change ?_
  intro disk after made other outside
  obtain ⟨source, located, made⟩ := Option.bind_eq_some_iff.mp made
  obtain ⟨target, located', made⟩ := Option.bind_eq_some_iff.mp made
  by_cases same : source = target
  · rw [Disk.rename, if_pos same] at made
    cases made
    rfl
  · refine (Disk.rename_apply same made).2.2 other ?_ ?_
    · exact fun inside => outside ((first.locate located).trans inside)
    · exact fun inside => outside ((second.locate located').trans inside)

theorem Confined.removeDirAll {failure : Option ((Location → Bool) × String)}
    (inside : place.Inside loc) :
    (removeDirAll place failure : Procedure C Unit).Confined (below loc) := by
  refine Confined.bind (Confined.change fun disk after made other outside => ?_) fun _ => ?_
  · obtain ⟨at_, located, made⟩ := Option.bind_eq_some_iff.mp made
    split at made
    · cases made
      exact Disk.putTree_of_not_below _ _ fun under => outside ((inside.locate located).trans under)
    · cases made
  · split
    · exact Confined.pure ()
    · exact Confined.throw _

theorem Confined.putTree {tree : Disk C} {outcome : Except String Unit}
    (inside : ∀ loc, place.target = some loc → below loc ⊆ area) :
    (putTree place tree outcome).Confined area := by
  refine Confined.bind (Confined.change fun disk after made other outside => ?_) fun _ =>
    Confined.check outcome
  obtain ⟨at_, located, rfl⟩ := Option.map_eq_some_iff.mp made
  exact Disk.putTree_of_not_below _ _ fun under =>
    outside (inside at_ (Disk.target_of_locate located) under)

end Confined

/-! ### Values and files -/

/-- If the procedure succeeds, its value is fine. -/
def Returns (post : α → Prop) (procedure : Procedure C α) : Prop :=
  ∀ disk value after, procedure.exec disk = (.ok value, after) → post value

/-- A file that is there afterwards was there before or is in the area. -/
def Leaves (area : Set Location) (procedure : Procedure C α) : Prop :=
  ∀ disk loc content, (procedure.exec disk).2 loc = some (.file content) →
    disk loc = some (.file content) ∨ loc ∈ area

section Rules

variable {procedure : Procedure C α} {rest : α → Procedure C β} {post : α → Prop}
  {after : β → Prop} {area : Set Location}

variable {disk last : Disk C}

theorem exec_bind_ok {value : β} (ran : (procedure >>= rest).exec disk = (.ok value, last)) :
    ∃ first middle, procedure.exec disk = (.ok first, middle) ∧
      (rest first).exec middle = (.ok value, last) := by
  rw [exec_bind] at ran
  split at ran
  · next first middle here => exact ⟨first, middle, here, ran⟩
  · cases ran

theorem Returns.pure {value : α} (fine : post value) :
    Returns post (Pure.pure value : Procedure C α) := by
  intro disk other after ran
  cases ran
  exact fine

theorem Returns.throw (message : String) :
    Returns post (MonadExcept.throw message : Procedure C α) := nofun

theorem Returns.bind (first : Returns post procedure)
    (second : ∀ value, post value → Returns after (rest value)) :
    Returns after (procedure >>= rest) := by
  intro disk value last ran
  obtain ⟨one, middle, here, later⟩ := exec_bind_ok ran
  exact second one (first disk one middle here) middle value last later

theorem Returns.check {outcome : Except String α} :
    Returns (fun value => outcome = .ok value) (Procedure.check outcome : Procedure C α) := by
  intro disk value after ran
  exact congrArg Prod.fst ran

theorem Confined.leaves (confined : procedure.Confined area) : procedure.Leaves area := by
  intro disk loc content here
  by_cases inside : loc ∈ area
  · exact .inr inside
  · rw [confined disk loc inside] at here
    exact .inl here

theorem Leaves.bind (first : procedure.Leaves area) (second : ∀ value, (rest value).Leaves area) :
    (procedure >>= rest).Leaves area := by
  intro disk loc content here
  have before := first disk loc content
  rw [exec_bind] at here
  split at here
  · next value middle ran =>
      rw [ran] at before
      exact (second value middle loc content here).elim before .inr
  · next message middle ran =>
      rw [ran] at before
      exact before here

/-- Making directories leaves no file. -/
theorem Leaves.createDirAll (place : Place) (failure : Option (Nat × String)) :
    (createDirAll place failure : Procedure C Unit).Leaves area := by
  refine Leaves.bind ?_ fun _ => ?_
  · intro disk loc content here
    rw [exec_change] at here
    split at here
    · next after made =>
        obtain ⟨passed, -, made⟩ := Option.bind_eq_some_iff.mp made
        split at made
        · cases made
        · cases made
          exact .inl (Disk.file_of_makeDirs here)
    · exact .inl here
  · split
    · exact (Confined.pure ()).leaves
    · exact (Confined.throw _).leaves

end Rules

end Procedure
end UHorse.Lib.Unix
