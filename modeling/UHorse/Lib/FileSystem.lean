import Mathlib.Data.List.DropRight
import Mathlib.Data.List.Infix
import Mathlib.Data.Finset.Card
import Mathlib.Data.Set.Finite.Lattice
import Mathlib.Data.Fintype.Card

/-!
# Unix paths and path resolution over a tree with symbolic links

A file system is a finite tree of directories, files and symbolic links, with
the process's current directory and the kernel's limit on links followed while
resolving one path. `walk` is the kernel's component-by-component resolution:
it follows every link on the way, including one at the end, and gives up when
the limit is spent. With `create` set, a missing component is created instead
of failing, which is where an open that creates what is missing ends up.

`walk` returns the links left over, so that resolving a concatenation is
exactly resolving the first part and then the second.
-/

namespace UHorse.Lib.Unix

/-- A place in the tree: the names from the root, with no links in between. -/
abbrev Location := List String

/-- One component of a path text. The root slash is a flag of the path. -/
inductive Component
  | curDir
  | parentDir
  | normal (name : String)
deriving DecidableEq, Repr

/-- A path as the kernel reads its text. A trailing slash is a trailing
`curDir`: both insist on a directory. -/
structure Path where
  absolute : Bool
  parts : List Component
deriving DecidableEq, Repr

/-- A name the kernel accepts as one component. -/
def legalName (name : String) : Bool :=
  name ≠ "" && name ≠ "." && name ≠ ".." && !name.toList.contains '/' &&
    !name.toList.contains '\x00'

theorem legalName_iff (name : String) :
    legalName name = true ↔ name ≠ "" ∧ name ≠ "." ∧ name ≠ ".." ∧ '/' ∉ name.toList ∧
      '\x00' ∉ name.toList := by
  simp [legalName, and_assoc]

/-- There are infinitely many legal names. -/
theorem infinite_legalName : {name | legalName name = true}.Infinite := by
  have injective : Function.Injective (fun n => String.ofList (List.replicate (n + 3) 'a')) := by
    intro m n same
    have lists := congrArg String.toList same
    simpa using congrArg List.length lists
  refine Set.infinite_of_injective_forall_mem injective ?_
  intro n
  have long : ∀ text : String, text.toList.length < 3 →
      String.ofList (List.replicate (n + 3) 'a') ≠ text := by
    rintro text short rfl
    simp only [String.toList_ofList, List.length_replicate] at short
    omega
  apply (legalName_iff _).mpr
  refine ⟨long _ (by decide), long _ (by decide), long _ (by decide), ?_, ?_⟩ <;>
    simp [List.mem_replicate]

namespace Path

/-- The texts between the slashes. -/
def segments (text : String) : List String :=
  (text.toList.splitOn '/').map String.ofList

def component (segment : String) : Component :=
  if segment = "." then .curDir
  else if segment = ".." then .parentDir
  else .normal segment

/-- Empty segments are repeated slashes, except a last one. -/
def bodyParts : List String → List Component
  | [] => []
  | [last] => if last = "" then [.curDir] else [component last]
  | segment :: rest =>
    if segment = "" then bodyParts rest else component segment :: bodyParts rest

/-- Read a path text. It is absolute when it starts with a slash. -/
def parse (text : String) : Path :=
  match segments text with
  | "" :: first :: rest => { absolute := true, parts := bodyParts (first :: rest) }
  | body => { absolute := false, parts := bodyParts body }

/-- The absolute path that names a location. -/
def ofLocation (loc : Location) : Path where
  absolute := true
  parts := loc.map .normal

/-- The components a path library iterates over: `.` counts only at the front
of a relative path. -/
def components (path : Path) : List Component :=
  match path.absolute, path.parts with
  | false, .curDir :: rest => .curDir :: rest.filter (· ≠ .curDir)
  | _, parts => parts.filter (· ≠ .curDir)

def trimEnd (parts : List Component) : List Component := parts.rdropWhile (· = .curDir)

/-- The path without its last component; the root and the empty path have none. -/
def parent? (path : Path) : Option Path :=
  match trimEnd path.parts with
  | [] => none
  | parts => some { path with parts := trimEnd parts.dropLast }

theorem length_trimEnd_le (parts : List Component) : (trimEnd parts).length ≤ parts.length :=
  (List.rdropWhile_prefix _ _).length_le

theorem parent?_length_lt {path above : Path} (h : path.parent? = some above) :
    above.parts.length < path.parts.length := by
  rw [parent?] at h
  split at h
  · cases h
  · next nonempty =>
      obtain rfl := Option.some.inj h
      have kept := length_trimEnd_le path.parts
      have shorter := length_trimEnd_le (trimEnd path.parts).dropLast
      have positive := List.length_pos_iff.mpr nonempty
      rw [List.length_dropLast] at shorter
      dsimp only
      omega

variable {parts : List Component}

theorem trimEnd_of_notMem (plain : .curDir ∉ parts) : trimEnd parts = parts := by
  apply List.rdropWhile_eq_self_iff.mpr
  intro nonempty last
  have same : parts.getLast nonempty = .curDir := by simpa using last
  exact plain (same ▸ List.getLast_mem nonempty)

theorem parent?_concat {absolute : Bool} {part : Component} (plain : .curDir ∉ parts ++ [part]) :
    parent? ⟨absolute, parts ++ [part]⟩ = some ⟨absolute, parts⟩ := by
  have before : .curDir ∉ parts := fun member => plain (by simp [member])
  rw [parent?]
  rw [trimEnd_of_notMem plain]
  split
  · next empty => simp at empty
  · rw [List.dropLast_concat, trimEnd_of_notMem before]

theorem curDir_notMem_normal (names : List String) :
    Component.curDir ∉ names.map Component.normal := by
  simp

/-- Components that a path text keeps as they are. -/
def Plain : Component → Prop
  | .curDir => False
  | .parentDir => True
  | .normal name => legalName name = true

def componentText : Component → String
  | .curDir => "."
  | .parentDir => ".."
  | .normal name => name

/-- The text of an absolute path. -/
def render (parts : List Component) : String :=
  String.ofList (['/'].intercalate ([] :: parts.map (fun part => (componentText part).toList)))

private theorem plain_text {part : Component} (plain : Plain part) :
    componentText part ≠ "" ∧ component (componentText part) = part ∧
      '/' ∉ (componentText part).toList := by
  cases part with
  | curDir => cases plain
  | parentDir => exact ⟨by decide, by decide, by decide⟩
  | normal name =>
    obtain ⟨nonempty, notDot, notDots, noSlash, _⟩ := (legalName_iff name).mp plain
    exact ⟨nonempty, by simp [component, componentText, notDot, notDots], noSlash⟩

private theorem bodyParts_plain (plain : ∀ part ∈ parts, Plain part) :
    bodyParts (parts.map componentText) = parts := by
  induction parts with
  | nil => rfl
  | cons part rest ih =>
    have later := ih (fun next member => plain next (by simp [member]))
    obtain ⟨nonempty, same, _⟩ := plain_text (plain part (by simp))
    cases rest with
    | nil => simp [bodyParts, nonempty, same]
    | cons next rest =>
      simp only [List.map_cons] at later
      simp only [List.map_cons, bodyParts, if_neg nonempty, same, later]

/-- Reading a rendered path gives its components back. -/
theorem parse_render (nonempty : parts ≠ []) (plain : ∀ part ∈ parts, Plain part) :
    parse (render parts) = ⟨true, parts⟩ := by
  have split : segments (render parts) = "" :: parts.map componentText := by
    have slashFree : ∀ text ∈ [] :: parts.map (fun part => (componentText part).toList),
        '/' ∉ text := by
      simp only [List.mem_cons, List.mem_map]
      rintro text (rfl | ⟨part, member, rfl⟩)
      · simp
      · exact (plain_text (plain part member)).2.2
    simp only [segments, render, String.toList_ofList]
    rw [List.splitOn_intercalate _ slashFree (by simp)]
    simp
  obtain ⟨part, rest, rfl⟩ := List.exists_cons_of_ne_nil nonempty
  simp only [parse, split, List.map_cons]
  have body := bodyParts_plain plain
  simp only [List.map_cons] at body
  rw [body]

/-- The text of a relative path. -/
def renderRelative (parts : List Component) : String :=
  String.ofList (['/'].intercalate (parts.map (fun part => (componentText part).toList)))

theorem parse_renderRelative (nonempty : parts ≠ []) (plain : ∀ part ∈ parts, Plain part) :
    parse (renderRelative parts) = ⟨false, parts⟩ := by
  have split : segments (renderRelative parts) = parts.map componentText := by
    have slashFree : ∀ text ∈ parts.map (fun part => (componentText part).toList),
        '/' ∉ text := by
      simp only [List.mem_map]
      rintro text ⟨part, member, rfl⟩
      exact (plain_text (plain part member)).2.2
    simp only [segments, renderRelative, String.toList_ofList]
    rw [List.splitOn_intercalate _ slashFree (by simpa using nonempty)]
    simp
  obtain ⟨part, rest, rfl⟩ := List.exists_cons_of_ne_nil nonempty
  have first : componentText part ≠ "" := (plain_text (plain part List.mem_cons_self)).1
  have body := bodyParts_plain plain
  rw [parse]
  rw [split]
  split
  · next starts =>
      rw [List.map_cons, List.cons.injEq] at starts
      exact absurd starts.1 first
  · rw [body]

/-- Append a relative path to a location. -/
def join (loc : Location) (path : Path) : Path where
  absolute := true
  parts := loc.map .normal ++ path.parts

end Path

/-- A file, a directory with its entries, or a link with its target text. -/
inductive Tree
  | file
  | dir (entries : List (String × Tree))
  | link (target : String)

namespace Tree

def child? : Tree → String → Option Tree
  | .dir entries, name => entries.lookup name
  | _, _ => none

/-- What is at a location, links not followed. -/
def find? : Tree → Location → Option Tree
  | node, [] => some node
  | node, name :: rest => (node.child? name).bind (fun child => child.find? rest)

def isDir : Tree → Bool
  | .dir _ => true
  | _ => false

def isLink : Tree → Bool
  | .link _ => true
  | _ => false

theorem find?_append (tree : Tree) (loc rest : Location) :
    tree.find? (loc ++ rest) = (tree.find? loc).bind (fun node => node.find? rest) := by
  induction loc generalizing tree with
  | nil => rfl
  | cons name loc ih =>
    simp only [List.cons_append, find?]
    cases tree.child? name with
    | none => rfl
    | some child => exact ih child

/-- A directory is finite, so some legal name is not among its entries. -/
theorem exists_missing_child (tree : Tree) (used : String → Prop)
    (infinitely : {name | used name}.Infinite) : ∃ name, used name ∧ tree.child? name = none := by
  cases tree with
  | file =>
    obtain ⟨name, member⟩ := infinitely.nonempty
    exact ⟨name, member, rfl⟩
  | link target =>
    obtain ⟨name, member⟩ := infinitely.nonempty
    exact ⟨name, member, rfl⟩
  | dir entries =>
    have finite : {name | name ∈ entries.map Prod.fst}.Finite := List.finite_toSet _
    obtain ⟨name, member, fresh⟩ := (infinitely.sdiff finite).nonempty
    refine ⟨name, member, ?_⟩
    apply List.lookup_eq_none_iff.mpr
    intro entry inEntries
    have distinct : name ≠ entry.1 := fun same =>
      fresh (List.mem_map.mpr ⟨entry, inEntries, same.symm⟩)
    simpa using distinct

end Tree

/-- Whether resolution can continue below a location: it must be a directory,
or one that creation has just made. -/
def enterable (tree : Tree) (create : Bool) (loc : Location) : Bool :=
  match tree.find? loc with
  | some node => node.isDir
  | none => create

/-- Resolve the components with no more than the current links left. `follow`
continues after a link, with one link fewer. -/
def walkLevel (tree : Tree) (create : Bool) (links : Nat)
    (follow : Location → List Component → Option (Nat × Location)) :
    Location → List Component → Option (Nat × Location)
  | loc, [] => some (links, loc)
  | loc, part :: rest =>
    if enterable tree create loc then
      match part with
      | .curDir => walkLevel tree create links follow loc rest
      | .parentDir => walkLevel tree create links follow loc.dropLast rest
      | .normal name =>
        if legalName name then
          match tree.find? (loc ++ [name]) with
          | none =>
            if create then walkLevel tree create links follow (loc ++ [name]) rest else none
          | some (.link target) =>
            follow (if (Path.parse target).absolute then [] else loc)
              ((Path.parse target).parts ++ rest)
          | some _ => walkLevel tree create links follow (loc ++ [name]) rest
        else none
    else none

/-- Path resolution with at most `links` links, from a location. -/
def walk (tree : Tree) (create : Bool) :
    Nat → Location → List Component → Option (Nat × Location)
  | 0 => walkLevel tree create 0 (fun _ _ => none)
  | links + 1 => walkLevel tree create (links + 1) (walk tree create links)

section Walk

variable {tree : Tree} {create : Bool}

@[simp] theorem walk_nil (links : Nat) (loc : Location) :
    walk tree create links loc [] = some (links, loc) := by
  cases links <;> rfl

/-- One component, with the recursion through links folded back into `walk`. -/
theorem walk_cons (links : Nat) (loc : Location) (part : Component) (rest : List Component) :
    walk tree create links loc (part :: rest) =
      if enterable tree create loc then
        match part with
        | .curDir => walk tree create links loc rest
        | .parentDir => walk tree create links loc.dropLast rest
        | .normal name =>
          if legalName name then
            match tree.find? (loc ++ [name]) with
            | none => if create then walk tree create links (loc ++ [name]) rest else none
            | some (.link target) =>
              match links with
              | 0 => none
              | links + 1 =>
                walk tree create links (if (Path.parse target).absolute then [] else loc)
                  ((Path.parse target).parts ++ rest)
            | some _ => walk tree create links (loc ++ [name]) rest
          else none
      else none := by
  cases links <;> rfl

variable {links left : Nat} {loc finish : Location} {parts : List Component}

/-- One level of `walk_append`, given that `follow` already composes. -/
private theorem walkLevel_append {follow : Location → List Component → Option (Nat × Location)}
    (level : walk tree create links = walkLevel tree create links follow)
    (composes : ∀ loc first second, follow loc (first ++ second) =
      (follow loc first).bind (fun reached => walk tree create reached.1 reached.2 second))
    (loc : Location) (first second : List Component) :
    walkLevel tree create links follow loc (first ++ second) =
      (walkLevel tree create links follow loc first).bind
        (fun reached => walk tree create reached.1 reached.2 second) := by
  induction first generalizing loc with
  | nil => simp only [List.nil_append, walkLevel, Option.bind_some, level]
  | cons part rest ih =>
    simp only [List.cons_append, walkLevel]
    split <;> [skip; rfl]
    cases part with
    | curDir => exact ih loc
    | parentDir => exact ih loc.dropLast
    | normal name =>
      dsimp only
      split <;> [skip; rfl]
      cases tree.find? (loc ++ [name]) with
      | none =>
        dsimp only
        split <;> [exact ih _; rfl]
      | some node =>
        cases node with
        | file => exact ih _
        | dir entries => exact ih _
        | link target =>
          dsimp only
          rw [← List.append_assoc]
          exact composes _ _ _

/-- Resolving a concatenation is resolving its parts one after the other, with
the links the first part left over. -/
theorem walk_append (links : Nat) (loc : Location) (first second : List Component) :
    walk tree create links loc (first ++ second) =
      (walk tree create links loc first).bind
        (fun reached => walk tree create reached.1 reached.2 second) := by
  induction links generalizing loc first second with
  | zero => exact walkLevel_append rfl (fun _ _ _ => rfl) loc first second
  | succ links ih => exact walkLevel_append rfl (fun _ _ _ => ih _ _ _) loc first second

/-- A successful resolution, one constructor for each kind of component. -/
inductive Walks (tree : Tree) (create : Bool) :
    Nat → Location → List Component → Nat → Location → Prop
  | done {links : Nat} {loc : Location} : Walks tree create links loc [] links loc
  | curDir {links left : Nat} {loc finish : Location} {rest : List Component} :
      enterable tree create loc = true → Walks tree create links loc rest left finish →
      Walks tree create links loc (.curDir :: rest) left finish
  | parentDir {links left : Nat} {loc finish : Location} {rest : List Component} :
      enterable tree create loc = true → Walks tree create links loc.dropLast rest left finish →
      Walks tree create links loc (.parentDir :: rest) left finish
  | make {links left : Nat} {loc finish : Location} {rest : List Component} {name : String} :
      enterable tree create loc = true → legalName name = true →
      tree.find? (loc ++ [name]) = none → create = true →
      Walks tree create links (loc ++ [name]) rest left finish →
      Walks tree create links loc (.normal name :: rest) left finish
  | enter {links left : Nat} {loc finish : Location} {rest : List Component} {name : String}
      {node : Tree} :
      enterable tree create loc = true → legalName name = true →
      tree.find? (loc ++ [name]) = some node → node.isLink = false →
      Walks tree create links (loc ++ [name]) rest left finish →
      Walks tree create links loc (.normal name :: rest) left finish
  | follow {links left : Nat} {loc finish : Location} {rest : List Component}
      {name target : String} :
      enterable tree create loc = true → legalName name = true →
      tree.find? (loc ++ [name]) = some (.link target) →
      Walks tree create links (if (Path.parse target).absolute then [] else loc)
        ((Path.parse target).parts ++ rest) left finish →
      Walks tree create (links + 1) loc (.normal name :: rest) left finish

theorem Walks.eq_some (h : Walks tree create links loc parts left finish) :
    walk tree create links loc parts = some (left, finish) := by
  induction h with
  | done => simp
  | curDir inside _ ih => rw [walk_cons, if_pos inside]; exact ih
  | parentDir inside _ ih => rw [walk_cons, if_pos inside]; exact ih
  | make inside legal missing making _ ih =>
    simp only [walk_cons, if_pos inside, if_pos legal, missing, if_pos making, ih]
  | @enter _ _ _ _ _ _ node inside legal found proper _ ih =>
    cases node with
    | file => simp only [walk_cons, if_pos inside, if_pos legal, found, ih]
    | dir entries => simp only [walk_cons, if_pos inside, if_pos legal, found, ih]
    | link target => cases proper
  | follow inside legal found _ ih =>
    simp only [walk_cons, if_pos inside, if_pos legal, found, ih]

/-- One level of `Walks.of_eq_some`, given what a successful `follow` means. -/
private theorem walks_of_walkLevel {follow : Location → List Component → Option (Nat × Location)}
    (followed : ∀ loc parts, follow loc parts = some (left, finish) →
      ∃ fewer, links = fewer + 1 ∧ Walks tree create fewer loc parts left finish)
    (h : walkLevel tree create links follow loc parts = some (left, finish)) :
    Walks tree create links loc parts left finish := by
  induction parts generalizing loc with
  | nil =>
    simp only [walkLevel, Option.some.injEq, Prod.mk.injEq] at h
    obtain ⟨rfl, rfl⟩ := h
    exact .done
  | cons part rest ih =>
    simp only [walkLevel] at h
    split at h <;> [skip; cases h]
    cases part with
    | curDir => exact .curDir ‹_› (ih h)
    | parentDir => exact .parentDir ‹_› (ih h)
    | normal name =>
      dsimp only at h
      split at h <;> [skip; cases h]
      cases found : tree.find? (loc ++ [name]) with
      | none =>
        simp only [found] at h
        split at h <;> [exact .make ‹_› ‹_› found ‹_› (ih h); cases h]
      | some node =>
        simp only [found] at h
        cases node with
        | file => exact .enter ‹_› ‹_› found rfl (ih h)
        | dir entries => exact .enter ‹_› ‹_› found rfl (ih h)
        | link target =>
          obtain ⟨fewer, rfl, walked⟩ := followed _ _ h
          exact .follow ‹_› ‹_› found walked

theorem Walks.of_eq_some (h : walk tree create links loc parts = some (left, finish)) :
    Walks tree create links loc parts left finish := by
  induction links generalizing loc parts with
  | zero => exact walks_of_walkLevel (fun _ _ impossible => by cases impossible) h
  | succ links ih => exact walks_of_walkLevel (fun _ _ walked => ⟨links, rfl, ih walked⟩) h

/-- More links do not change where a resolution ends. -/
theorem Walks.mono_links (h : Walks tree create links loc parts left finish) (extra : Nat) :
    Walks tree create (links + extra) loc parts (left + extra) finish := by
  induction h with
  | done => exact .done
  | curDir inside _ ih => exact .curDir inside ih
  | parentDir inside _ ih => exact .parentDir inside ih
  | make inside legal missing making _ ih => exact .make inside legal missing making ih
  | enter inside legal found proper _ ih => exact .enter inside legal found proper ih
  | follow inside legal found _ ih =>
    rw [Nat.add_right_comm]
    exact .follow inside legal found ih

/-- Only legal names resolve. -/
theorem Walks.legal (h : Walks tree create links loc parts left finish) {name : String}
    (member : .normal name ∈ parts) : legalName name = true := by
  induction h with
  | done => cases member
  | curDir _ _ ih => exact ih (by simpa using member)
  | parentDir _ _ ih => exact ih (by simpa using member)
  | make _ legal _ _ _ ih =>
    obtain same | later := List.mem_cons.mp member
    · cases same; exact legal
    · exact ih later
  | enter _ legal _ _ _ ih =>
    obtain same | later := List.mem_cons.mp member
    · cases same; exact legal
    · exact ih later
  | follow _ legal _ _ ih =>
    obtain same | later := List.mem_cons.mp member
    · cases same; exact legal
    · exact ih (List.mem_append_right _ later)

theorem Walks.left_le (h : Walks tree create links loc parts left finish) : left ≤ links := by
  induction h with
  | done => exact Nat.le_refl _
  | curDir _ _ ih => exact ih
  | parentDir _ _ ih => exact ih
  | make _ _ _ _ _ ih => exact ih
  | enter _ _ _ _ _ ih => exact ih
  | follow _ _ _ _ ih => exact Nat.le_succ_of_le ih

theorem enterable_create (inside : enterable tree false loc = true) :
    enterable tree true loc = true := by
  unfold enterable at *
  split at inside
  · exact inside
  · cases inside

/-- What resolves without creating anything resolves alike when creation is on. -/
theorem Walks.creating (h : Walks tree false links loc parts left finish) :
    Walks tree true links loc parts left finish := by
  induction h with
  | done => exact .done
  | curDir inside _ ih => exact .curDir (enterable_create inside) ih
  | parentDir inside _ ih => exact .parentDir (enterable_create inside) ih
  | make _ _ _ impossible => cases impossible
  | enter inside legal found proper _ ih =>
    exact .enter (enterable_create inside) legal found proper ih
  | follow inside legal found _ ih => exact .follow (enterable_create inside) legal found ih

/-- A location that exists, with a directory and no link at every proper prefix. -/
def Solid (tree : Tree) (loc : Location) : Prop :=
  ∀ front name, front ++ [name] <+: loc →
    legalName name = true ∧ enterable tree false front = true ∧
      ∃ node, tree.find? (front ++ [name]) = some node ∧ node.isLink = false

theorem Solid.nil : Solid tree [] := by
  intro front name isPrefix
  simp at isPrefix

theorem Solid.of_isPrefix {loc' : Location} (h : Solid tree loc) (isPrefix : loc' <+: loc) :
    Solid tree loc' :=
  fun front name below => h front name (below.trans isPrefix)

theorem Solid.concat {name : String} {node : Tree} (h : Solid tree loc)
    (legal : legalName name = true) (inside : enterable tree false loc = true)
    (found : tree.find? (loc ++ [name]) = some node) (proper : node.isLink = false) :
    Solid tree (loc ++ [name]) := by
  intro front last isPrefix
  obtain same | below := List.prefix_concat_iff.mp isPrefix
  · obtain ⟨rfl, rfl⟩ := List.append_singleton_inj.mp same
    exact ⟨legal, inside, node, found, proper⟩
  · exact h front last below

/-- Resolution without creation stays on solid locations. -/
theorem Walks.solid (h : Walks tree false links loc parts left finish) (start : Solid tree loc) :
    Solid tree finish := by
  induction h with
  | done => exact start
  | curDir _ _ ih => exact ih start
  | parentDir _ _ ih => exact ih (start.of_isPrefix (List.dropLast_prefix _))
  | make _ _ _ impossible => cases impossible
  | enter inside legal found proper _ ih => exact ih (start.concat legal inside found proper)
  | follow _ _ _ _ ih =>
    apply ih
    split
    · exact .nil
    · exact start

/-- The path that names a solid location resolves to it without any link. -/
theorem Solid.walks (h : Solid tree loc) (links : Nat) :
    Walks tree false links [] (loc.map .normal) links loc := by
  induction loc using List.reverseRecOn with
  | nil => exact .done
  | append_singleton front name ih =>
    have before := ih (h.of_isPrefix (List.prefix_append front [name]))
    obtain ⟨legal, inside, node, found, proper⟩ := h front name (List.prefix_refl _)
    apply Walks.of_eq_some
    rw [List.map_append, walk_append, before.eq_some]
    exact (Walks.enter inside legal found proper .done).eq_some

end Walk

/-- A tree, the process's current directory and the limit on links followed
while one path is resolved. The current directory is a real directory. -/
structure FileSystem where
  tree : Tree
  cwd : Location
  maxLinks : Nat
  cwd_solid : Solid tree cwd

namespace FileSystem

variable (fs : FileSystem)

/-- Where resolution of a path starts. -/
def start (path : Path) : Location := if path.absolute then [] else fs.cwd

/-- `realpath`: the location a path resolves to, if it exists. -/
def canonicalize (path : Path) : Option Location :=
  (walk fs.tree false fs.maxLinks (fs.start path) path.parts).map Prod.snd

/-- `stat` succeeds: links are followed, so a dangling link does not exist. -/
def pathExists (path : Path) : Bool := (fs.canonicalize path).isSome

def isDirectory (path : Path) : Bool :=
  match fs.canonicalize path with
  | some loc => enterable fs.tree false loc
  | none => false

/-- The location an `open` of the path reaches: every link on the way is
followed and missing components are created. -/
def openLocation (path : Path) : Option Location :=
  (walk fs.tree true fs.maxLinks (fs.start path) path.parts).map Prod.snd

variable {fs}

theorem start_solid (path : Path) : Solid fs.tree (fs.start path) := by
  rw [start]
  split
  · exact .nil
  · exact fs.cwd_solid

variable {path : Path} {loc : Location}

theorem canonicalize_eq_some (h : fs.canonicalize path = some loc) :
    ∃ left, Walks fs.tree false fs.maxLinks (fs.start path) path.parts left loc := by
  obtain ⟨⟨left, finish⟩, walked, rfl⟩ := Option.map_eq_some_iff.mp h
  exact ⟨left, .of_eq_some walked⟩

theorem openLocation_eq_some (h : fs.openLocation path = some loc) :
    ∃ left, Walks fs.tree true fs.maxLinks (fs.start path) path.parts left loc := by
  obtain ⟨⟨left, finish⟩, walked, rfl⟩ := Option.map_eq_some_iff.mp h
  exact ⟨left, .of_eq_some walked⟩

theorem canonicalize_solid (h : fs.canonicalize path = some loc) : Solid fs.tree loc := by
  obtain ⟨left, walked⟩ := canonicalize_eq_some h
  exact walked.solid (start_solid path)

/-- Canonical locations are fixed points. -/
theorem canonicalize_ofLocation (h : Solid fs.tree loc) :
    fs.canonicalize (.ofLocation loc) = some loc := by
  have walked := (h.walks fs.maxLinks).eq_some
  simp [canonicalize, start, Path.ofLocation, walked]

/-- Nothing exists below a missing entry of a real directory. -/
theorem pathExists_missing_child {name : String} (solid : Solid fs.tree loc)
    (missing : fs.tree.find? (loc ++ [name]) = none) (rest : List Component) :
    fs.pathExists ⟨true, loc.map .normal ++ .normal name :: rest⟩ = false := by
  have stuck : walk fs.tree false fs.maxLinks loc (.normal name :: rest) = none := by
    rw [walk_cons]
    simp [missing]
  have nowhere : walk fs.tree false fs.maxLinks [] (loc.map .normal ++ .normal name :: rest) =
      none := by
    rw [walk_append, (solid.walks fs.maxLinks).eq_some]
    exact stuck
  simp [pathExists, canonicalize, start, nowhere]

/-- Replacing the front of a path by the location it resolves to does not
change what an open of the whole path reaches. -/
theorem openLocation_of_canonical_front {front : Path} {finish : Location} {rest : List Component}
    (resolved : fs.canonicalize front = some loc)
    (opened : fs.openLocation ⟨front.absolute, front.parts ++ rest⟩ = some finish) :
    fs.openLocation ⟨true, loc.map .normal ++ rest⟩ = some finish := by
  obtain ⟨left, walked⟩ := canonicalize_eq_some resolved
  obtain ⟨left', through⟩ := openLocation_eq_some opened
  -- The open of the whole path passes `loc` with `left` links to spare.
  have tail : walk fs.tree true left loc rest = some (left', finish) := by
    have whole := through.eq_some
    have sameStart : fs.start ⟨front.absolute, front.parts ++ rest⟩ = fs.start front := rfl
    rw [walk_append, sameStart, walked.creating.eq_some] at whole
    exact whole
  obtain ⟨extra, enough⟩ := Nat.exists_eq_add_of_le walked.left_le
  have more := (Walks.of_eq_some tail).mono_links extra
  rw [← enough] at more
  have direct : walk fs.tree true fs.maxLinks [] (loc.map .normal ++ rest) =
      some (left' + extra, finish) := by
    rw [walk_append, ((canonicalize_solid resolved).walks fs.maxLinks).creating.eq_some]
    exact more.eq_some
  simp [openLocation, start, direct]

end FileSystem

end UHorse.Lib.Unix
