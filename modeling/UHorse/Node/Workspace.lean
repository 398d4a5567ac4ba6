import UHorse.Lib.ExistingAncestor
import Mathlib.Data.String.Basic

/-!
# The workspace guard of a node

`Workspace.canAccess` decides whether a command may touch a path, and
`CommandExecutor.resolveFilePath` turns the path of a file command into the one
that is opened. Both resolve the path first: the longest existing ancestor is
canonicalized, and what is left is appended component by component without
looking at the file system again.

The guard is compared with `openLocation`, the place the kernel reaches when it
opens the resolved path. It keeps every access inside the root exactly when no
path spelled below the root and admitted by the patterns leads out of it: a link
that is only reached lexically, or that dangles, is not seen by the guard.
-/

namespace UHorse.Node

open UHorse.Lib.Unix

structure WorkspaceConfig where
  name : String
  rootPath : Path
  readOnly : Bool
  allowedPatterns : List String
  deniedPatterns : List String
  maxFileSize : Nat
  allowSymlinks : Bool
  allowExecution : Bool

def WorkspaceConfig.default : WorkspaceConfig where
  name := "default"
  rootPath := Path.parse "."
  readOnly := false
  allowedPatterns := ["**/*"]
  deniedPatterns := []
  maxFileSize := 100 * 1024 * 1024
  allowSymlinks := false
  allowExecution := false

/-- The errors of `workspace.rs`, each with the path its message shows. -/
inductive WorkspaceError
  | pathDoesNotExist (path : Path)
  | pathIsNotADirectory (path : Path)
  | failedToCanonicalizePath (path : Path)
  | failedToResolvePath (path : Path)
  | failedToCanonicalizeAncestor (ancestor : Path)
  | failedToResolveRelativePath (path : Path)
deriving DecidableEq

namespace Workspace

def canonicalizeRoot (fs : FileSystem) (path : Path) : Except WorkspaceError Location :=
  if !fs.pathExists path then .error (.pathDoesNotExist path)
  else if !fs.isDirectory path then .error (.pathIsNotADirectory path)
  else match fs.canonicalize path with
    | none => .error (.failedToCanonicalizePath path)
    | some root => .ok root

def normalizeExistingAware (fs : FileSystem) (path : Path) : Except WorkspaceError Location :=
  match existingAncestor fs path with
  | none => .error (.failedToResolvePath path)
  | some ancestor =>
    match fs.canonicalize ancestor with
    | none => .error (.failedToCanonicalizeAncestor ancestor)
    | some normalized =>
      match stripPrefix path.components ancestor.components with
      | none => .error (.failedToResolveRelativePath path)
      | some remainder => .ok (remainder.foldl pushComponent normalized)

end Workspace

/-- A workspace whose root came out of `canonicalizeRoot`. -/
structure Workspace (fs : FileSystem) where
  config : WorkspaceConfig
  root : Location
  rootPath_eq : config.rootPath = .ofLocation root
  canonical : ∃ path, Workspace.canonicalizeRoot fs path = .ok root

namespace Workspace

variable {fs : FileSystem}

def withConfig (fs : FileSystem) (config : WorkspaceConfig) :
    Except WorkspaceError (Workspace fs) :=
  match h : canonicalizeRoot fs config.rootPath with
  | .error error => .error error
  | .ok root =>
    .ok { config := { config with rootPath := .ofLocation root }
          root := root
          rootPath_eq := rfl
          canonical := ⟨config.rootPath, h⟩ }

/-- `Workspace::new`: the defaults, named after the last component of the root. -/
def new (fs : FileSystem) (path : Path) : Except WorkspaceError (Workspace fs) :=
  match h : canonicalizeRoot fs path with
  | .error error => .error error
  | .ok root =>
    .ok { config := { WorkspaceConfig.default with
            name := root.getLast?.getD "workspace"
            rootPath := .ofLocation root }
          root := root
          rootPath_eq := rfl
          canonical := ⟨path, h⟩ }

variable (ws : Workspace fs) (glob : String → String → Bool)

def resolvePath (path : Path) : Except WorkspaceError Location :=
  normalizeExistingAware fs (if path.absolute then path else .join ws.root path)

/-- The text a resolved path is matched with: relative to the root, `.` for the
root itself, backslashes read as separators. -/
def relativeText (relative : List String) : String :=
  if relative = [] then "."
  else (String.intercalate "/" relative).map (fun c => if c = '\\' then '/' else c)

/-- Steps 3 to 5 of `canAccess`. `glob` is the pattern matcher of the
`glob_match` crate. -/
def patternsAdmit (relative : String) : Bool :=
  if ws.config.deniedPatterns.any (fun pattern => glob pattern relative) then false
  else if relative = "." then true
  else ws.config.allowedPatterns.any (fun pattern => glob pattern relative)

def canAccess (path : Path) (write : Bool) : Except WorkspaceError Bool :=
  match ws.resolvePath path with
  | .error error => .error error
  | .ok resolved =>
    if !ws.root.isPrefixOf resolved then .ok false
    else if write && ws.config.readOnly then .ok false
    else .ok (ws.patternsAdmit glob (relativeText (resolved.drop ws.root.length)))

end Workspace

inductive NodeError
  | workspace (error : WorkspaceError)
  | permission (message : String)
  | cannotAccess (path : Location)
  | execution (message : String)
  | connection (message : String)
  | config (message : String)
  | protocol (message : String)
  | io (message : String)
  | serialization (message : String)
  | timeout (message : String)
  | internal (message : String)
deriving DecidableEq

namespace CommandExecutor

variable {fs : FileSystem}

/-- The path a file command opens. The access check resolves the already
resolved path a second time; the result is the first resolution. -/
def resolveFilePath (ws : Workspace fs) (glob : String → String → Bool) (path : String)
    (write : Bool) : Except NodeError Location :=
  match ws.resolvePath (.parse path) with
  | .error error => .error (.workspace error)
  | .ok resolved =>
    match ws.canAccess glob (.ofLocation resolved) write with
    | .error error => .error (.workspace error)
    | .ok false => .error (.cannotAccess resolved)
    | .ok true => .ok resolved

end CommandExecutor

/-! ## What the guard guarantees -/

namespace Workspace

variable {fs : FileSystem}

theorem normalizeExistingAware_ofLocation {loc resolved : Location}
    (h : normalizeExistingAware fs (.ofLocation loc) = .ok resolved) :
    ∃ front rest canonical, loc = front ++ rest ∧
      fs.canonicalize (.ofLocation front) = some canonical ∧ resolved = canonical ++ rest := by
  rw [normalizeExistingAware] at h
  cases found : existingAncestor fs (.ofLocation loc) with
  | none => simp [found] at h
  | some ancestor =>
    obtain ⟨front, rest, rfl, rfl⟩ := existingAncestor_ofLocation found
    cases canon : fs.canonicalize (.ofLocation front) with
    | none => simp [found, canon] at h
    | some canonical =>
      refine ⟨front, rest, canonical, rfl, canon, ?_⟩
      simp only [found, canon, components_ofLocation, List.map_append, stripPrefix,
        List.prefix_append, if_true, List.length_map, Except.ok.injEq] at h
      rw [← h, List.drop_left' (by simp)]
      exact foldl_pushComponent_normal canonical rest

theorem root_solid (ws : Workspace fs) : Solid fs.tree ws.root := by
  obtain ⟨path, canonical⟩ := ws.canonical
  rw [canonicalizeRoot] at canonical
  split at canonical
  · cases canonical
  · split at canonical
    · cases canonical
    · cases resolved : fs.canonicalize path with
      | none => simp [resolved] at canonical
      | some root =>
        simp only [resolved, Except.ok.injEq] at canonical
        exact canonical ▸ FileSystem.canonicalize_solid resolved

variable {ws : Workspace fs} {glob : String → String → Bool}

/-- What `canAccess` has checked when it answers `true`. -/
theorem canAccess_eq_true {path : Path} {write : Bool}
    (granted : ws.canAccess glob path write = .ok true) :
    ∃ relative, ws.resolvePath path = .ok (ws.root ++ relative) ∧
      ws.patternsAdmit glob (relativeText relative) = true := by
  rw [canAccess] at granted
  cases resolution : ws.resolvePath path with
  | error error => simp [resolution] at granted
  | ok resolved =>
    simp only [resolution] at granted
    split at granted
    · cases granted
    · next inside =>
        split at granted
        · cases granted
        · have below : ws.root <+: resolved := by simpa using inside
          obtain ⟨relative, rfl⟩ := below
          refine ⟨relative, rfl, ?_⟩
          simpa using granted

theorem canAccess_read {path : Path} {relative : Location}
    (resolution : ws.resolvePath path = .ok (ws.root ++ relative))
    (admitted : ws.patternsAdmit glob (relativeText relative) = true) :
    ws.canAccess glob path false = .ok true := by
  have inside : ws.root.isPrefixOf (ws.root ++ relative) = true := by simp
  simp [canAccess, resolution, inside, admitted]

/-- An open of the location, with every link on the way followed and missing
components created, ends below the root. -/
def StaysInside (ws : Workspace fs) (loc : Location) : Prop :=
  ∀ reached, fs.openLocation (.ofLocation loc) = some reached → ws.root <+: reached

/-- Containment for one path text and one access mode. -/
def GuardContains (ws : Workspace fs) (glob : String → String → Bool) (path : String)
    (write : Bool) : Prop :=
  (ws.canAccess glob (.parse path) write = .ok true →
      ∃ resolved, ws.resolvePath (.parse path) = .ok resolved ∧ ws.StaysInside resolved) ∧
    ∀ resolved, CommandExecutor.resolveFilePath ws glob path write = .ok resolved →
      ws.StaysInside resolved

/-- No path spelled below the root and admitted by the patterns leads out of it. -/
def NoAdmittedEscape (ws : Workspace fs) (glob : String → String → Bool) : Prop :=
  ∀ relative, ws.patternsAdmit glob (relativeText relative) = true →
    ws.StaysInside (ws.root ++ relative)

/-- A resolved path that passes the check a second time stays inside: its own
resolution only replaced a front by what the kernel reaches through it. -/
theorem staysInside_of_canAccess {loc : Location} {write : Bool} (safe : ws.NoAdmittedEscape glob)
    (granted : ws.canAccess glob (.ofLocation loc) write = .ok true) : ws.StaysInside loc := by
  obtain ⟨relative, resolution, admitted⟩ := canAccess_eq_true granted
  have normalized : normalizeExistingAware fs (.ofLocation loc) = .ok (ws.root ++ relative) :=
    resolution
  obtain ⟨front, rest, canonical, rfl, resolved, same⟩ :=
    normalizeExistingAware_ofLocation normalized
  intro reached opened
  apply safe relative admitted reached
  rw [same]
  have opened' : fs.openLocation ⟨true, front.map .normal ++ rest.map .normal⟩ =
      some reached := by simpa [Path.ofLocation] using opened
  have direct := FileSystem.openLocation_of_canonical_front resolved opened'
  simpa [Path.ofLocation] using direct

/-- Every location below the root is the resolution of some path text: go
through a missing entry of the root and back up. -/
theorem exists_resolvePath (ws : Workspace fs) {relative : Location}
    (legal : ∀ name ∈ ws.root ++ relative, legalName name = true) :
    ∃ path : String, ws.resolvePath (.parse path) = .ok (ws.root ++ relative) := by
  have solid := root_solid ws
  obtain ⟨missing, missingLegal, missingHere⟩ :
      ∃ name, legalName name = true ∧ fs.tree.find? (ws.root ++ [name]) = none := by
    cases here : fs.tree.find? ws.root with
    | none =>
      obtain ⟨name, member⟩ := infinite_legalName.nonempty
      exact ⟨name, member, by simp [Tree.find?_append, here]⟩
    | some node =>
      obtain ⟨name, member, absent⟩ := node.exists_missing_child _ infinite_legalName
      exact ⟨name, member, by simp [Tree.find?_append, here, Tree.find?, absent]⟩
  let tail := Component.parentDir :: relative.map Component.normal
  let parts := ws.root.map Component.normal ++ .normal missing :: tail
  have parsed : Path.parse (Path.render parts) = ⟨true, parts⟩ := by
    apply Path.parse_render
    · simp [parts]
    · intro part member
      simp only [parts, tail, List.mem_append, List.mem_map, List.mem_cons] at member
      obtain ⟨name, inRoot, rfl⟩ | rfl | rfl | ⟨name, inRelative, rfl⟩ := member
      · exact legal name (by simp [inRoot])
      · exact missingLegal
      · trivial
      · exact legal name (by simp [inRelative])
  have plain : Component.curDir ∉ tail := by simp [tail]
  have ancestor := existingAncestor_of_missing_child solid missingHere plain
  refine ⟨Path.render parts, ?_⟩
  have components : Path.components ⟨true, parts⟩ = parts :=
    components_of_notMem (by simp [parts, tail])
  have stripped : stripPrefix parts (ws.root.map .normal) = some (.normal missing :: tail) := by
    simp [stripPrefix, parts]
  rw [parsed]
  simp only [resolvePath, normalizeExistingAware, if_true, parts, ancestor,
    FileSystem.canonicalize_ofLocation solid]
  simp only [parts] at components stripped
  rw [components, components_ofLocation, stripped]
  simp [tail, pushComponent, foldl_pushComponent_normal]

/-- The guard contains every access exactly when no admitted path below the root
leads out of it through a link. -/
theorem guardContains_iff_noAdmittedEscape (ws : Workspace fs)
    (glob : String → String → Bool) :
    (∀ path write, ws.GuardContains glob path write) ↔ ws.NoAdmittedEscape glob := by
  constructor
  · intro contained relative admitted reached opened
    obtain ⟨left, walked⟩ := FileSystem.openLocation_eq_some opened
    have legal : ∀ name ∈ ws.root ++ relative, legalName name = true := by
      intro name member
      exact walked.legal (List.mem_map_of_mem member)
    obtain ⟨path, resolution⟩ := exists_resolvePath ws legal
    obtain ⟨resolved, same, stays⟩ := (contained path false).1 (canAccess_read resolution admitted)
    rw [resolution] at same
    cases same
    exact stays reached opened
  · intro safe path write
    constructor
    · intro granted
      obtain ⟨relative, resolution, admitted⟩ := canAccess_eq_true granted
      exact ⟨_, resolution, safe relative admitted⟩
    · intro resolved executed
      rw [CommandExecutor.resolveFilePath] at executed
      cases resolution : ws.resolvePath (.parse path) with
      | error error => simp [resolution] at executed
      | ok first =>
        simp only [resolution] at executed
        split at executed
        · cases executed
        · cases executed
        · next granted =>
            cases executed
            exact staysInside_of_canAccess safe granted

/-- `/ws` holds a link to a file of `/etc` that does not exist yet. -/
def danglingLinkTree : Tree :=
  .dir [("ws", .dir [("out", .link "/etc/new")]), ("etc", .dir [])]

def danglingLinkSystem : FileSystem where
  tree := danglingLinkTree
  cwd := []
  maxLinks := 40
  cwd_solid := .nil

theorem canonicalizeRoot_danglingLink :
    canonicalizeRoot danglingLinkSystem (.parse "/ws") = .ok ["ws"] := by
  decide

def danglingLinkWorkspace : Workspace danglingLinkSystem where
  config := { WorkspaceConfig.default with name := "ws", rootPath := .ofLocation ["ws"] }
  root := ["ws"]
  rootPath_eq := rfl
  canonical := ⟨.parse "/ws", canonicalizeRoot_danglingLink⟩

/-- The dangling link does not exist for the guard, so its parent is
canonicalized and its name appended; a write to it creates `/etc/new`. -/
theorem guardContains_dangling_link :
    Workspace.new danglingLinkSystem (.parse "/ws") = .ok danglingLinkWorkspace ∧
      danglingLinkWorkspace.canAccess (fun pattern _ => pattern = "**/*") (.parse "out") true =
        .ok true ∧
      ¬ danglingLinkWorkspace.GuardContains (fun pattern _ => pattern = "**/*") "out" true := by
  have resolved : danglingLinkWorkspace.resolvePath (.parse "out") = .ok ["ws", "out"] := by
    decide +kernel
  have granted : danglingLinkWorkspace.canAccess (fun pattern _ => pattern = "**/*")
      (.parse "out") true = .ok true := by
    decide +kernel
  refine ⟨?_, granted, ?_⟩
  · rw [Workspace.new]
    split
    · next failed =>
        rw [canonicalizeRoot_danglingLink] at failed
        cases failed
    · next root succeeded =>
        rw [canonicalizeRoot_danglingLink] at succeeded
        cases succeeded
        rfl
  · intro contains
    obtain ⟨location, same, stays⟩ := contains.1 granted
    rw [resolved] at same
    cases same
    have escape : danglingLinkWorkspace.root <+: ["etc", "new"] := stays _ (by decide)
    revert escape
    decide

end Workspace
end UHorse.Node
