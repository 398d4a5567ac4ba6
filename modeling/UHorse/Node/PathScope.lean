import UHorse.Lib.DescendingPath
import UHorse.Node.Permission

/-!
# Path-scoped rules and the paths a command touches

A rule under an exact path, a prefix or a glob looks at one path text of a
command as it is written. The executor resolves the text first, a copy or a move
has a second one, code is written to a file of the executor's own, and missing
directories above a written file are created. A rule therefore covers what a
command touches when it matches each of its paths and each of them leads from
the rule's path straight down: no `..`, no link, no end in the middle of a name.
-/

namespace UHorse.Node

open UHorse.Lib UHorse.Lib.Unix UHorse.Protocol

/-! ## What a command touches -/

/-- A path text the executor resolves, the access it asks the guard for, and whether it
creates the missing directories above the file. -/
structure Operand where
  path : String
  write : Bool
  createsParents : Bool

def absoluteText (loc : Location) : String :=
  if loc = [] then "/" else Path.render (loc.map .normal)

def relativeSpelling (names : Location) : String := Path.renderRelative (names.map .normal)

namespace Workspace

variable {fs : FileSystem} (ws : Workspace fs)

/-- `root_path.join(path)`, which an absolute path replaces. -/
def internalPath (path : String) : Path :=
  if (Path.parse path).absolute then .parse path else .join ws.root (.parse path)

end Workspace

namespace CommandExecutor

variable {fs : FileSystem} (ws : Workspace fs) (glob : String → String → Bool)

/-- The paths of a file command, in the order they are resolved. -/
def fileOperands : FileCommand → List Operand
  | .read path _ _ => [⟨path, false, false⟩]
  | .write path _ _ => [⟨path, true, true⟩]
  | .append path _ => [⟨path, true, true⟩]
  | .delete path _ => [⟨path, true, false⟩]
  | .list path _ _ => [⟨path, false, false⟩]
  | .search _ path _ _ => [⟨path, false, false⟩]
  | .copy source target _ => [⟨source, false, false⟩, ⟨target, true, true⟩]
  | .move source target _ => [⟨source, true, false⟩, ⟨target, true, true⟩]
  | .info path => [⟨path, false, false⟩]
  | .createDir path recursive => [⟨path, true, recursive⟩]
  | .exists path => [⟨path, false, false⟩]

def resolveExecutionDir (dir : Option String) : Except NodeError Location :=
  match dir.elim (.ok ws.root) (fun dir => ws.resolvePath (.parse dir)) with
  | .error error => .error (.workspace error)
  | .ok resolved =>
    match ws.canAccess glob (.ofLocation resolved) false with
    | .error error => .error (.workspace error)
    | .ok false => .error (.permission ("Working directory outside workspace: " ++
        absoluteText resolved))
    | .ok true => .ok resolved

/-- The extension of the file that code of the language is written to first. -/
def codeFileExtension : CodeLanguage → Option String
  | .python => some "py"
  | .javaScript => some "js"
  | .typeScript => some "ts"
  | _ => none

/-- The directory the process of a command is started in; `some none` is the root. -/
def executionDir : Command → Option (Option String)
  | .shell command => some command.cwd
  | .code command =>
    if (codeFileExtension command.language).isSome || command.language = .shell then
      some command.workdir
    else none
  | _ => none

/-- The file of a piece of code below the internal directory, as a text. -/
def codeFileText (internalWorkDir uuid extension : String) : String :=
  (if (Path.parse internalWorkDir).absolute then internalWorkDir
    else absoluteText ws.root ++ "/" ++ internalWorkDir) ++
    "/code-" ++ uuid ++ "." ++ extension

/-- The file the code of a command is written to first. -/
def codeFile (internalWorkDir uuid : String) : Command → Option Operand
  | .code command => (codeFileExtension command.language).map
      (fun extension => ⟨codeFileText ws internalWorkDir uuid extension, true, true⟩)
  | _ => none

def namedFiles : Command → List Operand
  | .file command => fileOperands command
  | _ => []

/-- Every path text of a command. -/
def operands (internalWorkDir uuid : String) (command : Command) : List Operand :=
  namedFiles command ++ (executionDir command).join.toList.map (fun dir => ⟨dir, false, false⟩) ++
    (codeFile ws internalWorkDir uuid command).toList

/-- The location itself and all below it, and the directories created above it. -/
def Reaches (fs : FileSystem) (operand : Operand) (target loc : Location) : Prop :=
  target <+: loc ∨ (operand.createsParents = true ∧ loc <+: target ∧ loc ≠ target ∧
    fs.pathExists (.ofLocation loc) = false)

/-- The executor reads or writes the location for the command. -/
inductive Touches (internalWorkDir uuid : String) : Command → Location → Prop
  | file {command : FileCommand} {operand : Operand} {target loc : Location} :
      operand ∈ fileOperands command →
      resolveFilePath ws glob operand.path operand.write = .ok target →
      Reaches fs operand target loc → Touches internalWorkDir uuid (.file command) loc
  | directory {command : Command} {dir : Option String} {loc : Location} :
      executionDir command = some dir → resolveExecutionDir ws glob dir = .ok loc →
      Touches internalWorkDir uuid command loc
  | codeFile {command : Command} {operand : Operand} {target loc : Location} :
      codeFile ws internalWorkDir uuid command = some operand →
      ws.canAccess glob (ws.internalPath internalWorkDir) true = .ok true →
      ws.resolvePath (.parse operand.path) = .ok target → Reaches fs operand target loc →
      Touches internalWorkDir uuid command loc

end CommandExecutor

/-! ## What a rule covers -/

/-- A pattern that is decided by exact paths, prefixes and globs. -/
inductive PathScoped : ResourcePattern → Prop
  | exactPath (path : String) : PathScoped (.exactPath path)
  | pathPrefix (value : String) : PathScoped (.pathPrefix value)
  | glob (pattern : String) : PathScoped (.glob pattern)
  | all {patterns : List ResourcePattern} :
      (∀ pattern ∈ patterns, PathScoped pattern) → PathScoped (.all patterns)
  | any {patterns : List ResourcePattern} :
      (∀ pattern ∈ patterns, PathScoped pattern) → PathScoped (.any patterns)

namespace Workspace

variable {fs : FileSystem} (ws : Workspace fs)

def absolutePath (path : Path) : Path := if path.absolute then path else .join ws.root path

/-- The directory a prefix stands for: a slash or a dot at its end is dropped. -/
def scopePath (value : String) : Path :=
  ⟨true, Path.trimEnd (ws.absolutePath (.parse value)).parts⟩

def scopeLocation (value : String) : Except WorkspaceError Location :=
  normalizeExistingAware fs (ws.scopePath value)

/-- The location is equal to, below, or matched by the pattern's path. -/
inductive Covers (glob : String → String → Bool) (loc : Location) : ResourcePattern → Prop
  | exactPath {path : String} {place : Location} :
      ws.resolvePath (.parse path) = .ok place → place <+: loc → Covers glob loc (.exactPath path)
  | pathPrefix {value : String} {place : Location} :
      ws.scopeLocation value = .ok place → place <+: loc → Covers glob loc (.pathPrefix value)
  | globAbsolute {pattern : String} {front : Location} :
      glob pattern (absoluteText front) = true → front <+: loc → Covers glob loc (.glob pattern)
  | globRelative {pattern : String} {names : Location} :
      glob pattern (relativeSpelling names) = true → ws.root ++ names <+: loc →
      Covers glob loc (.glob pattern)
  | all {patterns : List ResourcePattern} :
      (∀ pattern ∈ patterns, Covers glob loc pattern) → Covers glob loc (.all patterns)
  | any {patterns : List ResourcePattern} {pattern : ResourcePattern} :
      pattern ∈ patterns → Covers glob loc pattern → Covers glob loc (.any patterns)

/-! ## Paths that lead straight down -/

/-- The file exists or at least its directory does. -/
def DirectoryPresent (path : String) : Prop :=
  fs.pathExists (ws.absolutePath (.parse path)) = true ∨
    ∃ above, (ws.absolutePath (.parse path)).parent? = some above ∧ fs.pathExists above = true

/-- The path goes on where the prefix ends: with whole names, no `..`, and no link below
the prefix. -/
def Continues (value path : String) : Prop :=
  ∃ rest place, (ws.absolutePath (.parse path)).parts = (ws.scopePath value).parts ++ rest ∧
    Descending rest ∧ ws.scopeLocation value = .ok place ∧
    LinkFree fs.tree place (namesOf rest) ∧
    (namesOf rest ≠ [] ∨ rest = [] ∨ fs.pathExists (ws.absolutePath (.parse path)) = true)

/-- The text spells a location out, and there is no link on the way to it. -/
def SpelledOut (path : String) : Prop :=
  ∃ names, names ≠ [] ∧ (∀ name ∈ names, legalName name = true) ∧
    (path = absoluteText names ∧ LinkFree fs.tree [] names ∨
      path = relativeSpelling names ∧ LinkFree fs.tree ws.root names)

/-- What a pattern asks of a path it matches in order to cover it. -/
def Straight (operand : Operand) : ResourcePattern → Prop
  | .exactPath _ => operand.createsParents = true → ws.DirectoryPresent operand.path
  | .pathPrefix value => ws.Continues value operand.path ∧
      (operand.createsParents = true →
        fs.pathExists (ws.scopePath value) = true ∨ ws.DirectoryPresent operand.path)
  | .glob _ => ws.SpelledOut operand.path ∧
      (operand.createsParents = true → ws.DirectoryPresent operand.path)
  | _ => True

end Workspace

/-- A pattern that occurs in another one. -/
inductive PartOf : ResourcePattern → ResourcePattern → Prop
  | self {pattern : ResourcePattern} : PartOf pattern pattern
  | all {leaf pattern : ResourcePattern} {patterns : List ResourcePattern} :
      pattern ∈ patterns → PartOf leaf pattern → PartOf leaf (.all patterns)
  | any {leaf pattern : ResourcePattern} {patterns : List ResourcePattern} :
      pattern ∈ patterns → PartOf leaf pattern → PartOf leaf (.any patterns)

/-- The pattern matches the path text, as it would be the path of a file command. -/
def MatchesPath (env : CheckEnv) (pattern : ResourcePattern) (path : String) : Prop :=
  pattern.matchesCommand env (.file (.exists path)) = true

/-- The rule matches every path of the command, also those a check does not look at, and
each of them leads straight down from every part of the rule that matches it. -/
structure StraightFrom {fs : FileSystem} (ws : Workspace fs) (env : CheckEnv)
    (internalWorkDir uuid : String) (command : Command) (pattern : ResourcePattern) : Prop where
  others : ∀ operand ∈ CommandExecutor.operands ws internalWorkDir uuid command,
    ResourcePattern.commandPath command ≠ some operand.path → MatchesPath env pattern operand.path
  straight : ∀ operand ∈ CommandExecutor.operands ws internalWorkDir uuid command,
    ∀ part, PartOf part pattern → MatchesPath env part operand.path → ws.Straight operand part

/-- The command is allowed, and this rule decided it. -/
structure AllowedBy (manager : PermissionManager) (env : CheckEnv) (command : Command)
    (context : TaskContext) (rule : PermissionRule) : Prop where
  allowed : manager.check env command context = .allowed
  decided : manager.rules.find? (fun rule => rule.matchesCommand env command context) = some rule

/-! ## Where straight paths lead -/

namespace Workspace

variable {fs : FileSystem}

/-- A path that exists is normalized to the place it names. -/
theorem normalizeExistingAware_of_exists {path : Path} {loc : Location}
    (found : fs.canonicalize path = some loc) : normalizeExistingAware fs path = .ok loc := by
  have present : fs.pathExists path = true := by simp [FileSystem.pathExists, found]
  simp [normalizeExistingAware, existingAncestor_of_exists present, found, stripPrefix]

variable {path : Path} {pattern : ResourcePattern}

theorem normalizeExistingAware_eq_ok {loc : Location} :
    normalizeExistingAware fs path = .ok loc ↔ ∃ ancestor normalized remainder,
      existingAncestor fs path = some ancestor ∧ fs.canonicalize ancestor = some normalized ∧
        path.components = ancestor.components ++ remainder ∧
        loc = remainder.foldl pushComponent normalized := by
  rw [normalizeExistingAware]
  constructor
  · intro resolved
    cases found : existingAncestor fs path with
    | none => simp [found] at resolved
    | some ancestor =>
      simp only [found] at resolved
      cases canonical : fs.canonicalize ancestor with
      | none => simp [canonical] at resolved
      | some normalized =>
        simp only [canonical] at resolved
        cases stripped : stripPrefix path.components ancestor.components with
        | none => simp [stripped] at resolved
        | some remainder =>
          simp only [stripped, Except.ok.injEq] at resolved
          exact ⟨ancestor, normalized, remainder, rfl, canonical,
            stripPrefix_eq_some.mp stripped, resolved.symm⟩
  · rintro ⟨ancestor, normalized, remainder, found, canonical, components, rfl⟩
    simp [found, canonical, stripPrefix_eq_some.mpr components]

/-- The last component of a missing path is put after whatever its parent is normalized to. -/
theorem normalizeExistingAware_of_missing {above : Path} {part : Component} {loc : Location}
    (missing : fs.pathExists path = false) (up : path.parent? = some above)
    (components : path.components = above.components ++ [part])
    (resolved : normalizeExistingAware fs above = .ok loc) :
    normalizeExistingAware fs path = .ok (pushComponent loc part) := by
  have searched : existingAncestor fs path = existingAncestor fs above := by
    rw [existingAncestor_of_missing missing, up, Option.bind_some]
  obtain ⟨ancestor, normalized, remainder, found, canonical, split, rfl⟩ :=
    normalizeExistingAware_eq_ok.mp resolved
  apply normalizeExistingAware_eq_ok.mpr
  refine ⟨ancestor, normalized, remainder ++ [part], searched.trans found, canonical, ?_, ?_⟩
  · rw [components, split, List.append_assoc]
  · rw [List.foldl_append]
    rfl

/-- Names below a path are put after whatever the path is normalized to, as long as no link
is met on the way down. -/
theorem normalizeExistingAware_descending {base rest : List Component} {loc : Location}
    (trimmed : Path.trimEnd base = base)
    (resolved : normalizeExistingAware fs ⟨true, base⟩ = .ok loc) (descending : Descending rest)
    (free : LinkFree fs.tree loc (namesOf rest))
    (reaches : namesOf rest ≠ [] ∨ rest = [] ∨ fs.pathExists ⟨true, base ++ rest⟩ = true) :
    normalizeExistingAware fs ⟨true, base ++ rest⟩ = .ok (loc ++ namesOf rest) := by
  induction size : rest.length using Nat.strong_induction_on generalizing rest with
  | _ n ih =>
    subst size
    cases found : fs.canonicalize ⟨true, base ++ rest⟩ with
    | some finish =>
      -- The walk passes the place of the base and goes down from there.
      obtain ⟨left, walked⟩ := FileSystem.canonicalize_eq_some found
      have whole := walked.eq_some
      rw [walk_append] at whole
      obtain ⟨⟨between, middle⟩, first, second⟩ := Option.bind_eq_some_iff.mp whole
      have reached : fs.canonicalize ⟨true, base⟩ = some middle := by
        simp only [FileSystem.canonicalize]
        have start : fs.start ⟨true, base⟩ = fs.start ⟨true, base ++ rest⟩ := rfl
        rw [start, first, Option.map_some]
      have same := normalizeExistingAware_of_exists reached
      rw [resolved] at same
      cases same
      rw [normalizeExistingAware_of_exists found,
        (Walks.of_eq_some second).eq_append_of_linkFree descending free]
    | none =>
      have missing : fs.pathExists ⟨true, base ++ rest⟩ = false := by
        simp [FileSystem.pathExists, found]
      by_cases named : namesOf rest = []
      · have empty : rest = [] := by
          obtain some | empty | present := reaches
          · exact absurd named some
          · exact empty
          · rw [missing] at present
            cases present
        subst empty
        simpa using resolved
      · obtain ⟨front, name, last⟩ := Path.exists_last_name descending named
        have names : namesOf rest = namesOf (Path.trimEnd front) ++ [name] := by
          rw [← Path.namesOf_trimEnd rest, last, Path.namesOf_trimEnd, namesOf_append]
          rfl
        have down : Descending front := by
          have whole := Path.trimEnd_descending descending
          rw [last] at whole
          exact whole.left
        have above : normalizeExistingAware fs ⟨true, base ++ Path.trimEnd front⟩ =
            .ok (loc ++ namesOf (Path.trimEnd front)) := by
          apply ih (Path.trimEnd front).length _ (Path.trimEnd_descending down) _ _ rfl
          · have shorter := Path.length_trimEnd_le front
            have longer := congrArg List.length last
            have bound := Path.length_trimEnd_le rest
            simp only [List.length_append, List.length_singleton] at longer
            omega
          · rw [names] at free
            exact free.left
          · by_cases nameless : namesOf front = []
            · exact .inr (.inl (Path.trimEnd_eq_nil down nameless))
            · exact .inl (by rwa [Path.namesOf_trimEnd])
        have components : Path.components ⟨true, base ++ rest⟩ =
            Path.components ⟨true, base ++ Path.trimEnd front⟩ ++ [.normal name] := by
          simp only [Path.components, List.filter_append, Path.filter_trimEnd]
          rw [← Path.filter_trimEnd rest, last, List.filter_append]
          simp
        rw [normalizeExistingAware_of_missing missing (Path.parent?_append trimmed last)
          components above, names]
        simp [pushComponent]

/-- Above a file whose directory exists, nothing is missing. -/
theorem exists_above {loc front : Location} (absolute : path.absolute = true)
    (present : fs.pathExists path = true ∨
      ∃ above, path.parent? = some above ∧ fs.pathExists above = true)
    (resolved : normalizeExistingAware fs path = .ok loc) (isPrefix : front <+: loc)
    (proper : front ≠ loc) : fs.pathExists (.ofLocation front) = true := by
  have solid_exists : Solid fs.tree front → fs.pathExists (.ofLocation front) = true := by
    intro solid
    simp [FileSystem.pathExists, FileSystem.canonicalize_ofLocation solid]
  cases found : fs.canonicalize path with
  | some finish =>
    rw [normalizeExistingAware_of_exists found] at resolved
    cases resolved
    exact solid_exists ((FileSystem.canonicalize_solid found).of_isPrefix isPrefix)
  | none =>
    have missing : fs.pathExists path = false := by simp [FileSystem.pathExists, found]
    obtain here | ⟨above, up, here⟩ := present
    · rw [missing] at here
      cases here
    · obtain ⟨_, part, plain, components⟩ := Path.components_parent? absolute up
      obtain ⟨directory, canonical⟩ := Option.isSome_iff_exists.mp here
      have solid := FileSystem.canonicalize_solid canonical
      rw [normalizeExistingAware_of_missing missing up components
        (normalizeExistingAware_of_exists canonical)] at resolved
      cases resolved
      cases part with
      | curDir => exact absurd rfl plain
      | parentDir =>
        exact solid_exists (solid.of_isPrefix (isPrefix.trans (List.dropLast_prefix _)))
      | normal name =>
        obtain same | below := List.prefix_concat_iff.mp isPrefix
        · exact absurd same proper
        · exact solid_exists (solid.of_isPrefix below)

variable {ws : Workspace fs} {env : CheckEnv} {operand : Operand} {target loc : Location}

theorem absolutePath_absolute (path : Path) : (ws.absolutePath path).absolute = true := by
  rw [absolutePath]
  split
  · assumption
  · rfl

theorem exists_above_of_directoryPresent {path : String}
    (resolved : ws.resolvePath (.parse path) = .ok target) (present : ws.DirectoryPresent path)
    (isPrefix : loc <+: target) (proper : loc ≠ target) :
    fs.pathExists (.ofLocation loc) = true :=
  exists_above (absolutePath_absolute _) present resolved isPrefix proper

/-- With the directory of a written file present, only what lies below is reached. -/
theorem isPrefix_of_reaches (resolved : ws.resolvePath (.parse operand.path) = .ok target)
    (present : operand.createsParents = true → ws.DirectoryPresent operand.path)
    (reached : CommandExecutor.Reaches fs operand target loc) : target <+: loc := by
  obtain below | ⟨creates, above, proper, missing⟩ := reached
  · exact below
  · have exists' := exists_above_of_directoryPresent resolved (present creates) above proper
    rw [missing] at exists'
    cases exists'

/-- A path that continues a prefix resolves to a place below the prefix. -/
theorem resolvePath_of_continues {value path : String} (continues : ws.Continues value path) :
    ∃ place names, ws.scopeLocation value = .ok place ∧
      ws.resolvePath (.parse path) = .ok (place ++ names) := by
  obtain ⟨rest, place, parts, descending, scope, free, reaches⟩ := continues
  have whole : ws.absolutePath (.parse path) = ⟨true, (ws.scopePath value).parts ++ rest⟩ := by
    have absolute : (ws.absolutePath (.parse path)).absolute = true := absolutePath_absolute _
    cases shape : ws.absolutePath (.parse path) with
    | mk flag texts =>
      rw [shape] at absolute parts
      obtain rfl : flag = true := absolute
      exact congrArg (Unix.Path.mk true) parts
  refine ⟨place, namesOf rest, scope, ?_⟩
  rw [whole] at reaches
  have resolved := normalizeExistingAware_descending (Path.trimEnd_trimEnd _) scope descending
    free reaches
  have same : ws.resolvePath (.parse path) =
      normalizeExistingAware fs (ws.absolutePath (.parse path)) := rfl
  rw [same, whole]
  exact resolved

theorem covers_pathPrefix {glob : String → String → Bool} {value : String}
    (continues : ws.Continues value operand.path)
    (room : operand.createsParents = true →
      fs.pathExists (ws.scopePath value) = true ∨ ws.DirectoryPresent operand.path)
    (resolved : ws.resolvePath (.parse operand.path) = .ok target)
    (reached : CommandExecutor.Reaches fs operand target loc) :
    ws.Covers glob loc (.pathPrefix value) := by
  obtain ⟨place, names, scope, below⟩ := resolvePath_of_continues continues
  rw [resolved] at below
  cases below
  apply Covers.pathPrefix scope
  obtain under | ⟨creates, above, proper, missing⟩ := reached
  · exact (List.prefix_append place names).trans under
  · obtain anchored | present := room creates
    · -- What is missing above the file is not above the directory of the rule.
      obtain ⟨canonical, found⟩ := Option.isSome_iff_exists.mp anchored
      have same := normalizeExistingAware_of_exists found
      rw [show normalizeExistingAware fs (ws.scopePath value) = .ok place from scope] at same
      cases same
      obtain outside | inside := List.prefix_or_prefix_of_prefix above
        (List.prefix_append place names)
      · have solid := (FileSystem.canonicalize_solid found).of_isPrefix outside
        simp [FileSystem.pathExists, FileSystem.canonicalize_ofLocation solid] at missing
      · exact inside
    · have exists' := exists_above_of_directoryPresent resolved present above proper
      rw [missing] at exists'
      cases exists'

theorem parse_absoluteText {names : Location} (nonempty : names ≠ [])
    (legal : ∀ name ∈ names, legalName name = true) :
    Path.parse (absoluteText names) = ⟨true, names.map .normal⟩ := by
  rw [absoluteText, if_neg nonempty]
  apply Path.parse_render (by simpa using nonempty)
  intro part member
  obtain ⟨name, inside, rfl⟩ := List.mem_map.mp member
  exact legal name inside

theorem parse_relativeSpelling {names : Location} (nonempty : names ≠ [])
    (legal : ∀ name ∈ names, legalName name = true) :
    Path.parse (relativeSpelling names) = ⟨false, names.map .normal⟩ := by
  apply Path.parse_renderRelative (by simpa using nonempty)
  intro part member
  obtain ⟨name, inside, rfl⟩ := List.mem_map.mp member
  exact legal name inside

theorem covers_glob {glob : String → String → Bool} {pattern : String}
    (matched : glob pattern operand.path = true) (spelled : ws.SpelledOut operand.path)
    (resolved : ws.resolvePath (.parse operand.path) = .ok target) (below : target <+: loc) :
    ws.Covers glob loc (.glob pattern) := by
  obtain ⟨names, nonempty, legal, ⟨same, free⟩ | ⟨same, free⟩⟩ := spelled
  · rw [same] at matched resolved
    have top : normalizeExistingAware fs ⟨true, []⟩ = .ok [] :=
      normalizeExistingAware_of_exists (by simp [FileSystem.canonicalize, FileSystem.start])
    have whole := normalizeExistingAware_descending rfl top (descending_map_normal names)
      (by simpa using free) (.inl (by simpa using nonempty))
    simp only [resolvePath, parse_absoluteText nonempty legal, if_true] at resolved
    simp only [List.nil_append, namesOf_map_normal, resolved, Except.ok.injEq] at whole
    exact .globAbsolute matched (whole ▸ below)
  · rw [same] at matched resolved
    have plain : Component.curDir ∉ ws.root.map Component.normal := Path.curDir_notMem_normal _
    have whole := normalizeExistingAware_descending (Path.trimEnd_of_notMem plain)
      (normalizeExistingAware_of_exists (FileSystem.canonicalize_ofLocation (root_solid ws)))
      (descending_map_normal names) (by simpa using free) (.inl (by simpa using nonempty))
    simp only [resolvePath, parse_relativeSpelling nonempty legal, Bool.false_eq_true, if_false,
      Path.join] at resolved
    rw [resolved, namesOf_map_normal, Except.ok.injEq] at whole
    exact .globRelative matched (whole ▸ below)

/-! ## From the parts of a rule to the rule -/

/-- A rule covers what each of its matching parts covers. -/
theorem covers_of_parts {path : String} (kind : PathScoped pattern)
    (matched : MatchesPath env pattern path)
    (parts : ∀ part, PathScoped part → PartOf part pattern → MatchesPath env part path →
      (∀ patterns, part ≠ .all patterns ∧ part ≠ .any patterns) →
      ws.Covers env.globMatch loc part) : ws.Covers env.globMatch loc pattern := by
  induction kind with
  | exactPath path => exact parts _ (.exactPath path) .self matched (by simp)
  | pathPrefix value => exact parts _ (.pathPrefix value) .self matched (by simp)
  | glob pattern => exact parts _ (.glob pattern) .self matched (by simp)
  | all _ ih =>
    refine .all fun pattern member => ?_
    have each : MatchesPath env pattern path := by
      rw [MatchesPath, ResourcePattern.matchesCommand] at matched
      exact ResourcePattern.matchesAll_iff.mp matched pattern member
    exact ih pattern member each fun part kind within => parts part kind (.all member within)
  | any _ ih =>
    rw [MatchesPath, ResourcePattern.matchesCommand] at matched
    obtain ⟨pattern, member, each⟩ := ResourcePattern.matchesAny_iff.mp matched
    refine .any member ?_
    exact ih pattern member each fun part kind within => parts part kind (.any member within)

/-- A rule that matches a command without any path restricts no path. -/
theorem covers_of_pathless {command : Command} (kind : PathScoped pattern)
    (pathless : ResourcePattern.commandPath command = none)
    (matched : pattern.matchesCommand env command = true) :
    ws.Covers env.globMatch loc pattern := by
  have unnamed : ResourcePattern.filePath command = none := by
    cases command with
    | file command => cases pathless
    | _ => rfl
  induction kind with
  | exactPath path => simp [ResourcePattern.matchesCommand, pathless] at matched
  | pathPrefix value => simp [ResourcePattern.matchesCommand, pathless] at matched
  | glob pattern => simp [ResourcePattern.matchesCommand, unnamed] at matched
  | all _ ih =>
    rw [ResourcePattern.matchesCommand] at matched
    exact .all fun pattern member =>
      ih pattern member (ResourcePattern.matchesAll_iff.mp matched pattern member)
  | any _ ih =>
    rw [ResourcePattern.matchesCommand] at matched
    obtain ⟨pattern, member, each⟩ := ResourcePattern.matchesAny_iff.mp matched
    exact .any member (ih pattern member each)

/-- What matches a command matches the path a check looks at. -/
theorem matchesPath_of_matchesCommand {command : Command} {path : String}
    (kind : PathScoped pattern) (named : ResourcePattern.commandPath command = some path)
    (matched : pattern.matchesCommand env command = true) : MatchesPath env pattern path := by
  have atMost : ∀ found, ResourcePattern.filePath command = some found → found = path := by
    cases command with
    | file command =>
      intro found same
      have whole := named.symm.trans same
      exact (Option.some.inj whole).symm
    | _ =>
      intro found same
      cases same
  rw [MatchesPath]
  induction kind with
  | exactPath path =>
    unfold ResourcePattern.matchesCommand at matched ⊢
    rw [named] at matched
    exact matched
  | pathPrefix value =>
    unfold ResourcePattern.matchesCommand at matched ⊢
    rw [named] at matched
    exact matched
  | glob pattern =>
    rw [ResourcePattern.matchesCommand] at matched
    obtain ⟨found, same, accepted⟩ := Option.any_eq_true _ _ |>.mp matched
    rw [atMost found same] at accepted
    simpa [ResourcePattern.matchesCommand, ResourcePattern.filePath,
      FileCommand.targetPath] using accepted
  | all _ ih =>
    unfold ResourcePattern.matchesCommand at matched ⊢
    apply ResourcePattern.matchesAll_iff.mpr
    intro pattern member
    exact ih pattern member (ResourcePattern.matchesAll_iff.mp matched pattern member)
  | any _ ih =>
    unfold ResourcePattern.matchesCommand at matched ⊢
    obtain ⟨pattern, member, each⟩ := ResourcePattern.matchesAny_iff.mp matched
    exact ResourcePattern.matchesAny_iff.mpr ⟨pattern, member, ih pattern member each⟩

/-- A path that leads straight down from the parts of a rule that match it is covered, with
all that is reached through it. -/
theorem covers_operand (kind : PathScoped pattern) (matched : MatchesPath env pattern operand.path)
    (straight : ∀ part, PartOf part pattern → MatchesPath env part operand.path →
      ws.Straight operand part) (resolved : ws.resolvePath (.parse operand.path) = .ok target)
    (reached : CommandExecutor.Reaches fs operand target loc) :
    ws.Covers env.globMatch loc pattern := by
  apply covers_of_parts kind matched
  intro part kind within each single
  have leads := straight part within each
  cases kind with
  | exactPath path =>
    have same : operand.path = path := by
      simpa [MatchesPath, ResourcePattern.matchesCommand, ResourcePattern.commandPath,
        FileCommand.targetPath] using each
    exact .exactPath (same ▸ resolved) (isPrefix_of_reaches resolved leads reached)
  | pathPrefix value => exact covers_pathPrefix leads.1 leads.2 resolved reached
  | glob pattern =>
    have accepted : env.globMatch pattern operand.path = true := by
      simpa [MatchesPath, ResourcePattern.matchesCommand, ResourcePattern.filePath,
        FileCommand.targetPath] using each
    exact covers_glob accepted leads.1 resolved (isPrefix_of_reaches resolved leads.2 reached)
  | all _ => exact absurd rfl (single _).1
  | any _ => exact absurd rfl (single _).2

end Workspace

/-! ## Allowed commands -/

section Allowed

open CommandExecutor

variable {fs : FileSystem} {ws : Workspace fs} {env : CheckEnv} {internalWorkDir uuid : String}
  {command : Command} {loc : Location}

variable {glob : String → String → Bool}

theorem resolvePath_of_resolveFilePath {path : String} {write : Bool} {target : Location}
    (resolved : resolveFilePath ws glob path write = .ok target) :
    ws.resolvePath (.parse path) = .ok target := by
  rw [resolveFilePath] at resolved
  cases found : ws.resolvePath (.parse path) with
  | error error => simp [found] at resolved
  | ok first =>
    simp only [found] at resolved
    split at resolved
    · cases resolved
    · cases resolved
    · rw [Except.ok.inj resolved]

theorem resolvePath_of_resolveExecutionDir {dir : String} {target : Location}
    (resolved : resolveExecutionDir ws glob (some dir) = .ok target) :
    ws.resolvePath (.parse dir) = .ok target := by
  rw [resolveExecutionDir] at resolved
  cases found : ws.resolvePath (.parse dir) with
  | error error => simp [found] at resolved
  | ok first =>
    simp only [Option.elim_some, found] at resolved
    split at resolved
    · cases resolved
    · cases resolved
    · rw [Except.ok.inj resolved]

/-- Everything that is touched is reached through one of the paths, unless the command runs
in the root without naming it. -/
theorem operand_of_touches (touched : Touches ws glob internalWorkDir uuid command loc) :
    ResourcePattern.commandPath command = none ∨
      ∃ operand ∈ operands ws internalWorkDir uuid command, ∃ target,
        ws.resolvePath (.parse operand.path) = .ok target ∧ Reaches fs operand target loc := by
  cases touched with
  | file member resolved reached =>
    refine .inr ⟨_, ?_, _, resolvePath_of_resolveFilePath resolved, reached⟩
    exact List.mem_append_left _ (List.mem_append_left _ member)
  | @directory _ dir _ directory resolved =>
    cases dir with
    | none =>
      refine .inl ?_
      cases command with
      | shell command => exact Option.some.inj directory
      | code command =>
        simp only [executionDir] at directory
        split at directory
        · exact Option.some.inj directory
        · cases directory
      | _ => cases directory
    | some dir =>
      refine .inr ⟨⟨dir, false, false⟩, ?_, loc, resolvePath_of_resolveExecutionDir resolved,
        .inl (List.prefix_refl loc)⟩
      rw [operands]
      rw [directory]
      exact List.mem_append_left _ (List.mem_append_right _ List.mem_cons_self)
  | codeFile file _ resolved reached =>
    refine .inr ⟨_, ?_, _, resolved, reached⟩
    rw [operands]
    rw [file]
    exact List.mem_append_right _ List.mem_cons_self

/-- A path-scoped rule that allows a command covers every path it touches, if the rule
matches each of them and they lead straight down from it. -/
theorem allowed_covers_touched {manager : PermissionManager} {context : TaskContext}
    {rule : PermissionRule} (allowed : AllowedBy manager env command context rule)
    (kind : PathScoped rule.resource)
    (straight : StraightFrom ws env internalWorkDir uuid command rule.resource) :
    ∀ loc, Touches ws env.globMatch internalWorkDir uuid command loc →
      ws.Covers env.globMatch loc rule.resource := by
  intro loc touched
  have decided := List.find?_some allowed.decided
  obtain ⟨-, matched, -⟩ := PermissionRule.matchesCommand_iff.mp decided
  obtain pathless | ⟨operand, member, target, resolved, reached⟩ := operand_of_touches touched
  · exact Workspace.covers_of_pathless kind pathless matched
  · have each : MatchesPath env rule.resource operand.path := by
      by_cases looked : ResourcePattern.commandPath command = some operand.path
      · exact Workspace.matchesPath_of_matchesCommand kind looked matched
      · exact straight.others operand member looked
    exact Workspace.covers_operand kind each (straight.straight operand member) resolved reached

end Allowed

/-! ## Two copies -/

section Documents

open CommandExecutor

/-- `/ws` holds a directory with one document. -/
def documentsSystem : FileSystem where
  tree := .dir [("ws", .dir [("docs", .dir [("a", .file)])])]
  cwd := []
  maxLinks := 40
  cwd_solid := .nil

theorem documents_canonical :
    ∃ path, Workspace.canonicalizeRoot documentsSystem path = .ok ["ws"] :=
  ⟨.parse "/ws", by decide⟩

theorem documents_rootPath :
    ({ WorkspaceConfig.default with name := "ws", rootPath := .ofLocation ["ws"] } :
      WorkspaceConfig).rootPath = .ofLocation ["ws"] := rfl

def documentsWorkspace : Workspace documentsSystem where
  config := { WorkspaceConfig.default with name := "ws", rootPath := .ofLocation ["ws"] }
  root := ["ws"]
  rootPath_eq := documents_rootPath
  canonical := documents_canonical

/-- What a check reads of a workspace with these patterns. -/
def documentsEnv : CheckEnv where
  now := 0
  globMatch pattern _ := pattern = "**/*"
  toLowercase text := text
  canAccess path write := (documentsWorkspace.canAccess (fun pattern _ => pattern = "**/*")
    (.parse path) write).mapError (fun _ => "Failed to resolve path")
  root := absoluteText documentsWorkspace.root
  requestId := "request"

/-- Documents may be read and written. -/
def documentsRule : PermissionRule :=
  { PermissionRule.new "docs" "Documents" with
    resource := .pathPrefix "/ws/docs"
    actions := [.read, .write] }

def documentsManager : PermissionManager :=
  (PermissionManager.new true).addRule documentsRule

def documentsContext : TaskContext := .new ⟨"user"⟩ ⟨"session"⟩ "dingtalk" 0

def copyTo (target : String) : Command := .file (.copy "/ws/docs/a" target false)

theorem allowed_copyTo {target : String}
    (inside : PermissionManager.checkWorkspace documentsEnv (copyTo target) = none) :
    AllowedBy documentsManager documentsEnv (copyTo target) documentsContext documentsRule := by
  have matched : documentsRule.matchesCommand documentsEnv (copyTo target) documentsContext =
      true := by
    apply PermissionRule.matchesCommand_iff.mpr
    have resource : documentsRule.resource.matchesCommand documentsEnv (copyTo target) = true := by
      have starts : startsWith "/ws/docs/a" "/ws/docs" = true := by decide
      simpa [documentsRule, copyTo, ResourcePattern.matchesCommand, ResourcePattern.commandPath,
        FileCommand.targetPath] using starts
    refine ⟨rfl, resource, ?_, by simp [documentsRule, PermissionRule.new]⟩
    simp [copyTo, PermissionRule.getRequiredActions, documentsRule]
  have decided : documentsManager.rules.find? (fun rule =>
      rule.matchesCommand documentsEnv (copyTo target) documentsContext) = some documentsRule := by
    have rules : documentsManager.rules = [documentsRule] := by
      simp [documentsManager, PermissionManager.addRule, PermissionManager.new,
        PermissionManager.sortRules]
    rw [rules]
    simp only [List.find?_cons, matched]
  refine ⟨?_, decided⟩
  rw [PermissionManager.check]
  rw [inside, decided]
  rfl

theorem scopeLocation_documents :
    documentsWorkspace.scopeLocation "/ws/docs" = .ok ["ws", "docs"] := by
  decide +kernel

theorem continues_documents {name : String} (legal : Path.parse ("/ws/docs/" ++ name) =
      ⟨true, [.normal "ws", .normal "docs", .normal name]⟩)
    (free : ∀ target, documentsSystem.tree.find? ["ws", "docs", name] ≠ some (.link target)) :
    documentsWorkspace.Continues "/ws/docs" ("/ws/docs/" ++ name) := by
  refine ⟨[.normal name], ["ws", "docs"], ?_, by simp [Descending], scopeLocation_documents,
    .singleton free, .inl (by simp)⟩
  rw [legal]
  have scope : documentsWorkspace.scopePath "/ws/docs" =
      ⟨true, [.normal "ws", .normal "docs"]⟩ := by
    decide
  rw [scope]
  rfl

/-- A copy within the documents stays there. -/
theorem allowed_covers_touched_within :
    Touches documentsWorkspace documentsEnv.globMatch ".uhorse" "0" (copyTo "/ws/docs/b")
        ["ws", "docs", "b"] ∧
      documentsWorkspace.Covers documentsEnv.globMatch ["ws", "docs", "b"]
        documentsRule.resource := by
  have straight : ∀ operand ∈ operands documentsWorkspace ".uhorse" "0" (copyTo "/ws/docs/b"),
      MatchesPath documentsEnv documentsRule.resource operand.path ∧
        documentsWorkspace.Straight operand documentsRule.resource := by
    intro operand member
    have named : operand = ⟨"/ws/docs/a", false, false⟩ ∨ operand = ⟨"/ws/docs/b", true, true⟩ := by
      simpa [operands, namedFiles, fileOperands, copyTo, executionDir, codeFile] using member
    have present : documentsSystem.pathExists (documentsWorkspace.scopePath "/ws/docs") = true := by
      decide
    obtain rfl | rfl := named
    · exact ⟨by unfold MatchesPath; decide,
        @continues_documents "a" (by decide) (fun _ found => by cases found),
        fun _ => .inl present⟩
    · exact ⟨by unfold MatchesPath; decide,
        @continues_documents "b" (by decide) (fun _ found => by cases found),
        fun _ => .inl present⟩
  have touched : Touches documentsWorkspace documentsEnv.globMatch ".uhorse" "0"
      (copyTo "/ws/docs/b") ["ws", "docs", "b"] := by
    have second : (⟨"/ws/docs/b", true, true⟩ : Operand) ∈
        fileOperands (.copy "/ws/docs/a" "/ws/docs/b" false) := by
      simp [fileOperands]
    have resolved : resolveFilePath documentsWorkspace documentsEnv.globMatch "/ws/docs/b" true =
        .ok ["ws", "docs", "b"] := by
      decide +kernel
    exact .file second resolved (.inl (List.prefix_refl _))
  refine ⟨touched, allowed_covers_touched (allowed_copyTo (by decide +kernel))
    (.pathPrefix "/ws/docs") ⟨fun operand member _ => (straight operand member).1, ?_⟩ _ touched⟩
  intro operand member part within _
  cases within
  exact (straight operand member).2

/-- A copy out of the documents is allowed by the rule for documents. -/
theorem allowed_touches_uncovered :
    AllowedBy documentsManager documentsEnv (copyTo "/ws/secret") documentsContext documentsRule ∧
      PathScoped documentsRule.resource ∧
      Touches documentsWorkspace documentsEnv.globMatch ".uhorse" "0" (copyTo "/ws/secret")
        ["ws", "secret"] ∧
      ¬ documentsWorkspace.Covers documentsEnv.globMatch ["ws", "secret"]
        documentsRule.resource := by
  refine ⟨allowed_copyTo (by decide +kernel), .pathPrefix "/ws/docs", ?_, ?_⟩
  · have second : (⟨"/ws/secret", true, true⟩ : Operand) ∈
        fileOperands (.copy "/ws/docs/a" "/ws/secret" false) := by
      simp [fileOperands]
    have resolved : resolveFilePath documentsWorkspace documentsEnv.globMatch "/ws/secret" true =
        .ok ["ws", "secret"] := by
      decide +kernel
    exact .file second resolved (.inl (List.prefix_refl _))
  · intro covered
    cases covered with
    | pathPrefix scope below =>
      rw [scopeLocation_documents] at scope
      cases scope
      revert below
      decide

end Documents

end UHorse.Node
