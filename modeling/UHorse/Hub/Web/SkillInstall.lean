import UHorse.Agent.SessionKey
import UHorse.Lib.FileProcedure

/-!
# Installing skills

A skill is fetched as an archive, unpacked in a temporary directory, moved to the directory of the
skills of its layer and then completed: its Python dependencies are installed, a missing
`skill.toml` is written and the skills are loaded again.

How each operation of the system ends is left to the environment, as are the archive libraries and
the Python tools. Archives bring no links, and entry names are texts.
-/

namespace UHorse.Hub.Web.SkillInstall

open UHorse.Agent UHorse.Lib.Unix

/-! ## Requests -/

inductive SkillInstallSourceType
  | skillhub
  | dingtalkAttachment

def SkillInstallSourceType.label : SkillInstallSourceType → String
  | .skillhub => "skillhub"
  | .dingtalkAttachment => "dingtalk_attachment"

inductive SkillInstallTargetLayer
  | global
  | user

def SkillInstallTargetLayer.label : SkillInstallTargetLayer → String
  | .global => "global"
  | .user => "user"

structure SkillInstallRequest where
  sourceType : SkillInstallSourceType
  package : String
  version : Option String
  targetLayer : SkillInstallTargetLayer
  targetScope : Option String
  attachmentDownloadCode : Option String

structure SkillInstallActor where
  channel : String
  senderUserId : Option String
  senderStaffId : Option String
  senderCorpId : Option String

structure DingTalkSkillInstaller where
  userId : Option String
  staffId : Option String
  corpId : Option String

structure SkillInstallResponse where
  skillName : String
  sourceType : String
  package : String
  version : Option String
  targetLayer : String
  targetScope : Option String

def DingTalkSkillInstaller.admits (installer : DingTalkSkillInstaller)
    (actor : SkillInstallActor) : Bool :=
  installer.corpId.all (fun corpId => actor.senderCorpId = some corpId) &&
    (installer.userId.any (fun userId => actor.senderUserId = some userId) ||
      installer.staffId.any fun staffId => actor.senderStaffId = some staffId)

def actorCanInstallSkill (installers : List DingTalkSkillInstaller) (actor : SkillInstallActor) :
    Bool :=
  actor.channel ≠ "dingtalk" || installers.any (·.admits actor)

def resolveSkillInstallTargetDir (runtimeRoot : Place) (targetLayer : SkillInstallTargetLayer)
    (targetScope : Option String) : Except String Place :=
  match targetLayer with
  | .global =>
    if targetScope.isSome then .error "global 安装不允许传 target_scope"
    else .ok (runtimeRoot.child "skills")
  | .user =>
    match targetScope.filter fun scope => trim scope ≠ "" with
    | none => .error "user 安装必须提供 target_scope"
    | some scope => .ok (((runtimeRoot.child "users").join scope).child "skills")

/-! ## Archives -/

abbrev SkillDisk := Disk String

abbrev Install (α : Type) := Procedure String α

/-- A name in a directory. -/
abbrev Name := {name : String // legalName name = true}

/-- How far a failing `create_dir_all` gets, and its error. -/
abbrev MakeFailure := Option (Nat × String)

/-- What a failing `remove_dir_all` leaves, and its error. -/
abbrev RemoveFailure := Option ((Location → Bool) × String)

/-- The relative path that the zip library gives for an entry; it never leaves the directory it is
joined to. -/
structure EnclosedName where
  parts : List Component
  enclosed : Encloses 0 parts

/-- An entry, with what becomes of it: how it is read, how its directory is made, how its file is
opened, what is written of its content and how the writing ends. -/
structure ZipEntry where
  read : Except String Unit
  enclosedName : Option EnclosedName
  isDir : Bool
  dirMade : MakeFailure
  opened : Except String Unit
  content : String
  copied : Except String Unit

/-- What an archive is by its first bytes. The tar library leaves a tree in the directory it unpacks
to, also when it fails. -/
inductive Archive
  | zip (entries : Except String (List ZipEntry))
  | tarGz (tree : SkillDisk) (outcome : Except String Unit)
  | other

/-- What is listed of a directory, and whether the listing failed in the end. -/
structure Listing (α : Type) where
  entries : List α
  ended : Except String Unit

/-- How the operations of an unpacking end. -/
structure UnpackEnv where
  rootMade : MakeFailure
  skillRootMade : MakeFailure
  listing : Except String (Listing Name)
  moves : Except String (Listing (Name × Except String Unit))
  nestedRemoved : RemoveFailure
  finalRemoved : RemoveFailure
  nestedMoved : Except String Unit
  skillRootRemoved : RemoveFailure

/-- The only directory with a `SKILL.md`. -/
def collectSkillDir (root : Place) (listing : Except String (Listing Name)) : Install Name := do
  let listing ← Procedure.check listing
  Procedure.check listing.ended
  let disk ← get
  let skillDirs := listing.entries.filter fun name : Name =>
    (disk.stat (root.child name.1) matches some .dir) &&
      (disk.stat ((root.child name.1).child "SKILL.md")).isSome
  match skillDirs with
  | [name] => pure name
  | _ => throw "Skill 安装包必须且只能包含一个 Skill 目录"

def makeParent (place : Place) (failure : MakeFailure) : Install Unit :=
  match place.parent? with
  | none => pure ()
  | some parent => Procedure.createDirAll parent failure

def unpackEntry (skillRoot : Place) (entry : ZipEntry) : Install Unit := do
  Procedure.check entry.read
  match entry.enclosedName with
  | none => pure ()
  | some path => do
      let outputPath : Place := ⟨skillRoot.base, skillRoot.parts ++ path.parts⟩
      if entry.isDir then Procedure.createDirAll outputPath entry.dirMade
      else do
        makeParent outputPath entry.dirMade
        Procedure.createFile outputPath entry.content entry.opened
        Procedure.check entry.copied

def unpackEntries (skillRoot : Place) : List ZipEntry → Install Unit
  | [] => pure ()
  | entry :: rest => do
      unpackEntry skillRoot entry
      unpackEntries skillRoot rest

/-- Move what is in the nested directory one level up. -/
def moveUp (skillRoot nestedRoot : Place) : List (Name × Except String Unit) → Install Unit
  | [] => pure ()
  | (name, outcome) :: rest => do
      Procedure.rename (nestedRoot.child name.1) (skillRoot.child name.1) outcome
      moveUp skillRoot nestedRoot rest

def removeIfPresent (place : Place) (failure : RemoveFailure) : Install Unit := do
  if ((← get).stat place).isSome then Procedure.removeDirAll place failure else pure ()

/-- A skill that is one level down in its archive. -/
def unnest (root skillRoot : Place) (packageHint : String) (nested : Name) (env : UnpackEnv) :
    Install String := do
  let nestedRoot := skillRoot.child nested.1
  if nested.1 = packageHint then do
    let moves ← Procedure.check env.moves
    moveUp skillRoot nestedRoot moves.entries
    Procedure.check moves.ended
    Procedure.removeDirAll nestedRoot env.nestedRemoved
    pure packageHint
  else do
    let finalRoot := root.child nested.1
    removeIfPresent finalRoot env.finalRemoved
    Procedure.rename nestedRoot finalRoot env.nestedMoved
    Procedure.removeDirAll skillRoot env.skillRootRemoved
    pure nested.1

def unpackZip (entries : Except String (List ZipEntry)) (root : Place) (packageHint : String)
    (env : UnpackEnv) : Install String := do
  let skillRoot := root.join packageHint
  Procedure.createDirAll skillRoot env.skillRootMade
  let entries ← Procedure.check entries
  unpackEntries skillRoot entries
  if ((← get).stat (skillRoot.child "SKILL.md")).isSome then pure packageHint
  else do
    let nested ← collectSkillDir skillRoot env.listing
    unnest root skillRoot packageHint nested env

def unpackSkillArchive (archive : Archive) (root : Place) (packageHint : String)
    (env : UnpackEnv) : Install String := do
  Procedure.createDirAll root env.rootMade
  match archive with
  | .zip entries => unpackZip entries root packageHint env
  | .tarGz tree outcome => do
      Procedure.putTree root (fun rest => if rest = [] then some .dir else tree rest) outcome
      let name ← collectSkillDir root env.listing
      pure name.1
  | .other => throw "Skill 安装包格式非法：既不是 zip，也不是 tar.gz"

/-! ## Completing a skill -/

/-- What a Python tool leaves in the virtual environment, and what it says when it fails. -/
structure ToolRun where
  tree : SkillDisk
  failure : Option String

/-- What one installation gets from outside. -/
structure InstallEnv where
  targetMade : MakeFailure
  temp : Except String Location
  fetched : Except String Archive
  unpacked : UnpackEnv
  moved : Except String Unit
  venv : Except String ToolRun
  pip : Except String ToolRun
  tomlWritten : Except String Unit
  refreshed : Except String Nat
  left : Location → Bool

def has (disk : SkillDisk) (place : Place) : Bool := (disk.stat place).isSome

def venvPython (skillDir : Place) : Place :=
  ((skillDir.child ".venv").child "bin").child "python3"

def runTool (skillDir : Place) (run : Except String ToolRun) (failing : String) :
    Install Unit := do
  let run ← Procedure.check run
  Procedure.putTree (skillDir.child ".venv") run.tree (.ok ())
  match run.failure with
  | none => pure ()
  | some detail => throw (failing ++ detail)

def createVenvIfMissing (skillDir : Place) (env : InstallEnv) : Install Unit := do
  if has (← get) (venvPython skillDir) then pure ()
  else runTool skillDir env.venv "创建 Skill Python 虚拟环境失败："

def installPythonSkillDependencies (skillDir : Place) (env : InstallEnv) : Install Unit := do
  if has (← get) (skillDir.child "requirements.txt") then do
    createVenvIfMissing skillDir env
    runTool skillDir env.pip "安装 Skill Python 依赖失败："
  else pure ()

def skillEntrypoint (disk : SkillDisk) (skillDir : Place) : Option String :=
  if has disk ((skillDir.child "src").child "main.py") then some "src/main.py"
  else if has disk (skillDir.child "main.py") then some "main.py"
  else none

def escapeBackslashes (text : String) : String :=
  .ofList (text.toList.flatMap fun letter => if letter = '\\' then ['\\', '\\'] else [letter])

def generatedSkillToml (executable entrypoint : String) : String :=
  "enabled = true\ntimeout = 30\nexecutable = \"" ++ escapeBackslashes executable ++
    "\"\nargs = [\"" ++ entrypoint ++ "\"]\n"

def ensureGeneratedSkillTomlIfMissing (skillDir : Place) (env : InstallEnv) : Install Unit := do
  let disk ← get
  if has disk (skillDir.child "skill.toml") || !has disk (skillDir.child "skill.yaml") then pure ()
  else
    match skillEntrypoint disk skillDir with
    | none => pure ()
    | some entrypoint =>
      let executable :=
        if has disk (venvPython skillDir) then (venvPython skillDir).text else "python3"
      Procedure.createFile (skillDir.child "skill.toml")
        (generatedSkillToml executable entrypoint) env.tomlWritten

/-! ## The installation -/

def fetchArchive (request : SkillInstallRequest) (env : InstallEnv) : Except String Archive :=
  match request.sourceType with
  | .skillhub => env.fetched
  | .dingtalkAttachment =>
    match (request.attachmentDownloadCode.map trim).filter fun code => code ≠ "" with
    | none => .error "缺少钉钉附件下载凭证"
    | some _ => env.fetched

/-- What the Hub knows when a request comes in. -/
structure SkillHost where
  runtimeRoot : Location
  installers : List DingTalkSkillInstaller

def SkillHost.root (host : SkillHost) : Place := ⟨[], host.runtimeRoot.map .normal⟩

/-- The directory to install to, and a new temporary one. -/
def prepareInstall (host : SkillHost) (actor : SkillInstallActor) (request : SkillInstallRequest)
    (env : InstallEnv) : Install (Place × Location) := do
  if actorCanInstallSkill host.installers actor then do
    let targetRoot ← Procedure.check
      (resolveSkillInstallTargetDir host.root request.targetLayer request.targetScope)
    Procedure.createDirAll targetRoot env.targetMade
    let temp ← Procedure.check env.temp
    Procedure.change fun disk => some (disk.makeDirs [temp])
    pure (targetRoot, temp)
  else throw "当前账号没有安装 Skill 的权限。"

/-- The name of the skill, and its directory. -/
def moveIntoPlace (request : SkillInstallRequest) (env : InstallEnv) (targetRoot : Place)
    (temp : Location) : Install (String × Place) := do
  let archive ← Procedure.check (fetchArchive request env)
  let skillName ← unpackSkillArchive archive ⟨temp, []⟩ request.package env.unpacked
  let destinationDir := targetRoot.join skillName
  if has (← get) destinationDir then
    throw ("Skill " ++ skillName ++ " 已存在，暂不支持覆盖安装")
  else do
    Procedure.rename (Place.join ⟨temp, []⟩ skillName) destinationDir env.moved
    pure (skillName, destinationDir)

/-- All that follows once the directory is in its place. -/
def completeInstall (env : InstallEnv) (destinationDir : Place) : Install Unit := do
  installPythonSkillDependencies destinationDir env
  ensureGeneratedSkillTomlIfMissing destinationDir env
  let _ ← Procedure.check env.refreshed
  pure ()

/-- The temporary directory is removed, as far as that succeeds. -/
def dropTempDir (temp : Location) (left : Location → Bool) (disk : SkillDisk) : SkillDisk :=
  disk.putTree temp fun rest => if left rest then disk (temp ++ rest) else none

def installThrough (request : SkillInstallRequest) (env : InstallEnv) (targetRoot : Place)
    (temp : Location) : Install SkillInstallResponse := do
  let (skillName, destinationDir) ← moveIntoPlace request env targetRoot temp
  completeInstall env destinationDir
  pure
    { skillName, sourceType := request.sourceType.label, package := request.package,
      version := request.version, targetLayer := request.targetLayer.label,
      targetScope := request.targetScope }

def installSkillFromRequest (host : SkillHost) (actor : SkillInstallActor)
    (request : SkillInstallRequest) (env : InstallEnv) : Install SkillInstallResponse := do
  let (targetRoot, temp) ← prepareInstall host actor request env
  (installThrough request env targetRoot temp).cleaning (dropTempDir temp env.left)

end UHorse.Hub.Web.SkillInstall
