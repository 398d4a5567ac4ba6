import UHorse.Hub.Web.SkillInstall

/-!
# Installations that leave nothing behind

An installation is safe when it leaves files only in its temporary directory and in directories of
skills, and changes none of those directories when it fails. What comes before the skill is moved to
its place changes nothing outside the temporary directory, as long as the names it is given are
names; what comes after may fail and leaves the skill.
-/

namespace UHorse.Hub.Web.SkillInstall

open UHorse.Lib.Unix

/-! ## Safety -/

/-- The place of a skill in one of the layers. -/
def Spot (root loc : Location) : Prop :=
  (∃ name, loc = root ++ ["skills", name]) ∨
    ∃ scope name, loc = root ++ ["users", scope, "skills", name]

/-- The files that are left outside the temporary directory are below places of skills. -/
def Contained (root : Location) (env : InstallEnv) (s t : SkillDisk) : Prop :=
  ∀ loc content, t loc = some (.file content) → s loc = some (.file content) ∨
    (∃ temp, env.temp = .ok temp ∧ temp <+: loc) ∨ ∃ spot, Spot root spot ∧ spot <+: loc

/-- The installed skills are the same ones. -/
def SameSkills (root : Location) (s t : SkillDisk) : Prop :=
  ∀ spot, Spot root spot → ((t spot).isSome ↔ (s spot).isSome)

/-- The installation is contained, and without effect on the skills if it fails. -/
structure Safe (host : SkillHost) (actor : SkillInstallActor) (request : SkillInstallRequest)
    (env : InstallEnv) (disk : SkillDisk) : Prop where
  contained : Contained host.runtimeRoot env disk
    ((installSkillFromRequest host actor request env).exec disk).2
  atomic : ((installSkillFromRequest host actor request env).exec disk).1.isOk = false →
    SameSkills host.runtimeRoot disk ((installSkillFromRequest host actor request env).exec disk).2

/-- A text is a relative path that never climbs above the directory it is joined to. -/
def Enclosed (text : String) : Prop :=
  (Path.parse text).absolute = false ∧ Encloses 0 (Path.parse text).parts

/-- Once a skill is moved to its place, what is left to do succeeds. -/
def Completes (host : SkillHost) (actor : SkillInstallActor) (request : SkillInstallRequest)
    (env : InstallEnv) (disk : SkillDisk) : Prop :=
  ∀ targetRoot temp prepared, (prepareInstall host actor request env).exec disk =
      (.ok (targetRoot, temp), prepared) →
    ∀ skillName destinationDir moved, (moveIntoPlace request env targetRoot temp).exec prepared =
        (.ok (skillName, destinationDir), moved) →
      ∀ spot, destinationDir.target = some spot → Spot host.runtimeRoot spot →
        ((completeInstall env destinationDir).exec moved).1.isOk = true

/-! ## Unpacking -/

section Unpacking

open Procedure

variable {root skillRoot : Place} {temp : Location} {text : String}

theorem Enclosed.join (enclosed : Enclosed text) (place : Place) :
    place.join text = ⟨place.base, place.parts ++ (Path.parse text).parts⟩ := by
  rw [Place.join, if_neg (Bool.eq_false_iff.mp enclosed.1)]

/-- A path below the temporary directory. -/
def Under (temp : Location) (place : Place) : Prop := place.base = temp ∧ Encloses 0 place.parts

theorem Under.inside {place : Place} (under : Under temp place) : place.Inside temp := by
  obtain ⟨base, parts⟩ := place
  obtain ⟨rfl, encloses⟩ := under
  exact Place.inside_of_encloses encloses

theorem Under.child {place : Place} (under : Under temp place) (name : String) :
    Under temp (place.child name) :=
  ⟨under.1, under.2.append trivial⟩

end Unpacking

/-! ## Places of skills -/

section Places

variable {root loc spot other temp : Location}

end Places

/-! ## Before and after the move -/

section Phases

open Procedure

variable {host : SkillHost} {actor : SkillInstallActor} {request : SkillInstallRequest}
  {env : InstallEnv} {s t : SkillDisk} {targetRoot : Place} {temp loc spot : Location}

variable {message : String} {place : Place}

section Outcome

variable {disk prepared moved : SkillDisk} {skillName : String} {destinationDir : Place}

end Outcome

end Phases

/-! ## Two installations -/

section Samples

def sampleRequest (package : String) : SkillInstallRequest :=
  ⟨.skillhub, package, none, .global, none, none⟩

/-- All goes well but the installation of the dependencies. -/
def sampleEnv (archive : Archive) : InstallEnv where
  targetMade := none
  temp := .ok ["tmp", "install"]
  fetched := .ok archive
  unpacked :=
    { rootMade := none, skillRootMade := none,
      listing := .ok ⟨[⟨"demo", by decide⟩], .ok ()⟩, moves := .ok ⟨[], .ok ()⟩,
      nestedRemoved := none, finalRemoved := none, nestedMoved := .ok (), skillRootRemoved := none }
  moved := .ok ()
  venv := .ok ⟨fun _ => none, none⟩
  pip := .ok ⟨fun _ => none, some "no network"⟩
  tomlWritten := .ok ()
  refreshed := .ok 1
  left := fun _ => false

end Samples

end UHorse.Hub.Web.SkillInstall
