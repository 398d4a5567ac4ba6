import UHorse.Agent.Memory
import UHorse.Lib.NetPath

/-!
# Where the memory store writes

Session ids and scopes are joined to the workspace directory as they come. Where a file
ends up depends on what their text says as a path: an absolute text leaves the workspace at
once, `..` climbs, and different texts can name one directory.
-/

namespace UHorse.Agent

open UHorse.Lib UHorse.Lib.Unix

/-! ## Routes -/

def legalPart : Component → Bool
  | .normal name => legalName name
  | _ => true

/-- Texts joined one after the other, seen from where the first is joined. -/
def route (texts : List String) : Path := texts.foldl joinPath ⟨false, []⟩

/-- A route taken from a directory. -/
def follow (base route : Path) : Path :=
  if route.absolute then route else ⟨base.absolute, base.parts ++ route.parts⟩

section Routes

variable {cwd home loc : Location} {disk : Disk} {base : Path} {taken : Path}

theorem follow_joinPath (text : String) :
    joinPath (follow base taken) text = follow base (joinPath taken text) := by
  rw [joinPath, joinPath]
  split
  · next absolute => rw [follow, if_pos absolute]
  · rw [follow, follow]
    split
    · rfl
    · rw [List.append_assoc]

theorem foldl_joinPath (texts : List String) :
    texts.foldl joinPath base = follow base (route texts) := by
  have general : ∀ taken : Path,
      texts.foldl joinPath (follow base taken) = follow base (texts.foldl joinPath taken) := by
    induction texts with
    | nil => exact fun _ => rfl
    | cons text texts ih =>
      intro taken
      rw [List.foldl_cons, List.foldl_cons, follow_joinPath, ih]
  have start : follow base ⟨false, []⟩ = base := by
    rw [follow, if_neg Bool.false_ne_true, List.append_nil]
  exact (congrArg (texts.foldl joinPath) start.symm).trans (general _)

/-- Where components lead is their net effect, if the names are legal. -/
theorem foldlM_enter (parts : List Component) :
    parts.foldlM enter home =
      if parts.all legalPart then some ((Net.ofParts parts).apply home) else none := by
  have general : ∀ net : Net, parts.foldlM enter (net.apply home) =
      if parts.all legalPart then some ((parts.foldl Net.step net).apply home) else none := by
    induction parts with
    | nil => exact fun _ => rfl
    | cons part parts ih =>
      intro net
      rw [List.foldlM_cons, List.foldl_cons, List.all_cons]
      cases part with
      | curDir => exact ih net
      | parentDir =>
        rw [enter, Option.bind_eq_bind, Option.bind_some, ← Net.apply_step_parentDir, ih]
        rfl
      | normal name =>
        by_cases legal : legalName name
        · rw [enter, if_pos legal, Option.bind_eq_bind, Option.bind_some,
            ← Net.apply_step_normal, ih, legalPart, legal, Bool.true_and]
        · rw [enter, if_neg legal, legalPart, Bool.eq_false_iff.mpr legal]
          rfl
  simpa [Net.ofParts] using general ⟨0, []⟩

/-- The names a route has to go down first to be back in the directory it left. -/
def passage (home : Location) (taken : Path) : Location :=
  if taken.absolute then home else home.rtake (Net.ofParts taken.parts).ups

/-- A route leads to `rest` below the directory. -/
def Within (home : Location) (taken : Path) (rest : Location) : Prop :=
  taken.parts.all legalPart ∧ (Net.ofParts taken.parts).downs = passage home taken ++ rest

theorem place_follow (located : disk.place base = some home) :
    disk.place (follow base taken) = some loc ↔ taken.parts.all legalPart ∧
      loc = (Net.ofParts taken.parts).apply (if taken.absolute then [] else home) := by
  rw [follow]
  split
  · rw [Disk.place, Disk.start, if_pos ‹_›, foldlM_enter,
      Option.ite_none_right_eq_some, Option.some.injEq]
    exact and_congr_right fun _ => eq_comm
  · have start : disk.start ⟨base.absolute, base.parts ++ taken.parts⟩ = disk.start base := rfl
    rw [Disk.place, start, List.foldlM_append]
    rw [Disk.place] at located
    rw [located, Option.bind_eq_bind, Option.bind_some, foldlM_enter,
      Option.ite_none_right_eq_some, Option.some.injEq]
    exact and_congr_right fun _ => eq_comm

theorem within_iff (located : disk.place base = some home) {rest : Location} :
    disk.place (follow base taken) = some (home ++ rest) ↔ Within home taken rest := by
  rw [place_follow located, Within, passage]
  refine and_congr_right fun _ => ?_
  split
  · rw [Net.apply, List.rdrop_nil, List.nil_append, eq_comm]
  · rw [eq_comm, Net.apply_eq_append]

end Routes

/-! ## What the calls write -/

def historyRoute (sessionId : String) : Path := route ["sessions", sessionId, "history.md"]

/-- The directory a scope has for its layer. -/
def scopeTexts (scope : String) : List String :=
  match scopeLayerFromScope scope with
  | .tenant => ["tenants", scope]
  | .enterprise => ["enterprises", scope]
  | .department => ["departments", scope]
  | .role => ["roles", scope]
  | .user => ["users", scope]
  | _ => []

/-- The way to the table of a scope. -/
def scopeRoute (scope : String) : Path :=
  route (scopeTexts scope ++ ["sessions", scope, "kv.json"])

/-- The way to the table of a session, which is its user's. -/
def kvRoute (sessionId : String) : Path :=
  match namespaceForSession sessionId with
  | none => route ["sessions", sessionId, "kv.json"]
  | some namespaces => scopeRoute namespaces.user

section Writes

variable {cwd home loc : Location} {store : LayeredMemoryStore} {base : Path} {taken : Path}

theorem historyPath_eq (memory : FileMemory) (sessionId : String) :
    memory.historyPath sessionId = follow memory.workspaceDir (historyRoute sessionId) :=
  foldl_joinPath ["sessions", sessionId, "history.md"]

theorem kvPath_scopedMemory (scope : String) :
    (store.scopedMemory scope).kvPath scope = follow store.workspaceDir (scopeRoute scope) := by
  rw [scopeRoute, ← foldl_joinPath, scopeTexts, LayeredMemoryStore.scopedMemory]
  cases scopeLayerFromScope scope <;> rfl

/-- The file is below the directory. -/
def Below (home loc : Location) : Prop := ∃ rest, rest ≠ [] ∧ loc = home ++ rest

/-- Whatever the files are, a call changes only files below the directory. -/
def Contained {Input : Type} (cwd home : Location) (call : Input → Disk → Option Disk) : Prop :=
  ∀ files input disk', call input ⟨cwd, files⟩ = some disk' →
    ∀ loc, disk'.files loc ≠ files loc → Below home loc

/-- A route is refused or leads below the directory it starts from. -/
def Stays (home : Location) (taken : Path) : Prop :=
  taken.parts.all legalPart → ∃ rest, rest ≠ [] ∧
    (Net.ofParts taken.parts).downs = passage home taken ++ rest

/-- A call that writes some text at the end of a route stays where the route stays. -/
theorem contained_iff {Input : Type} {call : Input → Disk → Option Disk}
    (text : Input → Disk → Text) (located : (Disk.mk cwd fun _ => none).place base = some home)
    (writes : ∀ input disk, call input disk = disk.write (follow base taken) (text input disk))
    (someInput : Input) : Contained cwd home call ↔ Stays home taken := by
  have place : ∀ files, (Disk.mk cwd files).place base = some home := fun _ => located
  constructor
  · intro contained legal
    -- on an empty disk every written file is a new one
    let loc := (Net.ofParts taken.parts).apply (if taken.absolute then [] else home)
    have here : (Disk.mk cwd fun _ => none).place (follow base taken) = some loc :=
      (place_follow located).mpr ⟨legal, rfl⟩
    have written := writes someInput ⟨cwd, fun _ => none⟩
    rw [Disk.write, here, Option.map_some] at written
    obtain ⟨rest, nonempty, below⟩ := contained _ _ _ written loc (by
      dsimp only
      rw [Function.update_self]
      exact Option.some_ne_none _)
    rw [below] at here
    exact ⟨rest, nonempty, ((within_iff located).mp here).2⟩
  · intro stays files input disk' written loc changed
    rw [writes] at written
    obtain ⟨loc', here, rfl⟩ := Disk.write_eq_some written
    obtain rfl : loc = loc' := by
      by_contra other
      exact changed (Function.update_of_ne other _ _)
    have legal := ((place_follow (place files)).mp here).1
    obtain ⟨rest, nonempty, returns⟩ := stays legal
    have there := (within_iff (place files)).mpr ⟨legal, returns⟩
    exact ⟨rest, nonempty, Option.some.inj (here.symm.trans there)⟩

/-! ## Sessions -/

/-- What a call of `store_message` is given beside its session. -/
structure MessageInput where
  now : Stamp
  user : Text
  assistant : Text

/-- What a call of `store_kv` is given beside its session. -/
structure KvInput where
  format : KvFormat
  key : String
  value : String

def callMessage (store : LayeredMemoryStore) (sessionId : String) (input : MessageInput)
    (disk : Disk) : Option Disk :=
  store.storeMessage disk sessionId input.now input.user input.assistant

def callKv (store : LayeredMemoryStore) (sessionId : String) (input : KvInput) (disk : Disk) :
    Option Disk :=
  store.storeKv input.format disk sessionId input.key input.value

/-- `store_kv` in the memory of a scope. -/
def callScopeKv (store : LayeredMemoryStore) (scope : String) (input : KvInput) (disk : Disk) :
    Option Disk :=
  (store.scopedMemory scope).storeKv input.format disk scope input.key input.value

/-- All that is written for a session is below the workspace directory. -/
structure SessionContained (store : LayeredMemoryStore) (cwd home : Location)
    (sessionId : String) : Prop where
  message : Contained cwd home (callMessage store sessionId)
  kv : Contained cwd home (callKv store sessionId)

/-- The histories of two sessions are different files. -/
def HistoriesApart (store : LayeredMemoryStore) (disk : Disk) (sessionId sessionId' : String) :
    Prop :=
  ∀ loc, disk.place (store.globalMemory.historyPath sessionId) = some loc →
    disk.place (store.globalMemory.historyPath sessionId') ≠ some loc

structure SessionStays (home : Location) (sessionId : String) : Prop where
  history : Stays home (historyRoute sessionId)
  kv : Stays home (kvRoute sessionId)

theorem callMessage_contained_iff
    (located : (Disk.mk cwd fun _ => none).place store.workspaceDir = some home)
    (sessionId : String) : Contained cwd home (callMessage store sessionId) ↔
      Stays home (historyRoute sessionId) := by
  refine contained_iff (fun input disk =>
    store.globalMemory.readSessionHistory disk sessionId ++
      historyEntry input.now input.user input.assistant) located ?_
    ⟨⟨'0', [], .inl (by decide), List.not_mem_nil⟩, [], []⟩
  intro input disk
  rw [callMessage, LayeredMemoryStore.storeMessage, FileMemory.storeMessage, historyPath_eq]
  rfl

theorem storeKv_contained_iff {memory : FileMemory} {sessionId : String}
    (located : (Disk.mk cwd fun _ => none).place base = some home)
    (path : memory.kvPath sessionId = follow base taken) :
    Contained cwd home (fun (input : KvInput) disk =>
      memory.storeKv input.format disk sessionId input.key input.value) ↔ Stays home taken := by
  refine contained_iff (fun input disk => input.format.encode
    ((((disk.read (memory.kvPath sessionId)).bind input.format.decode).getD ∅).insert
      input.key input.value)) located ?_ ⟨⟨fun _ => [], fun _ => none⟩, "", ""⟩
  intro input disk
  rw [FileMemory.storeKv, ← path]

theorem callScopeKv_contained_iff
    (located : (Disk.mk cwd fun _ => none).place store.workspaceDir = some home)
    (scope : String) :
    Contained cwd home (callScopeKv store scope) ↔ Stays home (scopeRoute scope) :=
  storeKv_contained_iff located (kvPath_scopedMemory scope)

theorem callKv_contained_iff
    (located : (Disk.mk cwd fun _ => none).place store.workspaceDir = some home)
    (sessionId : String) :
    Contained cwd home (callKv store sessionId) ↔ Stays home (kvRoute sessionId) := by
  cases named : namespaceForSession sessionId with
  | none =>
    have call : callKv store sessionId = fun input disk =>
        store.globalMemory.storeKv input.format disk sessionId input.key input.value := by
      funext input disk
      rw [callKv, LayeredMemoryStore.storeKv, named]
    rw [call, kvRoute, named]
    exact storeKv_contained_iff located (foldl_joinPath ["sessions", sessionId, "kv.json"])
  | some namespaces =>
    have call : callKv store sessionId = callScopeKv store namespaces.user := by
      funext input disk
      rw [callKv, LayeredMemoryStore.storeKv, named]
      rfl
    rw [call, kvRoute, named]
    exact callScopeKv_contained_iff located namespaces.user

theorem sessionContained_iff
    (located : (Disk.mk cwd fun _ => none).place store.workspaceDir = some home)
    (sessionId : String) :
    SessionContained store cwd home sessionId ↔ SessionStays home sessionId :=
  ⟨fun contained => ⟨(callMessage_contained_iff located sessionId).mp contained.message,
      (callKv_contained_iff located sessionId).mp contained.kv⟩,
    fun stays => ⟨(callMessage_contained_iff located sessionId).mpr stays.history,
      (callKv_contained_iff located sessionId).mpr stays.kv⟩⟩

/-- Seen from the workspace directory, two routes lead to different places below it. -/
def Distinct (home : Location) (taken other : Path) : Prop :=
  ∀ rest, Within home taken rest → ¬ Within home other rest

theorem historiesApart_iff {disk : Disk} {sessionId sessionId' : String}
    (located : disk.place store.workspaceDir = some home)
    (stays : Stays home (historyRoute sessionId)) :
    HistoriesApart store disk sessionId sessionId' ↔
      Distinct home (historyRoute sessionId) (historyRoute sessionId') := by
  simp only [HistoriesApart, Distinct, historyPath_eq]
  constructor
  · intro apart rest here there
    exact apart _ ((within_iff located).mpr here) ((within_iff located).mpr there)
  · intro distinct loc here there
    have legal := ((place_follow located).mp here).1
    obtain ⟨rest, -, returns⟩ := stays legal
    have within : Within home (historyRoute sessionId) rest := ⟨legal, returns⟩
    obtain rfl := Option.some.inj (here.symm.trans ((within_iff located).mpr within))
    exact distinct rest within ((within_iff located).mp there)

/-- Memory files are below the workspace directory and apart exactly if the routes of the
session ids and of the scope stay there and the routes of different ids are distinct. -/
theorem memory_files_contained (store : LayeredMemoryStore) (cwd home : Location)
    (located : (Disk.mk cwd fun _ => none).place store.workspaceDir = some home)
    (files : Location → Option Text) (sessionId sessionId' scope : String) :
    (SessionContained store cwd home sessionId ∧ SessionContained store cwd home sessionId' ∧
        Contained cwd home (callScopeKv store scope) ∧
        (sessionId ≠ sessionId' →
          HistoriesApart store ⟨cwd, files⟩ sessionId sessionId')) ↔
      SessionStays home sessionId ∧ SessionStays home sessionId' ∧
        Stays home (scopeRoute scope) ∧
        (sessionId ≠ sessionId' →
          Distinct home (historyRoute sessionId) (historyRoute sessionId')) := by
  rw [sessionContained_iff located, sessionContained_iff located,
    callScopeKv_contained_iff located]
  refine and_congr_right fun stays => and_congr_right fun _ => and_congr_right fun _ => ?_
  exact imp_congr_right fun _ => historiesApart_iff located stays.history

end Writes

section Sample

def workspaceStore : LayeredMemoryStore := ⟨Path.parse "/data"⟩

def noFiles : Disk := ⟨[], fun _ => none⟩

theorem stays_of_downs {home rest : Location} {taken : Path} (nonempty : rest ≠ [])
    (descends : passage home taken = [] ∧ (Net.ofParts taken.parts).downs = rest) :
    Stays home taken :=
  fun _ => ⟨rest, nonempty, by rw [descends.1, descends.2, List.nil_append]⟩

theorem memory_files_contained_sample :
    SessionContained workspaceStore [] ["data"] "web:u1" ∧
      SessionContained workspaceStore [] ["data"] "s2" ∧
      Contained [] ["data"] (callScopeKv workspaceStore "role:ops") ∧
      ("web:u1" ≠ "s2" → HistoriesApart workspaceStore noFiles "web:u1" "s2") := by
  refine (memory_files_contained workspaceStore [] ["data"] (by decide) (fun _ => none)
    "web:u1" "s2" "role:ops").mpr ⟨⟨?_, ?_⟩, ⟨?_, ?_⟩, ?_, fun _ rest here there => ?_⟩
  · exact stays_of_downs (List.cons_ne_nil "sessions" ["web:u1", "history.md"])
      (by decide)
  · exact stays_of_downs
      (List.cons_ne_nil "users" ["user:web:u1", "sessions", "user:web:u1", "kv.json"])
      (by decide +kernel)
  · exact stays_of_downs (List.cons_ne_nil "sessions" ["s2", "history.md"]) (by decide)
  · exact stays_of_downs (List.cons_ne_nil "sessions" ["s2", "kv.json"]) (by decide)
  · exact stays_of_downs (List.cons_ne_nil "roles" ["role:ops", "sessions", "role:ops", "kv.json"])
      (by decide +kernel)
  · have passages : passage ["data"] (historyRoute "web:u1") =
        passage ["data"] (historyRoute "s2") := by decide
    have same := here.2.trans ((congrArg (· ++ rest) passages).trans there.2.symm)
    exact absurd same (by decide)

/-- An absolute session id writes where it says, and two spellings share one history. -/
theorem absolute_session_escapes :
    ¬ SessionContained workspaceStore [] ["data"] "/tmp/s1" ∧
      ¬ HistoriesApart workspaceStore noFiles "s1" "s1/" := by
  constructor
  · intro contained
    obtain ⟨rest, -, below⟩ := contained.message (fun _ => none)
      ⟨⟨'2', [], .inl (by decide), List.not_mem_nil⟩, [], []⟩ _ rfl ["tmp", "s1", "history.md"]
      (by decide)
    have first := congrArg List.head? below
    exact absurd first (by simp)
  · intro apart
    exact apart ["data", "sessions", "s1", "history.md"] (by decide) (by decide)

end Sample

end UHorse.Agent
