import UHorse.Hub.Web.Accounts

/-!
# A node is bound to the user that paired it

Between calls a node is bound to a user exactly if its device is paired and that user
confirmed it last, as long as no call starts to change the node while another one has changed
the pairing or the binding only, and nobody starts to pair a node that is bound.

Each thread is seen to be between the two changes of its call or not; the invariant says for
one node what holds while a thread is between them.
-/

namespace UHorse.Security.Pairing.DevicePairingManager

open UHorse.Lib

/-! ## Which devices are paired -/

def isPaired (manager : DevicePairingManager) (deviceId : String) : Bool :=
  (manager.devices.lookup deviceId).any DeviceInfo.paired

/-- Devices are kept under their ids. -/
def Keyed (manager : DevicePairingManager) : Prop :=
  ∀ deviceId device, manager.devices.lookup deviceId = some device → device.id = deviceId

variable {manager : DevicePairingManager} {deviceId : String} {device : DeviceInfo}

theorem Keyed.insert (keyed : manager.Keyed) (named : device.id = deviceId) :
    Keyed { manager with devices := manager.devices.insert deviceId device } := by
  intro other found
  rw [HashMap.lookup_insert_ite]
  split
  · next same =>
      rintro ⟨⟩
      rw [named, same]
  · exact keyed other found

theorem isPaired_insert (other : String) :
    isPaired { manager with devices := manager.devices.insert deviceId device } other =
      if other = deviceId then device.paired else manager.isPaired other := by
  unfold isPaired
  rw [HashMap.lookup_insert_ite]
  split <;> rfl

end UHorse.Security.Pairing.DevicePairingManager

namespace UHorse.Hub.Web.Accounts

open UHorse.Lib UHorse.Security.Pairing

/-! ## What an action changes -/

/-- Where a call is: it has paired a device and not yet bound the node, or it has unbound the
node and not yet unpaired the device. -/
inductive Midway
  | resting
  | confirmed (nodeId userId : String)
  | unbound (nodeId : String)
deriving DecidableEq

namespace Midway

def about (nodeId : String) : Midway → Bool
  | .resting => false
  | .confirmed other _ | .unbound other => other = nodeId

/-- Only the device of a registered node is paired. -/
def see (midway : Midway) (manager : DevicePairingManager) : Note → Midway
  | .pairing (.pair deviceId userId) =>
    if deviceId ∈ manager.devices then .confirmed deviceId userId else midway
  | .pairing (.unpair _) => .resting
  | .bind _ _ => .resting
  | .unbind nodeId => .unbound nodeId
  | _ => midway

end Midway

def updates : Observer AccountState AccountEnv Note Midway where
  start := .resting
  see midway note _ s := midway.see s.pairing.manager note

/-- Which devices are paired after an action. -/
def Note.paired (note : Note) (manager : DevicePairingManager) (deviceId : String) : Bool :=
  match note with
  | .pairing (.register other) | .pairing (.unpair other) =>
    if deviceId = other then false else manager.isPaired deviceId
  | .pairing (.pair other _) =>
    if deviceId = other ∧ other ∈ manager.devices then true else manager.isPaired deviceId
  | _ => manager.isPaired deviceId

def Note.bindings (note : Note) (bindings : NotificationBindingManager) :
    NotificationBindingManager :=
  match note with
  | .bind nodeId userId => bindings.setBinding nodeId userId
  | .unbind nodeId => bindings.unbind nodeId
  | _ => bindings

/-- When a call may change a node: the second change follows the first. -/
def Note.Due (note : Note) (midway : Midway) : Prop :=
  match note with
  | .bind nodeId userId => midway = .confirmed nodeId userId
  | .pairing (.unpair deviceId) => midway = .unbound deviceId
  | .unbind _ | .pairing (.pair _ _) => midway = .resting
  | _ => True

structure Changes (midway : Midway) (note : Note) (s t : AccountState) : Prop where
  keyed : t.pairing.manager.Keyed
  paired : ∀ deviceId, t.pairing.manager.isPaired deviceId = note.paired s.pairing.manager deviceId
  bindings : t.bindings = note.bindings s.bindings
  due : note.Due midway

def accountContract : Contract AccountState AccountEnv Note Midway where
  relies _ s := s.pairing.manager.Keyed
  expects _ _ _ _ := True
  waits _ _ _ := True
  grants midway note _ s t := Changes midway note s t

/-- What the section of an operation does to the devices, and when it may. -/
structure ManagerChanges (midway : Midway) (note : Security.Pairing.Note) (s t : Guarded) :
    Prop where
  keyed : t.manager.Keyed
  paired : ∀ deviceId, t.manager.isPaired deviceId = (Note.pairing note).paired s.manager deviceId
  due : (Note.pairing note).Due midway

def managerUpdates : Observer Guarded Reading Security.Pairing.Note Midway where
  start := .resting
  see midway note _ s := midway.see s.manager (.pairing note)

def managerContract : Contract Guarded Reading Security.Pairing.Note Midway where
  relies _ s := s.manager.Keyed
  expects _ _ _ _ := True
  waits _ _ _ := True
  grants midway note _ s t := ManagerChanges midway note s t

/-! ## Operations of the pairing manager -/

/-- The notes of sections that leave the devices alone. -/
def Aside : Security.Pairing.Note → Prop
  | .register _ | .pair _ _ | .unpair _ => False
  | _ => True

section Operations

variable {α : Type} {midway : Midway} {lock : Lock} {mode : Mode}

abbrev SteadyProcess (process : Process α) (midway : Midway) : Prop :=
  process.Steady managerUpdates managerContract midway

abbrev KeepsProcess (process : Process α) (midway : Midway) (post : α → Midway → Prop) : Prop :=
  process.Keeps managerUpdates managerContract midway post

/-- A section that leaves the devices alone. -/
theorem grants_aside {note : Security.Pairing.Note} {s t : Guarded} (midway : Midway)
    (aside : Aside note) (keyed : s.manager.Keyed) (same : t.manager.devices = s.manager.devices) :
    ManagerChanges midway note s t ∧ midway.see s.manager (.pairing note) = midway := by
  have keyed' : t.manager.Keyed := by
    unfold DevicePairingManager.Keyed
    rwa [same]
  have paired : ∀ deviceId, t.manager.isPaired deviceId = s.manager.isPaired deviceId := by
    intro deviceId
    unfold DevicePairingManager.isPaired
    rw [same]
  cases note with
  | register | pair | unpair => cases aside
  | _ => exact ⟨⟨keyed', paired, trivial⟩, rfl⟩

theorem steady_update {note : Security.Pairing.Note} {run : Reading → Guarded → Guarded}
    {value : Reading → Guarded → α} (aside : Aside note)
    (same : ∀ input s, (run input s).manager.devices = s.manager.devices) :
    SteadyProcess (Program.update note run value) midway :=
  Program.Keeps.update (fun input s keyed _ => (grants_aside midway aside keyed (same input s)).1)
    fun input s keyed _ => (grants_aside midway aside keyed (same input s)).2

theorem steady_acquire : SteadyProcess (.acquire lock mode) midway := by
  refine Program.Keeps.await (fun _ _ => trivial) ?_ fun _ _ _ _ => rfl
  intro input s keyed _
  exact ⟨keyed, fun _ => rfl, trivial⟩

theorem steady_release : SteadyProcess (.release lock mode) midway :=
  steady_update trivial fun _ _ => rfl

theorem steady_head (heading : Heading) : SteadyProcess (.head heading) midway :=
  steady_update trivial fun _ _ => rfl

theorem steady_look (value : Reading → DevicePairingManager → α) :
    SteadyProcess (.look value) midway :=
  steady_update trivial fun _ _ => rfl

theorem steady_apply {change : Reading → DevicePairingManager → DevicePairingManager × α}
    (same : ∀ input manager, (change input manager).1.devices = manager.devices) :
    SteadyProcess (.apply .work change) midway :=
  steady_update trivial fun input s => same input s.manager

theorem steady_modify {change : Reading → DevicePairingManager → DevicePairingManager}
    (same : ∀ input manager, (change input manager).devices = manager.devices) :
    SteadyProcess (.modify .work change) midway :=
  steady_update trivial fun input s => same input s.manager

/-- A section with one lock keeps what it does inside. -/
theorem keeps_within {process : Process α} {post : α → Midway → Prop}
    (keeps : KeepsProcess process midway post) :
    KeepsProcess (.within lock mode process) midway post := by
  refine steady_acquire.bind fun _ => Program.Keeps.bind keeps fun value after ended => ?_
  exact steady_release.bind fun _ => Program.Keeps.pure ended

theorem steady_within {process : Process α} (steady : SteadyProcess process midway) :
    SteadyProcess (.within lock mode process) midway :=
  keeps_within steady

theorem steady_clearCode (code : String) : SteadyProcess (.clearCode code) midway :=
  (steady_head _).bind fun _ => steady_within (steady_modify fun _ _ => rfl)

theorem devices_claimRequest (manager : DevicePairingManager) (requestId userId : String)
    (now : Nat) : (manager.claimRequest requestId userId now).1.devices = manager.devices := by
  unfold DevicePairingManager.claimRequest
  split
  · rfl
  · split <;> rfl

theorem devices_withdrawRequest (manager : DevicePairingManager) (requestId : String) :
    (manager.withdrawRequest requestId).1.devices = manager.devices := by
  unfold DevicePairingManager.withdrawRequest
  split <;> rfl

theorem steady_initiatePairing (deviceId deviceName deviceType : String) :
    SteadyProcess (.initiatePairing deviceId deviceName deviceType) midway := by
  have registers : ∀ request : PairingRequest, request.deviceId = deviceId →
      SteadyProcess (.modify (.register deviceId) fun _ manager =>
        manager.registerDevice request) midway := by
    rintro request rfl
    refine Program.Keeps.update ?_ fun _ _ _ _ => rfl
    intro input s keyed _
    exact ⟨DevicePairingManager.Keyed.insert keyed rfl,
      DevicePairingManager.isPaired_insert, trivial⟩
  have drawn : KeepsProcess (.look fun reading manager => manager.newRequest deviceId deviceName
      deviceType reading.uuid reading.draw reading.now) midway
      fun request after => request.deviceId = deviceId ∧ after = midway := by
    refine Program.Keeps.update ?_ fun _ _ _ _ => ⟨rfl, rfl⟩
    intro input s keyed _
    exact ⟨keyed, fun _ => rfl, trivial⟩
  refine Program.Keeps.bind drawn ?_
  rintro request after ⟨named, rfl⟩
  refine (steady_within (registers request named)).bind fun _ => ?_
  refine Program.Steady.bind (steady_within (steady_modify ?_)) fun _ => ?_
  · exact fun _ _ => rfl
  refine Program.Steady.bind (steady_within (steady_modify ?_)) fun _ => ?_
  · exact fun _ _ => rfl
  exact Program.Steady.pure request

/-- A confirmation that succeeds leaves the device paired and the node to be bound. -/
def Confirming (userId : String) (confirmed : Except PairingError DeviceInfo) (after : Midway) :
    Prop :=
  match confirmed with
  | .ok device => after = .confirmed device.id userId
  | .error _ => after = .resting

theorem keeps_pairDevice (deviceId userId : String) :
    KeepsProcess (.apply (.pair deviceId userId) fun reading manager =>
      manager.pairDevice deviceId reading.now) .resting (Confirming userId) := by
  refine Program.Keeps.update ?_ ?_
  · intro input s keyed _
    dsimp only [DevicePairingManager.pairDevice]
    cases found : s.manager.devices.lookup deviceId with
    | none =>
      have missing : deviceId ∉ s.manager.devices := Finmap.lookup_eq_none.mp found
      refine ⟨keyed, ?_, rfl⟩
      intro other
      rw [Note.paired, if_neg fun both => missing both.2]
    | some device =>
      have present := HashMap.mem_of_lookup found
      refine ⟨keyed.insert (keyed deviceId device found), ?_, rfl⟩
      intro other
      rw [DevicePairingManager.isPaired_insert, Note.paired]
      simp only [present, and_true]
  · intro input s keyed _
    dsimp only [DevicePairingManager.pairDevice, managerUpdates, Midway.see]
    cases found : s.manager.devices.lookup deviceId with
    | none =>
      rw [if_neg (Finmap.lookup_eq_none.mp found)]
      rfl
    | some device =>
      rw [if_pos (HashMap.mem_of_lookup found)]
      exact congrArg (Midway.confirmed · userId) (keyed deviceId device found).symm

theorem keeps_confirmPairing (code userId : String) :
    KeepsProcess (.confirmPairing code userId) .resting (Confirming userId) := by
  refine steady_acquire.bind fun _ => (steady_look _).bind fun found => ?_
  cases found with
  | none => exact steady_release.bind fun _ => .pure rfl
  | some requestId =>
    refine (steady_head _).bind fun _ => steady_acquire.bind fun _ => ?_
    refine (steady_apply fun _ _ => devices_claimRequest ..).bind fun claimed => ?_
    cases claimed with
    | error error => exact steady_release.bind fun _ => steady_release.bind fun _ => .pure rfl
    | ok request =>
      refine (steady_head _).bind fun _ => steady_acquire.bind fun _ => ?_
      refine Program.Keeps.bind (keeps_pairDevice request.deviceId userId) ?_
      intro paired after confirming
      cases paired with
      | error error =>
        refine steady_release.bind fun _ => steady_release.bind fun _ => ?_
        exact steady_release.bind fun _ => .pure confirming
      | ok device =>
        refine steady_release.bind fun _ => (steady_clearCode code).bind fun _ => ?_
        exact steady_release.bind fun _ => steady_release.bind fun _ => .pure confirming

theorem steady_cancelPairing (requestId : String) :
    SteadyProcess (.cancelPairing requestId) midway := by
  refine steady_within
    ((steady_apply fun _ _ => devices_withdrawRequest ..).bind fun withdrawn => ?_)
  cases withdrawn with
  | error error => exact Program.Steady.pure _
  | ok code => exact (steady_clearCode code).bind fun _ => Program.Steady.pure _

theorem steady_getPairingStatus (deviceId : String) :
    SteadyProcess (.getPairingStatus deviceId) midway := by
  refine steady_within ((steady_look _).bind fun found => ?_)
  cases found with
  | none => exact Program.Steady.pure _
  | some device =>
    dsimp only
    split
    · exact Program.Steady.pure _
    · exact (steady_head _).bind fun _ => steady_within (steady_look _)

theorem keeps_unpairDevice (deviceId : String) :
    KeepsProcess (.unpairDevice deviceId) (.unbound deviceId) fun _ after => after = .resting := by
  refine keeps_within (Program.Keeps.update ?_ fun _ _ _ _ => rfl)
  intro input s keyed _
  dsimp only [DevicePairingManager.unpairDevice]
  cases found : s.manager.devices.lookup deviceId with
  | none =>
    refine ⟨keyed, ?_, rfl⟩
    intro other
    by_cases same : other = deviceId
    · subst same
      rw [Note.paired, if_pos rfl]
      simp only [DevicePairingManager.isPaired, found, Option.any_none]
    · rw [Note.paired, if_neg same]
  | some device =>
    exact ⟨keyed.insert (keyed deviceId device found), DevicePairingManager.isPaired_insert, rfl⟩

end Operations

/-! ## Handlers -/

section Handlers

variable {α : Type} {midway : Midway}

abbrev SteadyHandler (handler : Handler α) (midway : Midway) : Prop :=
  handler.Steady updates accountContract midway

abbrev KeepsHandler (handler : Handler α) (midway : Midway) (post : α → Midway → Prop) : Prop :=
  handler.Keeps updates accountContract midway post

theorem keeps_pairing {process : Process α} {post : α → Midway → Prop}
    (keeps : KeepsProcess process midway post) :
    KeepsHandler (.pairing process) midway post := by
  refine Program.Keeps.zoom ?_ ?_ ?_ ?_ ?_ keeps
  · exact fun _ _ _ _ => rfl
  · exact fun _ _ _ _ => trivial
  · exact fun _ _ keyed => keyed
  · exact fun _ _ _ _ _ => trivial
  · rintro midway note env s after - ⟨keyed, paired, due⟩
    exact ⟨keyed, paired, rfl, due⟩

theorem steady_pairing {process : Process α} (steady : SteadyProcess process midway) :
    SteadyHandler (.pairing process) midway :=
  keeps_pairing steady

theorem steady_query (value : AccountEnv → AccountState → α) :
    SteadyHandler (Program.query .work value) midway := by
  refine Program.Keeps.update ?_ fun _ _ _ _ => rfl
  intro env s keyed _
  exact ⟨keyed, fun _ => rfl, rfl, trivial⟩

theorem keeps_setBinding (nodeId userId : String) :
    KeepsHandler (.setBinding nodeId userId) (.confirmed nodeId userId)
      fun _ after => after = .resting := by
  refine Program.Keeps.update ?_ fun _ _ _ _ => rfl
  intro env s keyed _
  exact ⟨keyed, fun _ => rfl, rfl, rfl⟩

theorem keeps_unbind (nodeId : String) :
    KeepsHandler (.unbind nodeId) .resting fun _ after => after = .unbound nodeId := by
  refine Program.Keeps.update ?_ fun _ _ _ _ => rfl
  intro env s keyed _
  exact ⟨keyed, fun _ => rfl, rfl, rfl⟩

theorem steady_startAccountPairing (payload : StartPairingPayload) :
    SteadyHandler (.startAccountPairing payload) midway := by
  refine (steady_query _).bind fun authorized => ?_
  cases authorized with
  | error refused => exact Program.Steady.pure _
  | ok =>
    refine (steady_pairing (steady_initiatePairing _ _ _)).bind fun request => ?_
    exact Program.Steady.pure _

theorem steady_processDingtalkPairingCommand (inbound : DingTalkInboundMessage) :
    SteadyHandler (.processDingtalkPairingCommand inbound) .resting := by
  unfold Handler.processDingtalkPairingCommand
  cases inbound.text.bind resolvePairingCommand with
  | none => exact Program.Steady.pure _
  | some code =>
    cases inbound.senderUserId.or inbound.senderStaffId with
    | none => exact Program.Steady.pure _
    | some userId =>
      refine Program.Keeps.bind (keeps_pairing (keeps_confirmPairing code userId)) ?_
      intro confirmed after confirming
      cases confirmed with
      | error error => exact Program.Keeps.pure confirming
      | ok device =>
        obtain rfl : after = .confirmed device.id userId := confirming
        refine Program.Keeps.bind (keeps_setBinding _ _) ?_
        rintro _ _ rfl
        exact Program.Steady.pure _

theorem steady_cancelAccountPairing (requestId : String) :
    SteadyHandler (.cancelAccountPairing requestId) midway := by
  refine (steady_pairing (steady_within (steady_look _))).bind fun found => ?_
  cases found with
  | error error => exact Program.Steady.pure _
  | ok request =>
    refine (steady_query _).bind fun authorized => ?_
    cases authorized with
    | error refused => exact Program.Steady.pure _
    | ok =>
      refine (steady_pairing (steady_cancelPairing requestId)).bind fun cancelled => ?_
      cases cancelled <;> exact Program.Steady.pure _

theorem steady_pendingPairing (nodeId : String) :
    SteadyHandler (.pendingPairing nodeId) midway := by
  refine (steady_pairing (steady_getPairingStatus nodeId)).bind fun status => ?_
  split
  · exact Program.Steady.pure _
  · exact Program.Steady.pure _
  · refine (steady_pairing (steady_within (steady_look _))).bind fun requests => ?_
    exact Program.Steady.pure _

theorem steady_getAccountStatus (nodeId : String) :
    SteadyHandler (.getAccountStatus nodeId) midway := by
  refine (steady_query _).bind fun authorized => ?_
  cases authorized with
  | error refused => exact Program.Steady.pure _
  | ok =>
    refine (steady_query _).bind fun boundUserId => ?_
    refine (steady_pendingPairing nodeId).bind fun pending => ?_
    exact Program.Steady.pure _

theorem steady_deleteAccountBinding (nodeId : String) :
    SteadyHandler (.deleteAccountBinding nodeId) .resting := by
  refine (steady_query _).bind fun authorized => ?_
  cases authorized with
  | error refused => exact Program.Steady.pure _
  | ok =>
    refine Program.Keeps.bind (keeps_unbind nodeId) ?_
    rintro _ _ rfl
    refine Program.Keeps.bind (keeps_pairing (keeps_unpairDevice nodeId)) ?_
    rintro _ _ rfl
    exact Program.Steady.pure _

/-- The five handlers. -/
inductive Calls : Handler Unit → Prop
  | startAccountPairing (payload : StartPairingPayload) :
      Calls (Handler.startAccountPairing payload).discard
  | processDingtalkPairingCommand (inbound : DingTalkInboundMessage) :
      Calls (Handler.processDingtalkPairingCommand inbound).discard
  | cancelAccountPairing (requestId : String) :
      Calls (Handler.cancelAccountPairing requestId).discard
  | getAccountStatus (nodeId : String) : Calls (Handler.getAccountStatus nodeId).discard
  | deleteAccountBinding (nodeId : String) : Calls (Handler.deleteAccountBinding nodeId).discard

theorem steady_discard {handler : Handler α} (steady : SteadyHandler handler midway) :
    SteadyHandler handler.discard midway :=
  steady.bind fun _ => Program.Steady.pure ()

/-- A call that has returned is not between two changes. -/
theorem steady_of_calls {handler : Handler Unit} (calls : Calls handler) :
    SteadyHandler handler .resting := by
  cases calls with
  | startAccountPairing payload => exact steady_discard (steady_startAccountPairing payload)
  | processDingtalkPairingCommand inbound =>
    exact steady_discard (steady_processDingtalkPairingCommand inbound)
  | cancelAccountPairing requestId => exact steady_discard (steady_cancelAccountPairing requestId)
  | getAccountStatus nodeId => exact steady_discard (steady_getAccountStatus nodeId)
  | deleteAccountBinding nodeId => exact steady_discard (steady_deleteAccountBinding nodeId)

end Handlers

/-! ## One node -/

/-- What holds for a node while calls are where `crew` says: who has paired it is the last to
have confirmed it, who has unbound it finds it unbound, and the two do not meet. -/
structure Settles (nodeId : String) (crew : List Midway) (paired : Bool)
    (bound last : Option String) : Prop where
  confirmed : ∀ userId, .confirmed nodeId userId ∈ crew → paired = true ∧ last = some userId
  unbound : .unbound nodeId ∈ crew → bound = none ∧ ∀ userId, .confirmed nodeId userId ∉ crew
  settled : (∀ midway ∈ crew, midway.about nodeId = false) →
    ∀ userId, bound = some userId ↔ paired = true ∧ last = some userId

namespace Settles

variable {nodeId userId : String} {crew : List Midway} {paired : Bool} {bound last : Option String}
  {index : Nat} {midway after : Midway}

theorem about_confirmed : (Midway.confirmed nodeId userId).about nodeId = true :=
  decide_eq_true rfl

theorem about_unbound : (Midway.unbound nodeId).about nodeId = true := decide_eq_true rfl

theorem confirmed_elsewhere {other : String} (distinct : nodeId ≠ other) :
    (Midway.confirmed other userId).about nodeId = false := decide_eq_false distinct.symm

theorem unbound_elsewhere {other : String} (distinct : nodeId ≠ other) :
    (Midway.unbound other).about nodeId = false := decide_eq_false distinct.symm

/-- Whoever is about the node was so before. -/
theorem mem_of_mem_set (aside : after.about nodeId = false) {other : Midway}
    (about : other.about nodeId = true) (member : other ∈ crew.set index after) :
    other ∈ crew := by
  obtain old | rfl := List.mem_or_eq_of_mem_set member
  · exact old
  · cases aside.symm.trans about

/-- Nobody was about the node, if nobody is and the one who acted was not. -/
theorem silent_of_set (here : crew[index]? = some midway) (aside : midway.about nodeId = false)
    (silent : ∀ other ∈ crew.set index after, other.about nodeId = false) :
    ∀ other ∈ crew, other.about nodeId = false := by
  intro other member
  obtain ⟨place, found⟩ := List.mem_iff_getElem?.mp member
  by_cases same : index = place
  · subst same
    cases here.symm.trans found
    exact aside
  · refine silent other (List.mem_iff_getElem?.mpr ⟨place, ?_⟩)
    rwa [List.getElem?_set_ne same]

theorem start : Settles nodeId [] false none none :=
  ⟨nofun, nofun, fun _ _ => ⟨nofun, nofun⟩⟩

theorem spawn (settles : Settles nodeId crew paired bound last) :
    Settles nodeId (crew ++ [.resting]) paired bound last := by
  have earlier : ∀ other ∈ crew ++ [Midway.resting], other ≠ .resting → other ∈ crew := by
    intro other member distinct
    obtain old | new := List.mem_append.mp member
    · exact old
    · exact absurd (List.mem_singleton.mp new) distinct
  refine ⟨?_, ?_, ?_⟩
  · intro userId member
    exact settles.confirmed userId (earlier _ member nofun)
  · intro member
    obtain ⟨none, apart⟩ := settles.unbound (earlier _ member nofun)
    exact ⟨none, fun userId member => apart userId (earlier _ member nofun)⟩
  · intro silent
    exact settles.settled fun other member => silent other (List.mem_append_left _ member)

/-- A change of another node. -/
theorem elsewhere (settles : Settles nodeId crew paired bound last)
    (here : crew[index]? = some midway) (before : midway.about nodeId = false)
    (aside : after.about nodeId = false) :
    Settles nodeId (crew.set index after) paired bound last := by
  refine ⟨?_, ?_, ?_⟩
  · intro userId member
    exact settles.confirmed userId (mem_of_mem_set aside about_confirmed member)
  · intro member
    obtain ⟨none, apart⟩ := settles.unbound (mem_of_mem_set aside about_unbound member)
    exact ⟨none, fun userId member => apart userId (mem_of_mem_set aside about_confirmed member)⟩
  · intro silent
    exact settles.settled (silent_of_set here before silent)

theorem register (settles : Settles nodeId crew paired none last)
    (free : ∀ userId, .confirmed nodeId userId ∉ crew) : Settles nodeId crew false none last :=
  ⟨fun userId member => absurd member (free userId), settles.unbound, fun _ _ => ⟨nofun, nofun⟩⟩

theorem pair (free : .unbound nodeId ∉ crew)
    (agree : ∀ earlier, .confirmed nodeId earlier ∈ crew → earlier = userId)
    (here : index < crew.length) :
    Settles nodeId (crew.set index (.confirmed nodeId userId)) true bound (some userId) := by
  refine ⟨?_, ?_, ?_⟩
  · intro other member
    obtain old | new := List.mem_or_eq_of_mem_set member
    · exact ⟨rfl, congrArg some (agree other old).symm⟩
    · cases new
      exact ⟨rfl, rfl⟩
  · intro member
    obtain old | new := List.mem_or_eq_of_mem_set member
    · exact absurd old free
    · cases new
  · intro silent
    cases (silent _ (List.mem_set here _)).symm.trans about_confirmed

theorem bind (settles : Settles nodeId crew paired bound last)
    (here : crew[index]? = some (.confirmed nodeId userId)) :
    Settles nodeId (crew.set index .resting) paired (some userId) last := by
  obtain ⟨rfl, rfl⟩ := settles.confirmed userId (List.mem_of_getElem? here)
  refine ⟨?_, ?_, ?_⟩
  · intro other member
    exact settles.confirmed other (mem_of_mem_set rfl about_confirmed member)
  · intro member
    have unbound := (settles.unbound (mem_of_mem_set rfl about_unbound member)).2
    exact absurd (List.mem_of_getElem? here) (unbound userId)
  · intro _ other
    simp

theorem unbind (free : ∀ userId, .confirmed nodeId userId ∉ crew) (here : index < crew.length) :
    Settles nodeId (crew.set index (.unbound nodeId)) paired none last := by
  have unconfirmed : ∀ userId, .confirmed nodeId userId ∉ crew.set index (.unbound nodeId) := by
    intro userId member
    obtain old | new := List.mem_or_eq_of_mem_set member
    · exact free userId old
    · cases new
  refine ⟨?_, fun _ => ⟨rfl, unconfirmed⟩, ?_⟩
  · intro userId member
    exact absurd member (unconfirmed userId)
  · intro silent
    cases (silent _ (List.mem_set here _)).symm.trans about_unbound

theorem unpair (settles : Settles nodeId crew paired bound last)
    (here : crew[index]? = some (.unbound nodeId)) :
    Settles nodeId (crew.set index .resting) false bound last := by
  obtain ⟨rfl, apart⟩ := settles.unbound (List.mem_of_getElem? here)
  refine ⟨?_, ?_, fun _ _ => ⟨nofun, nofun⟩⟩
  · intro other member
    exact absurd (mem_of_mem_set rfl about_confirmed member) (apart other)
  · intro _
    exact ⟨rfl, fun other member => apart other (mem_of_mem_set rfl about_confirmed member)⟩

end Settles

/-! ## All interleavings -/

abbrev AccountPool := Pool AccountState AccountEnv Note Unit Midway

/-- The expiry task of a request, which has the requests and the codes for itself. -/
inductive Expires (s : AccountState) : AccountState → Prop
  | expire (requestId : String)
      (requests : (s.pairing.locks .requests).admits .write = true)
      (codes : (s.pairing.locks .codes).admits .write = true) :
      Expires s { s with
        pairing := { s.pairing with manager := s.pairing.manager.expireRequest requestId } }

/-- The user whose confirmation paired the node last. -/
def lastConfirmation (nodeId : String) :
    Pool.Ledger AccountState AccountEnv Note Midway (Option String) where
  opening := none
  enter last _ note _ s _ :=
    match note with
    | .pairing (.pair deviceId userId) =>
      if deviceId = nodeId ∧ deviceId ∈ s.pairing.manager.devices then some userId else last
    | _ => last

/-- Nobody starts to pair a node that is bound or about to be, confirms a node that is being
unbound or that another user is about to be bound to, or unbinds a node that is about to be
bound. -/
def Clear (nodeId : String) (s : AccountPool) : Note → Prop
  | .pairing (.register other) => other = nodeId → s.shared.bindings.getUserId nodeId = none ∧
      ∀ thread ∈ s.threads, ∀ userId, thread.seen ≠ .confirmed nodeId userId
  | .pairing (.pair other userId) => other = nodeId → ∀ thread ∈ s.threads,
      thread.seen ≠ .unbound nodeId ∧
        ∀ earlier, thread.seen = .confirmed nodeId earlier → earlier = userId
  | .unbind other => other = nodeId →
      ∀ thread ∈ s.threads, ∀ userId, thread.seen ≠ .confirmed nodeId userId
  | _ => True

def KeepsClear (nodeId : String) (s : AccountPool) :
    PoolLabel AccountState AccountEnv Note Unit → Prop
  | .run index _ => ∀ note ready act next seen,
      s.threads[index]? = some ⟨.act note ready act next, seen⟩ → Clear nodeId s note
  | _ => True

/-- A new pairing manager, and the bindings of the configuration. -/
def Starts (seeds : List (String × String)) (s : AccountState) : Prop :=
  ∃ pairingTtl, s = ⟨⟨.new pairingTtl, fun _ => .free⟩, .new seeds⟩

/-- All interleavings of calls, with the last confirmation of a node. -/
def server (seeds : List (String × String)) (nodeId : String)
    (guard : AccountPool → PoolLabel AccountState AccountEnv Note Unit → Prop) :
    System (AccountPool × Option String) (PoolLabel AccountState AccountEnv Note Unit) :=
  Pool.accounted updates Calls Expires (Starts seeds) guard (lastConfirmation nodeId)

/-- Every call keeps its contract, and the node is as its calls have left it. -/
structure Agreement (nodeId : String) (s : AccountPool) (last : Option String) : Prop where
  lawful : ∀ thread ∈ s.threads,
    thread.program.Keeps updates accountContract thread.seen fun _ after => after = .resting
  keyed : s.shared.pairing.manager.Keyed
  settles : Settles nodeId (s.threads.map Thread.seen)
    (s.shared.pairing.manager.isPaired nodeId) (s.shared.bindings.getUserId nodeId) last

namespace Agreement

variable {nodeId : String} {s : AccountPool} {last : Option String} {index : Nat}

theorem start {seeds : List (String × String)} (unseeded : ∀ seed ∈ seeds, seed.1 ≠ nodeId)
    (nobody : s.threads = []) (starts : Starts seeds s.shared) : Agreement nodeId s none := by
  obtain ⟨pairingTtl, same⟩ := starts
  refine ⟨by simp [nobody], ?_, ?_⟩
  · rw [same]
    intro deviceId device found
    cases found
  · rw [same, nobody, NotificationBindingManager.getUserId_new nodeId unseeded]
    exact Settles.start

theorem spawn (agreement : Agreement nodeId s last) {handler : Handler Unit}
    (calls : Calls handler) :
    Agreement nodeId { s with threads := s.threads ++ [⟨handler, .resting⟩] } last := by
  refine ⟨?_, agreement.keyed, ?_⟩
  · refine List.forall_mem_append.mpr ⟨agreement.lawful, ?_⟩
    intro thread member
    rw [List.mem_singleton.mp member]
    exact steady_of_calls calls
  · rw [List.map_append]
    exact agreement.settles.spawn

theorem background (agreement : Agreement nodeId s last) {shared : AccountState}
    (expires : Expires s.shared shared) : Agreement nodeId { s with shared } last := by
  obtain ⟨requestId, -, -⟩ := expires
  have devices : (s.shared.pairing.manager.expireRequest requestId).devices =
      s.shared.pairing.manager.devices := by
    unfold DevicePairingManager.expireRequest
    split
    · rfl
    · split <;> rfl
  refine ⟨agreement.lawful, ?_, ?_⟩
  · unfold DevicePairingManager.Keyed
    rw [devices]
    exact agreement.keyed
  · unfold DevicePairingManager.isPaired
    rw [devices]
    exact agreement.settles

/-- What an action does to the node. -/
theorem settles_run (agreement : Agreement nodeId s last) {program : Handler Unit}
    {midway : Midway} {note : Note} {env : AccountEnv} {t : AccountState}
    (here : s.threads[index]? = some ⟨program, midway⟩) (clear : Clear nodeId s note)
    (changes : Changes midway note s.shared t) :
    Settles nodeId
      ((s.threads.map Thread.seen).set index (midway.see s.shared.pairing.manager note))
      (t.pairing.manager.isPaired nodeId) (t.bindings.getUserId nodeId)
      ((lastConfirmation nodeId).enter last midway note env s.shared t) := by
  have settles := agreement.settles
  have seen : (s.threads.map Thread.seen)[index]? = some midway := by
    rw [List.getElem?_map, here]
    rfl
  have inside : index < (s.threads.map Thread.seen).length := (List.getElem?_eq_some_iff.mp seen).1
  have stays : Settles nodeId ((s.threads.map Thread.seen).set index midway)
      (s.shared.pairing.manager.isPaired nodeId) (s.shared.bindings.getUserId nodeId) last := by
    have same : (s.threads.map Thread.seen).set index midway = s.threads.map Thread.seen := by
      obtain ⟨within, value⟩ := List.getElem?_eq_some_iff.mp seen
      rw [← value, List.set_getElem_self]
    rw [same]
    exact settles
  have unmet : ∀ midway', (∀ thread ∈ s.threads, thread.seen ≠ midway') →
      midway' ∉ s.threads.map Thread.seen := by
    intro midway' never member
    obtain ⟨thread, present, same⟩ := List.mem_map.mp member
    exact never thread present same
  have due := changes.due
  rw [changes.paired, changes.bindings]
  cases note with
  | work => exact stays
  | bind other userId =>
    obtain rfl : midway = .confirmed other userId := due
    rw [Note.bindings, NotificationBindingManager.getUserId_setBinding]
    by_cases same : nodeId = other
    · subst same
      rw [if_pos rfl]
      exact settles.bind seen
    · rw [if_neg same]
      exact settles.elsewhere seen (Settles.confirmed_elsewhere same) rfl
  | unbind other =>
    obtain rfl : midway = .resting := due
    rw [Note.bindings, NotificationBindingManager.getUserId_unbind]
    by_cases same : nodeId = other
    · subst same
      rw [if_pos rfl]
      refine Settles.unbind (fun userId => unmet _ ?_) inside
      exact fun thread member => clear rfl thread member userId
    · rw [if_neg same]
      exact settles.elsewhere seen rfl (Settles.unbound_elsewhere same)
  | pairing note =>
    cases note with
    | register other =>
      rw [Note.paired]
      by_cases same : nodeId = other
      · subst same
        obtain ⟨unbound, free⟩ := clear rfl
        rw [if_pos rfl]
        have none : (Note.pairing (.register nodeId)).bindings s.shared.bindings =
          s.shared.bindings := rfl
        rw [none, unbound]
        rw [unbound] at stays
        refine stays.register fun userId member => ?_
        obtain old | rfl := List.mem_or_eq_of_mem_set member
        · exact unmet _ (fun thread present => free thread present userId) old
        · exact free _ (List.mem_of_getElem? here) userId rfl
      · rw [if_neg same]
        exact stays
    | pair other userId =>
      obtain rfl : midway = .resting := due
      rw [Note.paired]
      dsimp only [Midway.see, lastConfirmation]
      by_cases present : other ∈ s.shared.pairing.manager.devices
      · by_cases same : nodeId = other
        · subst same
          simp only [present, and_self, if_true]
          refine Settles.pair (unmet _ fun thread member => (clear rfl thread member).1) ?_
            inside
          intro earlier member
          obtain ⟨thread, known, same⟩ := List.mem_map.mp member
          exact (clear rfl thread known).2 earlier same
        · simp only [present, same, Ne.symm same, false_and, if_false, if_true]
          exact settles.elsewhere seen rfl (Settles.confirmed_elsewhere same)
      · simp only [present, and_false, if_false]
        exact stays
    | unpair other =>
      obtain rfl : midway = .unbound other := due
      rw [Note.paired]
      by_cases same : nodeId = other
      · subst same
        rw [if_pos rfl]
        exact settles.unpair seen
      · rw [if_neg same]
        exact settles.elsewhere seen (Settles.unbound_elsewhere same) rfl
    | _ => exact stays

theorem run (agreement : Agreement nodeId s last) {note : Note} {ready : AccountState → Bool}
    {act : AccountEnv → AccountState → AccountState}
    {next : AccountEnv → AccountState → Handler Unit} {midway : Midway} (env : AccountEnv)
    (here : s.threads[index]? = some ⟨.act note ready act next, midway⟩)
    (enabled : ready s.shared = true) (clear : Clear nodeId s note) :
    Agreement nodeId
      { shared := act env s.shared
        threads := s.threads.set index
          ⟨next env s.shared, midway.see s.shared.pairing.manager note⟩ }
      ((lastConfirmation nodeId).enter last midway note env s.shared (act env s.shared)) := by
  have member := List.mem_of_getElem? here
  obtain ⟨changes, later⟩ :=
    (agreement.lawful _ member).2 env s.shared enabled agreement.keyed trivial
  refine ⟨?_, changes.keyed, ?_⟩
  · intro thread present
    obtain old | rfl := List.mem_or_eq_of_mem_set present
    · exact agreement.lawful thread old
    · exact later
  · rw [List.map_set]
    exact agreement.settles_run here clear changes

theorem of_reachable {seeds : List (String × String)}
    (unseeded : ∀ seed ∈ seeds, seed.1 ≠ nodeId)
    (reached : (server seeds nodeId (KeepsClear nodeId)).Reachable (s, last)) :
    Agreement nodeId s last := by
  refine reached.invariant (P := fun s => Agreement nodeId s.1 s.2) ?_ ?_
  · rintro ⟨s, last⟩ ⟨⟨nobody, starts⟩, rfl⟩
    exact Agreement.start unseeded nobody starts
  · rintro ⟨s, last⟩ label ⟨t, _⟩ agreement ⟨⟨clear, step⟩, rfl⟩
    dsimp only at agreement clear step ⊢
    cases step with
    | spawn program calls => exact agreement.spawn calls
    | run index env note ready act next midway here enabled =>
      rw [Pool.book_run here]
      exact agreement.run env here enabled (clear _ _ _ _ _ here)
    | background shared expires => exact agreement.background expires

/-- A call that has returned is between no changes. -/
theorem resting (agreement : Agreement nodeId s last)
    (idle : ∀ thread ∈ s.threads, thread.program.isDone = true) :
    ∀ midway ∈ s.threads.map Thread.seen, midway.about nodeId = false := by
  intro midway member
  obtain ⟨⟨program, seen⟩, present, rfl⟩ := List.mem_map.mp member
  have lawful := agreement.lawful _ present
  have done := idle _ present
  cases program with
  | done value =>
    obtain rfl : seen = .resting := lawful
    rfl
  | act => cases done

end Agreement

/-- While no call is in progress, a node is bound to a user exactly if its device is paired and
the user was the last to confirm it. -/
theorem binding_agrees {seeds : List (String × String)} {nodeId : String} {s : AccountPool}
    {last : Option String} (unseeded : ∀ seed ∈ seeds, seed.1 ≠ nodeId)
    (reached : (server seeds nodeId (KeepsClear nodeId)).Reachable (s, last))
    (idle : ∀ thread ∈ s.threads, thread.program.isDone = true) (userId : String) :
    s.shared.bindings.getUserId nodeId = some userId ↔
      s.shared.pairing.manager.isPaired nodeId = true ∧ last = some userId := by
  have agreement := Agreement.of_reachable unseeded reached
  exact agreement.settles.settled (agreement.resting idle) userId

/-! ### A node that is paired, paired again and unbound -/

def sampleEnv (uuid : String) : AccountEnv := ⟨⟨20, uuid, 0, []⟩, .ok ()⟩

def sampleCalls : List (Handler Unit) :=
  [(Handler.startAccountPairing ⟨"node-1", none, none⟩).discard,
    (Handler.processDingtalkPairingCommand ⟨some "pair 000000", some "user-1", none⟩).discard,
    (Handler.deleteAccountBinding "node-1").discard,
    (Handler.startAccountPairing ⟨"node-1", none, none⟩).discard]

/-- The first calls of the sample have begun. -/
def samplePool (count : Nat) : AccountPool where
  shared := ⟨⟨.new 300, fun _ => .free⟩, .new []⟩
  threads := (sampleCalls.take count).map (⟨·, updates.start⟩)

def sampleSteps (index count : Nat) (uuid : String) : List (Nat × AccountEnv) :=
  List.replicate count (index, sampleEnv uuid)

/-- Whether the sample keeps clear, by what is about to happen to the node. -/
def admitsClear (s : AccountPool) (note : Note) (_ : AccountEnv) : Bool :=
  match note with
  | .pairing (.register _) => (s.shared.bindings.getUserId "node-1").isNone &&
      s.threads.all fun thread => thread.seen = .resting
  | .pairing (.pair _ _) | .unbind _ => s.threads.all fun thread => thread.seen = .resting
  | _ => true

theorem keepsClear_of_admitsClear (s : AccountPool) (index : Nat) (env : AccountEnv)
    (passed : Pool.noteCheck id admitsClear s index env = true) :
    KeepsClear "node-1" s (.run index env) := by
  intro note ready act next seen here
  have admitted := Pool.admits_of_noteCheck passed here
  have rests : (s.threads.all fun thread => decide (thread.seen = .resting)) = true →
      ∀ thread ∈ s.threads, thread.seen = .resting := by
    intro all thread member
    exact of_decide_eq_true (List.all_eq_true.mp all thread member)
  unfold Clear
  split
  · obtain ⟨unbound, all⟩ := Bool.and_eq_true_iff.mp admitted
    refine fun _ => ⟨Option.isNone_iff_eq_none.mp unbound, ?_⟩
    intro thread member userId
    rw [rests all thread member]
    exact nofun
  · intro _ thread member
    rw [rests admitted thread member]
    exact ⟨nofun, nofun⟩
  · intro _ thread member userId
    rw [rests admitted thread member]
    exact nofun
  · trivial

/-- Whether all calls have returned, the user the node is bound to, whether its device is
paired, and the last confirmation. -/
def outcome (s : AccountPool × Option String) : Bool × Option String × Bool × Option String :=
  (s.1.threads.all fun thread => thread.program.isDone,
    s.1.shared.bindings.getUserId "node-1", s.1.shared.pairing.manager.isPaired "node-1", s.2)

/-- The outcome of the first calls of the sample. -/
def sampleOutcome (admits : AccountPool → Note → AccountEnv → Bool) (count : Nat)
    (steps : List (Nat × AccountEnv)) : Option (Bool × Option String × Bool × Option String) :=
  (Pool.accountAll updates (lastConfirmation "node-1") admits (samplePool count, none) steps).map
    outcome

/-- What a script asks of the accounts. -/
abbrev AccountMove := Pool.Move Calls Expires

def accountPlayer : (Pool.system updates Calls Expires (Starts [])).Player AccountMove :=
  Pool.player updates Calls Expires (Starts [])

/-- The node is watched. -/
def serverPlayer {guard : AccountPool → PoolLabel AccountState AccountEnv Note Unit → Prop}
    (player : ((Pool.system updates Calls Expires (Starts [])).restrict guard).Player AccountMove) :
    (server [] "node-1" guard).Player AccountMove :=
  player.observe _ _

def emptyServer : AccountPool × Option String := (⟨⟨⟨.new 300, fun _ => .free⟩, .new []⟩, []⟩, none)

/-- The calls of the sample. -/
def sampleScript : List AccountMove :=
  [.spawn _ (.startAccountPairing ⟨"node-1", none, none⟩),
    .spawn _ (.processDingtalkPairingCommand ⟨some "pair 000000", some "user-1", none⟩),
    .spawn _ (.deleteAccountBinding "node-1"),
    .spawn _ (.startAccountPairing ⟨"node-1", none, none⟩)]

theorem binding_agrees_sample :
    ∃ s, (server [] "node-1" (KeepsClear "node-1")).Reachable (s, some "user-1") ∧
      s.shared.pairing.manager.isPaired "node-1" = true ∧
      (s.shared.bindings.getUserId "node-1" = some "user-1" ↔
        s.shared.pairing.manager.isPaired "node-1" = true ∧
          (some "user-1" : Option String) = some "user-1") := by
  obtain ⟨⟨s, _⟩, reached, idle, rfl, paired⟩ := (serverPlayer (Pool.checked accountPlayer _
    keepsClear_of_admitsClear (fun _ _ => trivial) fun _ _ => trivial)).exists_reachable
    (s := emptyServer) (.init ⟨⟨rfl, 300, rfl⟩, rfl⟩) (sampleScript.take 2 ++
      Pool.running (sampleSteps 0 11 "request-1" ++ sampleSteps 1 16 ""))
    (fun s => (∀ thread ∈ s.1.threads, thread.program.isDone = true) ∧ s.2 = some "user-1" ∧
      s.1.shared.pairing.manager.isPaired "node-1" = true) (by decide)
  have unseeded : ∀ seed ∈ ([] : List (String × String)), seed.1 ≠ "node-1" :=
    fun seed member => absurd member List.not_mem_nil
  exact ⟨s, reached, paired, binding_agrees unseeded reached idle "user-1"⟩

/-- Pairing is started for a node that is bound: all calls return, and the node is bound and
not paired. So it is when a node is unbound after a confirmation has paired its device and
before it binds the node. -/
theorem binding_disagrees :
    (∃ s, (server [] "node-1" fun _ _ => True).Reachable (s, some "user-1") ∧
      (∀ thread ∈ s.threads, thread.program.isDone = true) ∧
      ¬ (s.shared.bindings.getUserId "node-1" = some "user-1" ↔
        s.shared.pairing.manager.isPaired "node-1" = true ∧
          (some "user-1" : Option String) = some "user-1")) ∧
      sampleOutcome (fun _ _ _ => true) 3 (sampleSteps 0 11 "request-1" ++
        sampleSteps 1 15 "" ++ sampleSteps 2 5 "" ++ sampleSteps 1 1 "") =
          some (true, some "user-1", false, some "user-1") := by
  obtain ⟨⟨s, _⟩, reached, idle, rfl, bound, unpaired⟩ :=
    (serverPlayer accountPlayer.any).exists_reachable (s := emptyServer)
    (.init ⟨⟨rfl, 300, rfl⟩, rfl⟩) (sampleScript ++ Pool.running (sampleSteps 2 5 "" ++
      sampleSteps 0 11 "request-1" ++ sampleSteps 1 16 "" ++ sampleSteps 3 11 "request-2"))
    (fun s => (∀ thread ∈ s.1.threads, thread.program.isDone = true) ∧ s.2 = some "user-1" ∧
      s.1.shared.bindings.getUserId "node-1" = some "user-1" ∧
      s.1.shared.pairing.manager.isPaired "node-1" = false) (by decide)
  refine ⟨⟨s, reached, idle, ?_⟩, by decide⟩
  rw [bound, unpaired]
  decide

end UHorse.Hub.Web.Accounts
