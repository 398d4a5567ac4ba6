import UHorse.Agent.SessionKey
import UHorse.Lib.Automaton
import UHorse.Lib.Text
import UHorse.Security.PairingProcess

/-!
# Pairing a node and binding its notifications

A node is paired with a user in the pairing manager, and its notifications go to the user it
is bound to. The handlers of the account API and of the pairing command update both, one after
the other, over the locks of the pairing manager; what the API's token check says comes from
outside.

Only a server with a pairing manager is modelled: without one nothing is ever bound.
-/

namespace UHorse.Hub.Web.Accounts

open UHorse.Lib UHorse.Lib.Text UHorse.Security.Pairing

/-! ## Notification bindings -/

inductive ChannelType
  | telegram
  | slack
  | discord
  | whatsApp
  | dingTalk
  | feishu
  | weWork
deriving DecidableEq

structure NotificationBinding where
  channelType : ChannelType
  recipient : String
deriving DecidableEq

/-- The seeds come from the configuration; what is bound at run time goes before them, and
`none` is a node that was unbound. -/
structure NotificationBindingManager where
  seedBindings : HashMap String NotificationBinding
  runtimeBindings : HashMap String (Option NotificationBinding)

namespace NotificationBindingManager

def new (seeds : List (String × String)) : NotificationBindingManager where
  seedBindings := seeds.foldl (fun bindings seed => bindings.insert seed.1 ⟨.dingTalk, seed.2⟩) ∅
  runtimeBindings := ∅

def getBinding (manager : NotificationBindingManager) (nodeId : String) :
    Option NotificationBinding :=
  match manager.runtimeBindings.lookup nodeId with
  | some binding => binding
  | none => manager.seedBindings.lookup nodeId

def getUserId (manager : NotificationBindingManager) (nodeId : String) : Option String :=
  ((manager.getBinding nodeId).filter fun binding => binding.channelType = .dingTalk).map
    NotificationBinding.recipient

def setChannelBinding (manager : NotificationBindingManager) (nodeId : String)
    (channelType : ChannelType) (recipient : String) : NotificationBindingManager :=
  { manager with
    runtimeBindings := manager.runtimeBindings.insert nodeId (some ⟨channelType, recipient⟩) }

def setBinding (manager : NotificationBindingManager) (nodeId userId : String) :
    NotificationBindingManager :=
  manager.setChannelBinding nodeId .dingTalk userId

def unbind (manager : NotificationBindingManager) (nodeId : String) :
    NotificationBindingManager :=
  { manager with runtimeBindings := manager.runtimeBindings.insert nodeId none }

section Lookup

variable (manager : NotificationBindingManager) (nodeId userId other : String)

theorem getUserId_setBinding :
    (manager.setBinding nodeId userId).getUserId other =
      if other = nodeId then some userId else manager.getUserId other := by
  unfold getUserId getBinding setBinding setChannelBinding
  by_cases same : other = nodeId
  · simp only [HashMap.lookup_insert_ite, if_pos same]
    rfl
  · simp only [HashMap.lookup_insert_ite, if_neg same]

theorem getUserId_unbind :
    (manager.unbind nodeId).getUserId other =
      if other = nodeId then none else manager.getUserId other := by
  unfold getUserId getBinding unbind
  by_cases same : other = nodeId
  · simp only [HashMap.lookup_insert_ite, if_pos same]
    rfl
  · simp only [HashMap.lookup_insert_ite, if_neg same]

/-- What is not seeded is not bound at the start. -/
theorem getUserId_new {seeds : List (String × String)}
    (unseeded : ∀ seed ∈ seeds, seed.1 ≠ nodeId) : (new seeds).getUserId nodeId = none := by
  have missing : (new seeds).seedBindings.lookup nodeId = none := by
    rw [new]
    induction seeds using List.reverseRecOn with
    | nil => exact Finmap.lookup_empty _
    | append_singleton seeds seed ih =>
      have distinct : nodeId ≠ seed.1 := (unseeded seed (by simp)).symm
      rw [List.foldl_append, List.foldl_cons, List.foldl_nil,
        HashMap.lookup_insert_ite, if_neg distinct]
      exact ih fun other member => unseeded other (List.mem_append_left _ member)
  have fresh : (new seeds).runtimeBindings.lookup nodeId = none := Finmap.lookup_empty _
  rw [getUserId, getBinding, fresh]
  dsimp only
  rw [missing]
  rfl

end Lookup

end NotificationBindingManager

/-! ## Handlers -/

structure AccountState where
  pairing : Guarded
  bindings : NotificationBindingManager

inductive StatusCode
  | ok
  | badRequest
  | unauthorized
  | forbidden
  | serviceUnavailable
deriving DecidableEq

abbrev ApiResponse (α : Type) := StatusCode × Except String α

/-- What the pairing manager reads, and what `authorize_account_api_node` answers. -/
structure AccountEnv where
  reading : Reading
  authorization : Except (StatusCode × String) Unit

inductive Note
  | pairing (note : Security.Pairing.Note)
  | bind (nodeId userId : String)
  | unbind (nodeId : String)
  | work
deriving DecidableEq

abbrev Handler (α : Type) := Program AccountState AccountEnv Note α

structure PairingRequestResponse where
  requestId : String
  nodeId : String
  nodeName : String
  deviceType : String
  pairingCode : String
  status : String
  createdAt : Nat
  expiresAt : Nat
  boundUserId : Option String

structure AccountStatusResponse where
  nodeId : String
  pairingEnabled : Bool
  boundUserId : Option String
  pairing : Option PairingRequestResponse

def pairingStatusLabel : PairingStatus → String
  | .pending => "pending"
  | .awaitingConfirmation => "awaiting_confirmation"
  | .paired => "paired"
  | .rejected => "rejected"
  | .expired => "expired"
  | .cancelled => "cancelled"

def pairingRequestResponse (request : PairingRequest) : PairingRequestResponse where
  requestId := request.requestId
  nodeId := request.deviceId
  nodeName := request.deviceName
  deviceType := request.deviceType
  pairingCode := request.pairingCode
  status := pairingStatusLabel request.status
  createdAt := request.createdAt
  expiresAt := request.expiresAt
  boundUserId := request.userId

def displayPairingError : PairingError → String
  | .internalError message => "Internal error: " ++ message
  | .deviceNotPaired deviceId => "Device not paired: " ++ deviceId

structure StartPairingPayload where
  nodeId : String
  nodeName : Option String
  deviceType : Option String

/-- What the pairing command reads of a message. -/
structure DingTalkInboundMessage where
  text : Option String
  senderUserId : Option String
  senderStaffId : Option String

/-- Six ASCII digits. -/
def isPairingCode (text : List Char) : Bool := text.length = 6 && text.all Char.isDigit

def resolvePairingCommand (text : String) : Option String :=
  let trimmed := trim Agent.isWhitespace text.toList
  if isPairingCode trimmed then some (String.ofList trimmed)
  else
    let rest := (trimmed.dropPrefix? "绑定码".toList).or
      ((trimmed.dropPrefix? "pair".toList).or (trimmed.dropPrefix? "bind".toList))
    let normalized := match rest with
      | some rest => trim Agent.isWhitespace rest
      | none => trimmed
    if isPairingCode normalized then some (String.ofList normalized) else none

def saysExpired (message : String) : Bool := "expired".toList <:+: message.toList

def saysInvalid (message : String) : Bool := "Invalid pairing code".toList <:+: message.toList

def failureReply (error : PairingError) : String :=
  let message := displayPairingError error
  if saysExpired message then "绑定失败：绑定码已过期，请在桌面端重新发起绑定。"
  else if saysInvalid message then "绑定失败：绑定码无效，请检查后重试。"
  else "绑定失败：" ++ message

namespace Handler

def pairing {α : Type} (process : Process α) : Handler α :=
  process.zoom AccountState.pairing (fun pairing s => { s with pairing }) AccountEnv.reading
    .pairing

def authorizeAccountApiNode : Handler (Except (StatusCode × String) Unit) :=
  Program.query .work fun env _ => env.authorization

def setBinding (nodeId userId : String) : Handler Unit :=
  Program.update (.bind nodeId userId)
    (fun _ s => { s with bindings := s.bindings.setBinding nodeId userId }) fun _ _ => ()

def unbind (nodeId : String) : Handler Unit :=
  Program.update (.unbind nodeId)
    (fun _ s => { s with bindings := s.bindings.unbind nodeId }) fun _ _ => ()

def getUserId (nodeId : String) : Handler (Option String) :=
  Program.query .work fun _ s => s.bindings.getUserId nodeId

def startAccountPairing (payload : StartPairingPayload) :
    Handler (ApiResponse PairingRequestResponse) := do
  let authorized ← authorizeAccountApiNode
  match authorized with
  | .error (status, message) => pure (status, .error message)
  | .ok _ => do
      let request ← pairing (.initiatePairing payload.nodeId
        (payload.nodeName.getD payload.nodeId) (payload.deviceType.getD "desktop"))
      pure (.ok, .ok (pairingRequestResponse request))

def processDingtalkPairingCommand (inbound : DingTalkInboundMessage) :
    Handler (Except String (Option String)) :=
  match inbound.text.bind resolvePairingCommand with
  | none => pure (.ok none)
  | some code =>
    match inbound.senderUserId.or inbound.senderStaffId with
    | none => pure (.error "DingTalk sender identity is missing")
    | some userId => do
        let confirmed ← pairing (.confirmPairing code userId)
        match confirmed with
        | .ok device => do
            setBinding device.id userId
            pure (.ok (some ("绑定成功，设备 " ++ device.name ++ " 已关联当前 DingTalk 账号。")))
        | .error error => pure (.ok (some (failureReply error)))

def cancelAccountPairing (requestId : String) : Handler (ApiResponse String) := do
  let found ← pairing (.getPairingRequest requestId)
  match found with
  | .error error => pure (.badRequest, .error (displayPairingError error))
  | .ok _ => do
      let authorized ← authorizeAccountApiNode
      match authorized with
      | .error (status, message) => pure (status, .error message)
      | .ok _ => do
          let cancelled ← pairing (.cancelPairing requestId)
          match cancelled with
          | .error error => pure (.badRequest, .error (displayPairingError error))
          | .ok _ => pure (.ok, .ok "Pairing cancelled")

/-- The first pending request of a node. -/
def pendingOf (nodeId : String) (requests : List PairingRequest) : Option PairingRequestResponse :=
  (requests.find? fun request => request.deviceId = nodeId).map pairingRequestResponse

def pendingPairing (nodeId : String) : Handler (Option PairingRequestResponse) := do
  let status ← pairing (.getPairingStatus nodeId)
  match status with
  | .error _ => pure none
  | .ok .paired => pure none
  | .ok _ => do
      let requests ← pairing .listPendingRequests
      pure (pendingOf nodeId requests)

def getAccountStatus (nodeId : String) : Handler (ApiResponse AccountStatusResponse) := do
  let authorized ← authorizeAccountApiNode
  match authorized with
  | .error (status, message) => pure (status, .error message)
  | .ok _ => do
      let boundUserId ← getUserId nodeId
      let pending ← pendingPairing nodeId
      pure (.ok, .ok ⟨nodeId, true, boundUserId, pending⟩)

def deleteAccountBinding (nodeId : String) : Handler (ApiResponse String) := do
  let authorized ← authorizeAccountApiNode
  match authorized with
  | .error (status, message) => pure (status, .error message)
  | .ok _ => do
      unbind nodeId
      let _ ← pairing (.unpairDevice nodeId)
      pure (.ok, .ok "Binding removed")

end Handler

end UHorse.Hub.Web.Accounts
