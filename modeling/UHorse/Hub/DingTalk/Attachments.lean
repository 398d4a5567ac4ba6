import UHorse.Agent.SessionKey
import UHorse.Hub.DingTalk.Handlers
import UHorse.Node.Permission

/-!
# Pending attachments

A DingTalk message that says nothing by itself leaves its attachments in the state of its session,
where the next message that says something takes them. The state is read and saved as a whole, in
one file for each agent scope. Attachments are read, taken and left before the lane of the session
is taken.

Which scopes there are and which one is resolved is left to the environment, as are the planner and
the speech recognition. Of the metadata, only what concerns attachments is modelled.
-/

namespace UHorse.Hub.DingTalk.Attachments

open UHorse.Agent UHorse.Lib UHorse.Node UHorse.Protocol

/-! ## Attachments -/

structure PendingDingTalkAttachment where
  kind : String
  summary : String
  fileName : Option String
  downloadCode : Option String
deriving DecidableEq

structure DingTalkInboundAttachment where
  kind : String
  fileName : Option String
  downloadCode : Option String
  recognition : Option String
  caption : Option String

/-- Structured content comes with its `kind`, if that is a text, and with what it serializes to. -/
inductive MessageContent
  | text (text : String)
  | image (caption : Option String)
  | audio
  | structured (kind : Option String) (serialized : String)

structure DingTalkInboundMessage where
  content : MessageContent
  attachments : List DingTalkInboundAttachment

/-- The text, trimmed, unless nothing is left of it. -/
def trimmed (text : Option String) : Option String := nonEmpty (text.map trim)

/-- The text as it is, unless it is blank. -/
def unlessBlank (text : Option String) : Option String := text.filter fun text => trim text ≠ ""

def inboundSummary (attachment : DingTalkInboundAttachment) : String :=
  match attachment.kind with
  | "image" =>
    let base := ((unlessBlank attachment.fileName).map fun name => "图片（" ++ name ++ "）").getD "图片"
    match trimmed attachment.caption with
    | some caption => base ++ "：" ++ caption
    | none => base
  | "file" => ((unlessBlank attachment.fileName).map fun name => "文件（" ++ name ++ "）").getD "文件"
  | "audio" =>
    ((unlessBlank attachment.fileName).map fun name => "语音（" ++ name ++ "）").getD "语音消息"
  | kind => kind

def pendingAttachmentFromInboundAttachment (attachment : DingTalkInboundAttachment) :
    PendingDingTalkAttachment where
  kind := attachment.kind
  summary := inboundSummary attachment
  fileName := trimmed attachment.fileName
  downloadCode := trimmed attachment.downloadCode

def buildPendingAttachmentPrefix (attachments : List PendingDingTalkAttachment) : Option String :=
  if attachments.isEmpty then none
  else some ("用户刚刚发送了以下附件上下文：\n" ++
    "\n".intercalate (attachments.map fun attachment => "- " ++ attachment.summary) ++
    "\n\n用户本条补充说明：")

/-! ### Skill archives -/

def endsWith (text suffix : String) : Bool := decide (suffix.toList <:+ text.toList)

def startsWith (text start : String) : Bool := decide (start.toList <+: text.toList)

/-- Without a suffix of the lower-case text. -/
def stripSuffix (text suffix : String) : Option String :=
  if endsWith text.toLower suffix then some (.ofList (text.toList.rdrop suffix.length)) else none

def trimMatches (letter : Char) (text : String) : String :=
  .ofList ((text.toList.dropWhile (· = letter)).rdropWhile (· = letter))

def normalizePendingAttachmentPackageName (fileName : Option String) : Option String := do
  let fileName ← trimmed fileName
  let stem := ((stripSuffix fileName ".tar.gz").orElse fun _ =>
    (stripSuffix fileName ".tgz").orElse fun _ => stripSuffix fileName ".zip").getD fileName
  let stem := trimMatches '-' (trimMatches '_' (trimMatches '.' (trim stem)))
  if stem = "" then none else some stem

def isPendingSkillArchiveAttachment (attachment : PendingDingTalkAttachment) : Bool :=
  if attachment.kind ≠ "file" || attachment.downloadCode.isNone then false
  else attachment.fileName.any fun name =>
    let lower := (trim name).toLower
    endsWith lower ".zip" || endsWith lower ".tar.gz" || endsWith lower ".tgz"

def pendingAttachmentMatchesInstallQuery (text : String)
    (attachment : PendingDingTalkAttachment) : Bool :=
  let query := (trim text).toLower
  let package := ((normalizePendingAttachmentPackageName attachment.fileName).getD "").toLower
  let fileName := ((attachment.fileName.map trim).getD "").toLower
  query ≠ "" &&
    (fileName ≠ "" && query = fileName || package ≠ "" && query = package ||
      fileName ≠ "" && containsText query fileName || package ≠ "" && containsText query package)

def looksLikeDingtalkSkillInstallIntent (text : String) : Bool :=
  let trimmed := trim text
  let lower := trimmed.toLower
  trimmed ≠ "" &&
    (startsWith trimmed "安装技能" || startsWith trimmed "安装 " || containsText trimmed "帮我安装" ||
      containsText trimmed "请帮我安装" || containsText trimmed "请安装" ||
      startsWith lower "install skill" || startsWith lower "install " ||
      containsText lower "please install")

/-- The source type of these requests is the DingTalk attachment, their target the global layer. -/
structure SkillInstallRequest where
  package : String
  attachmentDownloadCode : Option String
  attachmentFileName : Option String

/-- The latest archive, or the latest one that the text names. -/
def buildPendingAttachmentInstallRequest (text : String)
    (attachments : List PendingDingTalkAttachment) : Option SkillInstallRequest := do
  let attachment ← attachments.reverse.find? fun attachment =>
    isPendingSkillArchiveAttachment attachment &&
      (looksLikeDingtalkSkillInstallIntent text ||
        pendingAttachmentMatchesInstallQuery text attachment)
  let package := (normalizePendingAttachmentPackageName attachment.fileName).getD "uploaded-skill"
  some ⟨package, attachment.downloadCode, attachment.fileName⟩

/-- What is left again when the archive of a request could not be installed. -/
def failedAttachment (request : SkillInstallRequest) : PendingDingTalkAttachment where
  kind := "file"
  summary := "文件（" ++ (request.attachmentFileName.map trim).getD request.package ++ "）"
  fileName := request.attachmentFileName
  downloadCode := request.attachmentDownloadCode

/-! ## Session states -/

/-- `pending` and `lastAudioTranscript` are entries of the metadata. -/
structure SessionState where
  createdAt : DateTime
  lastActive : DateTime
  messageCount : Nat
  pending : Option (List PendingDingTalkAttachment)
  lastAudioTranscript : Option String

namespace SessionState

def new (now : DateTime) : SessionState := ⟨now, now, 0, none, none⟩

def touch (state : SessionState) (now : DateTime) : SessionState := { state with lastActive := now }

def incrementMessages (state : SessionState) (now : DateTime) : SessionState :=
  { state with messageCount := state.messageCount + 1, lastActive := now }

def readPendingDingtalkAttachments (state : SessionState) : List PendingDingTalkAttachment :=
  state.pending.getD []

end SessionState

/-- The state file of a session in one scope. A save empties it before it writes; until then, what
was saved last is still told. -/
structure StateFile where
  saved : Option SessionState
  readable : Bool

namespace StateFile

def loadSessionState (file : StateFile) : Option SessionState :=
  if file.readable then file.saved else none

def pending (file : StateFile) : List PendingDingTalkAttachment :=
  (file.saved.map SessionState.readPendingDingtalkAttachments).getD []

end StateFile

/-- One session: its state files, and whether its lane is taken. -/
structure Inbox (Scope : Type) where
  files : Scope → StateFile
  lane : Bool

/-- What one action gets from outside. -/
structure InboxEnv (Scope : Type) where
  now : DateTime
  scopes : List Scope
  defaultScope : Option Scope
  scope : Option Scope
  transcript : Except String String
  opened : Bool
  landed : Bool
  plan : Except String PlannedTurnStep
  tooManySteps : Bool
  submitted : Except String Unit
  localReply : Except String Unit
  installed : Except String Unit

/-- What the session state is saved for. -/
inductive Change
  | append (attachments : List PendingDingTalkAttachment)
  | clear (taken : List PendingDingTalkAttachment)
  | keep

inductive InboxNote (Scope : Type)
  | plain
  | receive (attachments : List PendingDingTalkAttachment)
  | transcribe (attachments : List PendingDingTalkAttachment)
  | load (change : Change)
  | truncate (change : Change) (scope : Scope)
  | write (change : Change) (scope : Scope) (loaded state : SessionState)

abbrev InboxProcess (Scope α : Type) := Program (Inbox Scope) (InboxEnv Scope) (InboxNote Scope) α

namespace Inbox

variable {Scope : Type} [DecidableEq Scope] (s : Inbox Scope)

def put (scope : Scope) (file : StateFile) : Inbox Scope :=
  { s with files := Function.update s.files scope file }

/-- The state of the resolved scope, or a new one. -/
def found (env : InboxEnv Scope) : Option (Scope × SessionState) :=
  env.scope.map fun scope =>
    (scope, (s.files scope).loadSessionState.getD (.new env.now))

/-- The file is opened, which empties it. -/
def truncated (env : InboxEnv Scope) (scope : Scope) : Inbox Scope :=
  if env.opened then s.put scope { s.files scope with readable := false } else s

/-- The write is complete, or it failed or was mixed with another one. -/
def written (env : InboxEnv Scope) (scope : Scope) (state : SessionState) : Inbox Scope :=
  s.put scope (if env.landed then ⟨some state, true⟩ else ⟨none, false⟩)

end Inbox

section Handlers

variable {Scope : Type} [DecidableEq Scope]

/-- Each file is read in turn, and the latest active state is kept. -/
def scanSessionStates :
    List Scope → Option SessionState → InboxProcess Scope (Option SessionState)
  | [], latest => pure latest
  | scope :: rest, latest => do
      let found ← Program.query .plain fun _ s => (s.files scope).loadSessionState
      match found, latest with
      | none, _ => scanSessionStates rest latest
      | some state, none => scanSessionStates rest (some state)
      | some state, some existing =>
        scanSessionStates rest
          (some (if existing.lastActive < state.lastActive then state else existing))

def loadSessionStateForSession : InboxProcess Scope (Option SessionState) := do
  let scopes ← Program.query .plain fun env _ => env.scopes
  match ← scanSessionStates scopes none with
  | some state => pure (some state)
  | none =>
    Program.query .plain fun env s =>
      env.defaultScope.bind fun scope => (s.files scope).loadSessionState

def loadOrInitSessionStateForUpdate (change : Change) :
    InboxProcess Scope (Option (Scope × SessionState)) :=
  Program.query (.load change) fun env s => s.found env

def saveSessionStateWithScope (change : Change) (scope : Scope) (loaded state : SessionState) :
    InboxProcess Scope Unit := do
  let opened ← Program.update (.truncate change scope) (fun env s => s.truncated env scope)
    fun env _ => env.opened
  if opened then
    Program.update (.write change scope loaded state) (fun env s => s.written env scope state)
      fun _ _ => ()
  else pure ()

def appendPendingDingtalkAttachments (attachments : List PendingDingTalkAttachment) :
    InboxProcess Scope Unit :=
  if attachments = [] then pure ()
  else do
    Program.query (.receive attachments) fun _ _ => ()
    match ← loadOrInitSessionStateForUpdate (.append attachments) with
    | none => pure ()
    | some (scope, loaded) =>
      let existing := loaded.readPendingDingtalkAttachments
      saveSessionStateWithScope (.append attachments) scope loaded
        { loaded with pending := some (existing ++ attachments) }

/-- `taken` is what the caller has read. -/
def clearPendingDingtalkAttachments (taken : List PendingDingTalkAttachment) :
    InboxProcess Scope Unit := do
  match ← loadOrInitSessionStateForUpdate (.clear taken) with
  | none => pure ()
  | some (scope, loaded) =>
    if loaded.pending.isSome then
      saveSessionStateWithScope (.clear taken) scope loaded { loaded with pending := none }
    else pure ()

/-- Load the state, change what does not concern pending attachments, and save it. -/
def updateSessionState (change : DateTime → SessionState → SessionState) :
    InboxProcess Scope Unit := do
  match ← loadOrInitSessionStateForUpdate .keep with
  | none => pure ()
  | some (scope, loaded) => do
      let now ← Program.query .plain fun env _ => env.now
      saveSessionStateWithScope .keep scope loaded (change now loaded)

def setLastAudioTranscript (transcript : String) : InboxProcess Scope Unit :=
  if trim transcript = "" then pure ()
  else updateSessionState fun _ state =>
    { state with lastAudioTranscript := some (trim transcript) }

def persistSessionState : InboxProcess Scope Unit :=
  updateSessionState fun now state => state.incrementMessages now

/-- The end of `persist_direct_reply_memory` and of `persist_task_result_memory`: unlike the other
updates, it saves only a state that is there. -/
def touchSessionState : InboxProcess Scope Unit := do
  let loaded ← Program.query .plain fun env s =>
    env.scope.bind fun scope => (s.files scope).loadSessionState.map fun state => (scope, state)
  match loaded with
  | none => pure ()
  | some (scope, loaded) => do
      let now ← Program.query .plain fun env _ => env.now
      saveSessionStateWithScope .keep scope loaded (loaded.touch now)

inductive NormalizedDingTalkInbound
  | continueAsText (text : String)
      (consumedPendingAttachments : List PendingDingTalkAttachment)
  | waitForFollowUp (replyText : String)

def waitingReplyText : String := "已收到这条消息，请继续告诉我你希望我怎么处理。"

/-- What DingTalk itself has recognized in a voice message. -/
def recognizedText (inbound : DingTalkInboundMessage) : Option String :=
  (inbound.attachments.find? (·.kind = "audio")).bind fun audio => trimmed audio.recognition

def rememberTranscript (transcript : String) :
    InboxProcess Scope (Except String (Option String)) := do
  setLastAudioTranscript transcript
  pure (.ok (some transcript))

/-- What is said in a voice message. -/
def audioText (inbound : DingTalkInboundMessage) :
    InboxProcess Scope (Except String (Option String)) :=
  match recognizedText inbound with
  | some transcript => rememberTranscript transcript
  | none => do
      let heard ← Program.query
        (.transcribe (inbound.attachments.map pendingAttachmentFromInboundAttachment))
        fun env _ => env.transcript
      match heard with
      | .error message => pure (.error message)
      | .ok text => rememberTranscript (trim text)

/-- What a message says by itself. -/
def baseText (inbound : DingTalkInboundMessage) :
    InboxProcess Scope (Except String (Option String)) :=
  match inbound.content with
  | .text text => pure (.ok (some (trim text)))
  | .audio => audioText inbound
  | .image caption => pure (.ok ((trimmed caption).map fun text => "用户发送了一张图片：" ++ text))
  | .structured kind serialized =>
    pure (.ok (if kind = some "dingtalk_file" then none else some (trim serialized)))

def mergedText (text : String) (pending : List PendingDingTalkAttachment) : String :=
  match buildPendingAttachmentInstallRequest text pending, buildPendingAttachmentPrefix pending with
  | some request, _ =>
    "帮我安装这个技能\n\n附件技能包：" ++ request.attachmentFileName.getD request.package
  | none, some before => before ++ "\n" ++ text
  | none, none => text

/-- A message without text leaves its attachments; one with a text takes what is pending. -/
def settleAttachments (inbound : DingTalkInboundMessage)
    (pending : List PendingDingTalkAttachment) :
    Option String → InboxProcess Scope NormalizedDingTalkInbound
  | none => do
      appendPendingDingtalkAttachments
        (inbound.attachments.map pendingAttachmentFromInboundAttachment)
      pure (.waitForFollowUp waitingReplyText)
  | some text => do
      if pending = [] then pure () else clearPendingDingtalkAttachments pending
      pure (.continueAsText (mergedText text pending) pending)

def normalizeDingtalkInboundMessage (inbound : DingTalkInboundMessage) :
    InboxProcess Scope (Except String NormalizedDingTalkInbound) := do
  let state ← loadSessionStateForSession
  let pending := (state.map SessionState.readPendingDingtalkAttachments).getD []
  match ← baseText inbound with
  | .error message => pure (.error message)
  | .ok base => do
      let normalized ← settleAttachments inbound pending (trimmed base)
      pure (.ok normalized)

def runSerialized {α : Type} (task : InboxProcess Scope α) : InboxProcess Scope α := do
  Program.await .plain (fun s => !s.lane) fun _ s => { s with lane := true }
  let value ← task
  Program.update .plain (fun _ s => { s with lane := false }) fun _ _ => ()
  pure value

/-- An archive that could not be installed is left again. -/
def installPendingAttachment (request : SkillInstallRequest) :
    InboxProcess Scope (Except String Unit) := do
  match ← Program.query .plain fun env _ => env.installed with
  | .ok _ => pure (.ok ())
  | .error _ => do
      appendPendingDingtalkAttachments [failedAttachment request]
      pure (.ok ())

/-- What a step asks to be installed from what its message has taken. -/
def installRequest (consumed : List PendingDingTalkAttachment) :
    PlannedTurnStep → Option SkillInstallRequest
  | .installSkill query => buildPendingAttachmentInstallRequest query consumed
  | _ => none

def localTurnReply (step : PlannedTurnStep) (consumed : List PendingDingTalkAttachment) :
    InboxProcess Scope (Except String Unit) :=
  match installRequest consumed step with
  | some request => installPendingAttachment request
  | none => Program.query .plain fun env _ => env.localReply

def executeLocalTurnStep (step : PlannedTurnStep) (consumed : List PendingDingTalkAttachment) :
    InboxProcess Scope (Except String Unit) := do
  match ← localTurnReply step consumed with
  | .error message => pure (.error message)
  | .ok _ => do
      touchSessionState
      persistSessionState
      pure (.ok ())

/-- The text only reaches the planner. -/
def processDingtalkTaskSerialized (_text : String) (consumed : List PendingDingTalkAttachment) :
    InboxProcess Scope (Except String Unit) := do
  let planned ← Program.query .plain fun env _ => env.plan
  match planned with
  | .error message => pure (.error message)
  | .ok step => do
      if ← Program.query .plain fun env _ => env.tooManySteps then pure (.ok ())
      else
        match step with
        | .finalize _ => do
            touchSessionState
            persistSessionState
            pure (.ok ())
        | .submitTask .. => do
            match ← Program.query .plain fun env _ => env.submitted with
            | .error message => pure (.error message)
            | .ok _ => do
                persistSessionState
                pure (.ok ())
        | step => executeLocalTurnStep step consumed

def waitForFollowUp : InboxProcess Scope (Except String Unit) := do
  touchSessionState
  persistSessionState
  pure (.ok ())

def submitDingtalkTask (inbound : DingTalkInboundMessage) :
    InboxProcess Scope (Except String Unit) := do
  match ← normalizeDingtalkInboundMessage inbound with
  | .error message => pure (.error message)
  | .ok (.continueAsText text consumed) =>
    runSerialized (processDingtalkTaskSerialized text consumed)
  | .ok (.waitForFollowUp _) => runSerialized waitForFollowUp

/-- What the result of a task saves, once its next step is planned. -/
def executeContinuationStep (step : PlannedTurnStep) : InboxProcess Scope (Except String Unit) :=
  match step with
  | .finalize _ => do
      touchSessionState
      pure (.ok ())
  | .submitTask .. => pure (.ok ())
  | step => executeLocalTurnStep step []

end Handlers
end UHorse.Hub.DingTalk.Attachments
