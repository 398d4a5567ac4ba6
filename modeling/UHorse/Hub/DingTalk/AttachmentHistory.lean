import Mathlib.Algebra.BigOperators.Group.Finset.Basic
import Mathlib.Data.List.Perm.Basic
import UHorse.Hub.DingTalk.Attachments
import UHorse.Lib.Doing
import UHorse.Lib.Occurrences

/-!
# Pending attachments are kept

A ledger is kept of the attachments that are received as pending and of those that a message has
taken. What was received is pending, was taken or is still to be recorded by a handler, each just
as often, as long as nobody else has changed the pending attachments between the time a handler
reads the state and the time it saves it, and no save fails that matters to them.
-/

namespace UHorse.Hub.DingTalk.Attachments

open UHorse.Lib UHorse.Protocol

/-! ## All interleavings -/

abbrev InboxPool (Scope : Type) :=
  Pool (Inbox Scope) (InboxEnv Scope) (InboxNote Scope) Unit (List PendingDingTalkAttachment)

abbrev InboxLabel (Scope : Type) :=
  PoolLabel (Inbox Scope) (InboxEnv Scope) (InboxNote Scope) Unit

/-- The attachments that were received, and those that messages have taken. Attachments of a
message whose transcription fails are received, and so is an archive that is left again. -/
structure Ledger where
  received : List PendingDingTalkAttachment
  consumed : List PendingDingTalkAttachment

section Notes

variable {Scope : Type} (note : InboxNote Scope) (env : InboxEnv Scope) (s : Inbox Scope)

def InboxNote.receives : List PendingDingTalkAttachment :=
  match note with
  | .receive attachments => attachments
  | .transcribe attachments => if env.transcript.isOk then [] else attachments
  | _ => []

/-- A message has taken what it has read when it saves the state without it, or gives up. -/
def InboxNote.consumes [DecidableEq Scope] : List PendingDingTalkAttachment :=
  match note with
  | .load (.clear taken) => if (s.found env).any (·.2.pending.isSome) then [] else taken
  | .truncate (.clear taken) _ => if env.opened then [] else taken
  | .write (.clear taken) .. => taken
  | _ => []

/-- What a handler has received and not recorded. -/
def InboxNote.owes (owed : List PendingDingTalkAttachment) : List PendingDingTalkAttachment :=
  match note with
  | .receive attachments => attachments
  | .load (.append _) => if env.scope.isSome then owed else []
  | .truncate (.append _) _ => if env.opened then owed else []
  | .write (.append _) .. => []
  | _ => owed

end Notes

variable {Scope : Type} [DecidableEq Scope]

def owing : Observer (Inbox Scope) (InboxEnv Scope) (InboxNote Scope)
    (List PendingDingTalkAttachment) where
  start := []
  see owed note env _ := note.owes env owed

/-- The handlers of a session: its messages, and the results of its tasks. The session key of a
continuation is built without a team, so that it may work on a session whose lane it has not. -/
inductive InboxCall : InboxProcess Scope Unit → Prop
  | message (inbound : DingTalkInboundMessage) : InboxCall (submitDingtalkTask inbound).discard
  | taskResult : InboxCall touchSessionState
  | continuation (step : PlannedTurnStep) :
      InboxCall (runSerialized (executeContinuationStep step)).discard
  | astray (step : PlannedTurnStep) : InboxCall (executeContinuationStep step).discard

def ledgerBook (ledger : Ledger) (s : InboxPool Scope) : InboxLabel Scope → Ledger
  | .run index env =>
    match s.threads[index]? with
    | some ⟨.act note _ _ _, _⟩ =>
      ⟨note.receives env ++ ledger.received, note.consumes env s.shared ++ ledger.consumed⟩
    | _ => ledger
  | _ => ledger

variable (Scope) in
/-- All interleavings of the handlers of a session without pending attachments, with the ledger. -/
def inbox : System (InboxPool Scope × Ledger) (InboxLabel Scope) :=
  (Pool.system owing InboxCall (fun _ _ => False)
    (fun s => ∀ scope, (s.files scope).pending = [])).observe ⟨[], []⟩ ledgerBook

/-- How often an attachment is pending in the state files. -/
def Inbox.recorded [Fintype Scope] (s : Inbox Scope) (attachment : PendingDingTalkAttachment) :
    Nat :=
  ∑ scope, (s.files scope).pending.count attachment

/-- Every attachment that was received is pending, was taken or is still owed. -/
def Balanced [Fintype Scope] (s : InboxPool Scope × Ledger) : Prop :=
  ∀ attachment, s.2.received.count attachment =
    s.1.shared.recorded attachment + s.2.consumed.count attachment +
      (s.1.threads.flatMap Thread.seen).count attachment

/-- In the end, every attachment that was received is pending or was taken, each just as often. -/
def Settled [Fintype Scope] (s : InboxPool Scope × Ledger) : Prop :=
  (∀ thread ∈ s.1.threads, thread.program.isDone = true) → ∀ attachment,
    s.2.received.count attachment =
      s.1.shared.recorded attachment + s.2.consumed.count attachment

/-- What an action has to meet: the speech of a message with attachments is recognized, a scope is
found to leave and to take them, what is taken is there, the file opens; and when the state is
written, the pending attachments are the ones that were read. -/
def InboxNote.Careful (note : InboxNote Scope) (env : InboxEnv Scope) (s : Inbox Scope) : Prop :=
  match note with
  | .transcribe attachments => env.transcript.isOk = true ∨ attachments = []
  | .load (.append _) => env.scope.isSome = true
  | .load (.clear _) => (s.found env).any (·.2.pending.isSome) = true
  | .truncate (.append _) _ | .truncate (.clear _) _ => env.opened = true
  | .write .keep scope loaded _ =>
    (s.files scope).pending.Perm
      (if env.landed then loaded.readPendingDingtalkAttachments else [])
  | .write (.append _) scope loaded _ =>
    env.landed = true ∧ (s.files scope).pending.Perm loaded.readPendingDingtalkAttachments
  | .write (.clear taken) scope _ _ => (s.files scope).pending.Perm taken
  | _ => True

def Careful (s : InboxPool Scope × Ledger) : InboxLabel Scope → Prop
  | .run index env => ∀ note ready act next owed,
      s.1.threads[index]? = some ⟨.act note ready act next, owed⟩ →
      note.Careful env s.1.shared
  | _ => True

/-! ## What actions do -/

def InboxNote.filesAfter (note : InboxNote Scope) (env : InboxEnv Scope) (s : Inbox Scope) :
    Scope → StateFile :=
  match note with
  | .truncate _ scope => (s.truncated env scope).files
  | .write _ scope _ state => (s.written env scope state).files
  | _ => s.files

/-- What is saved is what was read, with the change. -/
def InboxNote.Fits (owed : List PendingDingTalkAttachment) : InboxNote Scope → Prop
  | .receive _ => owed = []
  | .load (.append attachments) | .truncate (.append attachments) _ =>
    owed = attachments ∧ attachments ≠ []
  | .write (.append attachments) _ loaded state =>
    (owed = attachments ∧ attachments ≠ []) ∧
      state.readPendingDingtalkAttachments =
        loaded.readPendingDingtalkAttachments ++ attachments
  | .load (.clear taken) | .truncate (.clear taken) _ => taken ≠ []
  | .write (.clear _) _ _ state => state.readPendingDingtalkAttachments = []
  | .write .keep _ loaded state =>
    state.readPendingDingtalkAttachments = loaded.readPendingDingtalkAttachments
  | _ => True

def InboxNote.Does (owed : List PendingDingTalkAttachment) (note : InboxNote Scope)
    (env : InboxEnv Scope) (s t : Inbox Scope) : Prop :=
  note.Fits owed ∧ t.files = note.filesAfter env s

section Handlers

variable {α β : Type}

/-- A process does what its notes say, and owes nothing before and after. -/
structure Settles (process : InboxProcess Scope α) : Prop where
  steady : process.Steady owing (.doing InboxNote.Does) []

theorem settles_pure (value : α) : Settles (pure value : InboxProcess Scope α) :=
  ⟨Program.Steady.pure value⟩

theorem settles_bind {process : InboxProcess Scope α} {rest : α → InboxProcess Scope β}
    (first : Settles process) (second : ∀ value, Settles (rest value)) :
    Settles (process >>= rest) :=
  ⟨Program.Steady.bind first.steady fun value => (second value).steady⟩

theorem settles_update {note : InboxNote Scope} {run : InboxEnv Scope → Inbox Scope → Inbox Scope}
    {value : InboxEnv Scope → Inbox Scope → α} (fits : note.Fits [])
    (files : ∀ env s, (run env s).files = note.filesAfter env s)
    (same : ∀ env, note.owes env [] = []) : Settles (Program.update note run value) :=
  ⟨Program.Doing.update (fun env s => ⟨fits, files env s⟩) fun env _ => same env⟩

theorem settles_query (value : InboxEnv Scope → Inbox Scope → α) :
    Settles (Program.query .plain value) :=
  settles_update trivial (fun _ _ => rfl) fun _ => rfl

theorem settles_load {change : Change} (fits : (InboxNote.load change : InboxNote Scope).Fits [])
    (same : ∀ env, (InboxNote.load change : InboxNote Scope).owes env [] = []) :
    Settles (loadOrInitSessionStateForUpdate change : InboxProcess Scope _) :=
  settles_update fits (fun _ _ => rfl) same

theorem doing_save {change : Change} {scope : Scope} {loaded state : SessionState}
    {owed : List PendingDingTalkAttachment} (opens : (InboxNote.truncate change scope).Fits owed)
    (fits : (InboxNote.write change scope loaded state).Fits owed)
    (opened : ∀ env, (InboxNote.truncate change scope).owes env owed =
      if env.opened then owed else [])
    (wrote : ∀ env, (InboxNote.write change scope loaded state).owes env owed = []) :
    (saveSessionStateWithScope change scope loaded state).Doing owing InboxNote.Does owed
      fun _ after => after = [] := by
  have first : (Program.update (.truncate change scope) (fun env s => s.truncated env scope)
      fun env _ => env.opened).Doing owing InboxNote.Does owed
        fun opened after => after = if opened then owed else [] :=
    Program.Doing.update (fun _ _ => ⟨opens, rfl⟩) fun env _ => opened env
  refine Program.Keeps.bind first ?_
  rintro opened _ rfl
  cases opened with
  | false => exact Program.Keeps.pure rfl
  | true => exact Program.Doing.update (fun _ _ => ⟨fits, rfl⟩) fun env _ => wrote env

theorem settles_keep {scope : Scope} {loaded state : SessionState}
    (same : state.readPendingDingtalkAttachments = loaded.readPendingDingtalkAttachments) :
    Settles (saveSessionStateWithScope .keep scope loaded state) :=
  ⟨doing_save trivial same (fun _ => (ite_self _).symm) fun _ => rfl⟩

theorem settles_append (attachments : List PendingDingTalkAttachment) :
    Settles (appendPendingDingtalkAttachments attachments : InboxProcess Scope Unit) := by
  rw [appendPendingDingtalkAttachments]
  split
  · exact settles_pure ()
  · next some_ =>
      have receive : (Program.query (.receive attachments) fun _ _ => ()).Doing owing
          (@InboxNote.Does Scope _) [] fun _ owed => owed = attachments :=
        Program.Doing.update (fun _ _ => ⟨rfl, rfl⟩) fun _ _ => rfl
      refine ⟨Program.Keeps.bind receive fun _ owed here => ?_⟩
      subst here
      have load : (loadOrInitSessionStateForUpdate (.append owed)).Doing owing
          (@InboxNote.Does Scope _) owed
            fun found after => after = if found.isSome then owed else [] := by
        refine Program.Doing.update (fun _ _ => ⟨⟨rfl, some_⟩, rfl⟩) fun env s => ?_
        simp only [owing, InboxNote.owes, Inbox.found, Option.isSome_map]
      refine Program.Keeps.bind load ?_
      rintro found _ rfl
      cases found with
      | none => exact Program.Keeps.pure rfl
      | some place =>
        exact doing_save ⟨rfl, some_⟩ ⟨⟨rfl, some_⟩, rfl⟩ (fun _ => rfl) fun _ => rfl

theorem settles_clear {taken : List PendingDingTalkAttachment} (some_ : taken ≠ []) :
    Settles (clearPendingDingtalkAttachments taken : InboxProcess Scope Unit) := by
  refine settles_bind (settles_load some_ fun _ => rfl) fun found => ?_
  cases found with
  | none => exact settles_pure ()
  | some place =>
    obtain ⟨scope, loaded⟩ := place
    dsimp only
    split
    · exact ⟨doing_save some_ rfl (fun _ => (ite_self _).symm) fun _ => rfl⟩
    · exact settles_pure ()

theorem settles_change {change : DateTime → SessionState → SessionState}
    (same : ∀ now state, (change now state).pending = state.pending) :
    Settles (updateSessionState change : InboxProcess Scope Unit) := by
  refine settles_bind (settles_load trivial fun _ => rfl) fun found => ?_
  cases found with
  | none => exact settles_pure ()
  | some place =>
    refine settles_bind (settles_query _) fun now => settles_keep ?_
    rw [SessionState.readPendingDingtalkAttachments, same]
    rfl

theorem settles_transcript (transcript : String) :
    Settles (setLastAudioTranscript transcript : InboxProcess Scope Unit) := by
  rw [setLastAudioTranscript]
  split
  · exact settles_pure ()
  · exact settles_change fun _ _ => rfl

theorem settles_persist : Settles (persistSessionState : InboxProcess Scope Unit) :=
  settles_change fun _ _ => rfl

theorem settles_touch : Settles (touchSessionState : InboxProcess Scope Unit) := by
  refine settles_bind (settles_query _) fun loaded => ?_
  cases loaded with
  | none => exact settles_pure ()
  | some place => exact settles_bind (settles_query _) fun now => settles_keep rfl

theorem settles_scan (scopes : List Scope) (latest : Option SessionState) :
    Settles (scanSessionStates scopes latest) := by
  induction scopes generalizing latest with
  | nil => exact settles_pure latest
  | cons scope rest ih =>
    refine settles_bind (settles_query _) fun found => ?_
    split <;> exact ih _

theorem settles_read :
    Settles (loadSessionStateForSession : InboxProcess Scope (Option SessionState)) := by
  refine settles_bind (settles_query _) fun scopes => settles_bind (settles_scan scopes none) ?_
  intro latest
  cases latest with
  | none => exact settles_query _
  | some state => exact settles_pure _

theorem settles_remember (transcript : String) :
    Settles (rememberTranscript transcript : InboxProcess Scope (Except String (Option String))) :=
  settles_bind (settles_transcript transcript) fun _ => settles_pure _

theorem settles_transcribe (attachments : List PendingDingTalkAttachment) :
    Settles (Program.query (.transcribe attachments) fun env _ => env.transcript :
      InboxProcess Scope (Except String String)) :=
  settles_update trivial (fun _ _ => rfl) fun _ => rfl

theorem settles_audio (inbound : DingTalkInboundMessage) :
    Settles (audioText inbound : InboxProcess Scope (Except String (Option String))) := by
  rw [audioText]
  generalize recognizedText inbound = recognized
  cases recognized with
  | some transcript => exact settles_remember transcript
  | none =>
    refine settles_bind (settles_transcribe _) fun heard => ?_
    cases heard with
    | error message => exact settles_pure _
    | ok text => exact settles_remember _

theorem settles_baseText (inbound : DingTalkInboundMessage) :
    Settles (baseText inbound : InboxProcess Scope (Except String (Option String))) := by
  obtain ⟨content, attachments⟩ := inbound
  cases content with
  | audio => exact settles_audio _
  | _ => exact settles_pure _

theorem settles_attachments (inbound : DingTalkInboundMessage)
    (pending : List PendingDingTalkAttachment) (text : Option String) :
    Settles (settleAttachments inbound pending text :
      InboxProcess Scope NormalizedDingTalkInbound) := by
  cases text with
  | none => exact settles_bind (settles_append _) fun _ => settles_pure _
  | some text =>
    rw [settleAttachments]
    dsimp only
    split
    · exact settles_pure _
    · next some_ => exact settles_bind (settles_clear some_) fun _ => settles_pure _

theorem settles_normalize (inbound : DingTalkInboundMessage) :
    Settles (normalizeDingtalkInboundMessage inbound :
      InboxProcess Scope (Except String NormalizedDingTalkInbound)) := by
  refine settles_bind settles_read fun state => settles_bind (settles_baseText inbound) ?_
  intro base
  cases base with
  | error message => exact settles_pure _
  | ok base =>
    exact settles_bind (settles_attachments inbound _ _) fun _ => settles_pure _

theorem settles_runSerialized {task : InboxProcess Scope α} (settles : Settles task) :
    Settles (runSerialized task) := by
  have lock : Settles (Program.await .plain (fun s => !s.lane) fun _ s => { s with lane := true } :
      InboxProcess Scope Unit) :=
    ⟨Program.Keeps.await (fun _ _ => trivial) (fun _ _ _ _ => ⟨trivial, rfl⟩) fun _ _ _ _ => rfl⟩
  have unlock : Settles (Program.update .plain (fun _ s => { s with lane := false })
      fun _ _ => () : InboxProcess Scope Unit) :=
    settles_update trivial (fun _ _ => rfl) fun _ => rfl
  exact settles_bind lock fun _ => settles_bind settles fun value => settles_bind unlock fun _ =>
    settles_pure value

theorem settles_install (request : SkillInstallRequest) :
    Settles (installPendingAttachment request : InboxProcess Scope (Except String Unit)) := by
  refine settles_bind (settles_query _) fun installed => ?_
  cases installed with
  | ok => exact settles_pure _
  | error => exact settles_bind (settles_append _) fun _ => settles_pure _

theorem settles_local (step : PlannedTurnStep) (consumed : List PendingDingTalkAttachment) :
    Settles (executeLocalTurnStep step consumed : InboxProcess Scope (Except String Unit)) := by
  have asked :
      Settles (localTurnReply step consumed : InboxProcess Scope (Except String Unit)) := by
    rw [localTurnReply]
    cases installRequest consumed step with
    | some request => exact settles_install request
    | none => exact settles_query _
  refine settles_bind asked fun reply => ?_
  cases reply with
  | error message => exact settles_pure _
  | ok =>
    exact settles_bind settles_touch fun _ => settles_bind settles_persist fun _ =>
      settles_pure _

theorem settles_process (text : String) (consumed : List PendingDingTalkAttachment) :
    Settles (processDingtalkTaskSerialized text consumed :
      InboxProcess Scope (Except String Unit)) := by
  refine settles_bind (settles_query _) fun planned => ?_
  cases planned with
  | error message => exact settles_pure _
  | ok step =>
    refine settles_bind (settles_query _) fun tooMany => ?_
    split
    · exact settles_pure _
    · split
      · exact settles_bind settles_touch fun _ => settles_bind settles_persist fun _ =>
          settles_pure _
      · refine settles_bind (settles_query _) fun submitted => ?_
        cases submitted with
        | error message => exact settles_pure _
        | ok => exact settles_bind settles_persist fun _ => settles_pure _
      · exact settles_local _ consumed

theorem settles_submit (inbound : DingTalkInboundMessage) :
    Settles (submitDingtalkTask inbound : InboxProcess Scope (Except String Unit)) := by
  refine settles_bind (settles_normalize inbound) fun normalized => ?_
  split
  · exact settles_pure _
  · exact settles_runSerialized (settles_process _ _)
  · exact settles_runSerialized (settles_bind settles_touch fun _ =>
      settles_bind settles_persist fun _ => settles_pure _)

theorem settles_continuation (step : PlannedTurnStep) :
    Settles (executeContinuationStep step : InboxProcess Scope (Except String Unit)) := by
  unfold executeContinuationStep
  split
  · exact settles_bind settles_touch fun _ => settles_pure _
  · exact settles_pure _
  · exact settles_local _ []

theorem settles_call {process : InboxProcess Scope Unit} (call : InboxCall process) :
    Settles process := by
  cases call with
  | message inbound => exact settles_bind (settles_submit inbound) fun _ => settles_pure ()
  | taskResult => exact settles_touch
  | continuation step =>
    exact settles_bind (settles_runSerialized (settles_continuation step)) fun _ =>
      settles_pure ()
  | astray step =>
    exact settles_bind (settles_continuation step) fun _ => settles_pure ()

end Handlers

/-! ## The ledger -/

section Ledger

variable [Fintype Scope] {s t : InboxPool Scope × Ledger} {label : InboxLabel Scope}

/-- Putting a file moves the count by the two files. -/
theorem recorded_put (s : Inbox Scope) (scope : Scope) (file : StateFile)
    (attachment : PendingDingTalkAttachment) :
    (s.put scope file).recorded attachment + (s.files scope).pending.count attachment =
      s.recorded attachment + file.pending.count attachment := by
  have others : ∑ other ∈ Finset.univ.erase scope,
      ((s.put scope file).files other).pending.count attachment =
      ∑ other ∈ Finset.univ.erase scope, (s.files other).pending.count attachment := by
    refine Finset.sum_congr rfl fun other member => ?_
    simp only [Inbox.put, Function.update_of_ne (Finset.ne_of_mem_erase member)]
  have after := Finset.add_sum_erase Finset.univ
    (fun other => ((s.put scope file).files other).pending.count attachment)
    (Finset.mem_univ scope)
  have before := Finset.add_sum_erase Finset.univ
    (fun other => (s.files other).pending.count attachment) (Finset.mem_univ scope)
  have here : ((s.put scope file).files scope).pending = file.pending := by
    simp only [Inbox.put, Function.update_self]
  simp only [here] at after
  unfold Inbox.recorded
  omega

omit [DecidableEq Scope] in
theorem recorded_of_files {s t : Inbox Scope} (same : t.files = s.files)
    (attachment : PendingDingTalkAttachment) : t.recorded attachment = s.recorded attachment := by
  rw [Inbox.recorded, same, Inbox.recorded]

theorem recorded_truncated (s : Inbox Scope) (env : InboxEnv Scope) (scope : Scope)
    (attachment : PendingDingTalkAttachment) :
    (s.truncated env scope).recorded attachment = s.recorded attachment := by
  rw [Inbox.truncated]
  split
  · have moved := recorded_put s scope { s.files scope with readable := false } attachment
    have same : StateFile.pending { s.files scope with readable := false } =
        (s.files scope).pending := rfl
    rw [same] at moved
    exact Nat.add_right_cancel moved
  · rfl

theorem recorded_written (s : Inbox Scope) (env : InboxEnv Scope) (scope : Scope)
    (state : SessionState) (attachment : PendingDingTalkAttachment) :
    (s.written env scope state).recorded attachment + (s.files scope).pending.count attachment =
      s.recorded attachment +
        (if env.landed then state.readPendingDingtalkAttachments else []).count attachment := by
  rw [Inbox.written, recorded_put]
  split <;> rfl

/-- What an action adds to the ledger fits what it does to the files and to what is owed. -/
def InboxNote.Squares (note : InboxNote Scope) (env : InboxEnv Scope) (s t : Inbox Scope)
    (owed : List PendingDingTalkAttachment) : Prop :=
  ∀ attachment, (note.receives env).count attachment + s.recorded attachment +
    owed.count attachment = t.recorded attachment + (note.consumes env s).count attachment +
      (note.owes env owed).count attachment

section Squares

variable {note : InboxNote Scope} {env : InboxEnv Scope} {s t : Inbox Scope} {change : Change}
  {scope : Scope} {loaded state : SessionState} {owed : List PendingDingTalkAttachment}

/-- Nothing is received, taken or given up, and no pending attachment changes. -/
theorem squares_of_quiet (receives : note.receives env = []) (consumes : note.consumes env s = [])
    (owes : note.owes env owed = owed)
    (recorded : ∀ attachment, t.recorded attachment = s.recorded attachment) :
    note.Squares env s t owed := by
  intro attachment
  rw [receives, consumes, owes, recorded, List.count_nil]
  omega

/-- Attachments are dropped or counted twice. -/
theorem not_squares {more : List PendingDingTalkAttachment} (some_ : more ≠ [])
    (recorded : ∀ attachment, t.recorded attachment = s.recorded attachment)
    (off : ∀ attachment, (note.receives env).count attachment + owed.count attachment =
        (note.consumes env s).count attachment + (note.owes env owed).count attachment →
      more.count attachment = 0) : ¬ note.Squares env s t owed := by
  intro squares
  obtain ⟨attachment, member⟩ := List.exists_mem_of_ne_nil more some_
  have same := squares attachment
  have positive := List.count_pos_iff.mpr member
  have none := off attachment (by rw [recorded] at same; omega)
  omega

theorem squares_transcribe {attachments : List PendingDingTalkAttachment}
    (does : (InboxNote.transcribe attachments).Does owed env s t) :
    (InboxNote.transcribe attachments).Squares env s t owed ↔
      (InboxNote.transcribe attachments).Careful env s := by
  have recorded := recorded_of_files does.2
  rw [InboxNote.Careful]
  cases heard : env.transcript.isOk with
  | true =>
    refine iff_of_true (squares_of_quiet ?_ rfl rfl recorded) (.inl rfl)
    rw [InboxNote.receives, heard, if_pos rfl]
  | false =>
    by_cases none : attachments = []
    · refine iff_of_true (squares_of_quiet ?_ rfl rfl recorded) (.inr none)
      rw [InboxNote.receives, none, ite_self]
    · refine iff_of_false (not_squares none recorded fun attachment same => ?_) ?_
      · rw [InboxNote.receives, heard, if_neg nofun] at same
        simp only [InboxNote.consumes, InboxNote.owes, List.count_nil] at same
        omega
      · rintro (absurd_ | same)
        · cases absurd_
        · exact none same

theorem squares_load (does : (InboxNote.load change).Does owed env s t) :
    (InboxNote.load change).Squares env s t owed ↔ (InboxNote.load change).Careful env s := by
  obtain ⟨fits, files⟩ := does
  have recorded := recorded_of_files files
  cases change with
  | keep => exact iff_of_true (squares_of_quiet rfl rfl rfl recorded) trivial
  | append attachments =>
    obtain ⟨rfl, some_⟩ := fits
    rw [InboxNote.Careful]
    cases resolved : env.scope.isSome with
    | true =>
      refine iff_of_true (squares_of_quiet rfl rfl ?_ recorded) rfl
      simp only [InboxNote.owes, resolved, if_true]
    | false =>
      refine iff_of_false (not_squares some_ recorded fun attachment same => ?_) nofun
      simpa [InboxNote.receives, InboxNote.consumes, InboxNote.owes, resolved] using same
  | clear taken =>
    unfold InboxNote.Careful
    dsimp only
    cases here : (s.found env).any (·.2.pending.isSome) with
    | true =>
      refine iff_of_true (squares_of_quiet rfl ?_ rfl recorded) rfl
      simp only [InboxNote.consumes, here, if_true]
    | false =>
      refine iff_of_false (not_squares fits recorded fun attachment same => ?_) nofun
      simpa [InboxNote.receives, InboxNote.consumes, InboxNote.owes, here] using same

theorem squares_truncate (does : (InboxNote.truncate change scope).Does owed env s t) :
    (InboxNote.truncate change scope).Squares env s t owed ↔
      (InboxNote.truncate change scope).Careful env s := by
  obtain ⟨fits, files⟩ := does
  have recorded attachment : t.recorded attachment = s.recorded attachment :=
    (recorded_of_files files attachment).trans (recorded_truncated s env scope attachment)
  cases change with
  | keep => exact iff_of_true (squares_of_quiet rfl rfl rfl recorded) trivial
  | append attachments =>
    obtain ⟨rfl, some_⟩ := fits
    rw [InboxNote.Careful]
    cases opened : env.opened with
    | true =>
      refine iff_of_true (squares_of_quiet rfl rfl ?_ recorded) rfl
      simp only [InboxNote.owes, opened, if_true]
    | false =>
      refine iff_of_false (not_squares some_ recorded fun attachment same => ?_) nofun
      simpa [InboxNote.receives, InboxNote.consumes, InboxNote.owes, opened] using same
  | clear taken =>
    rw [InboxNote.Careful]
    cases opened : env.opened with
    | true =>
      refine iff_of_true (squares_of_quiet rfl ?_ rfl recorded) rfl
      simp only [InboxNote.consumes, opened, if_true]
    | false =>
      refine iff_of_false (not_squares fits recorded fun attachment same => ?_) nofun
      simpa [InboxNote.receives, InboxNote.consumes, InboxNote.owes, opened] using same

theorem squares_write (does : (InboxNote.write change scope loaded state).Does owed env s t) :
    (InboxNote.write change scope loaded state).Squares env s t owed ↔
      (InboxNote.write change scope loaded state).Careful env s := by
  obtain ⟨fits, files⟩ := does
  have moved attachment : t.recorded attachment + (s.files scope).pending.count attachment =
      s.recorded attachment +
        (if env.landed then state.readPendingDingtalkAttachments else []).count attachment := by
    rw [recorded_of_files files]
    exact recorded_written s env scope state attachment
  cases change with
  | keep =>
    have same : state.readPendingDingtalkAttachments = loaded.readPendingDingtalkAttachments :=
      fits
    rw [same] at moved
    refine Iff.trans (forall_congr' fun attachment => ?_) List.perm_iff_count.symm
    have moved := moved attachment
    simp only [InboxNote.receives, InboxNote.consumes, InboxNote.owes, List.count_nil]
    omega
  | append attachments =>
    obtain ⟨⟨rfl, some_⟩, same⟩ := fits
    rw [same] at moved
    cases landed : env.landed with
    | true =>
      simp only [landed, if_true, List.count_append] at moved
      refine Iff.trans ?_ (and_iff_right landed).symm
      refine Iff.trans (forall_congr' fun attachment => ?_) List.perm_iff_count.symm
      have moved := moved attachment
      simp only [InboxNote.receives, InboxNote.consumes, InboxNote.owes, List.count_nil]
      omega
    | false =>
      refine iff_of_false ?_ fun careful => Bool.false_ne_true (landed.symm.trans careful.1)
      intro squares
      obtain ⟨attachment, member⟩ := List.exists_mem_of_ne_nil owed some_
      have positive := List.count_pos_iff.mpr member
      have moved := moved attachment
      have same := squares attachment
      simp only [landed, Bool.false_eq_true, if_false, List.count_nil] at moved
      simp only [InboxNote.receives, InboxNote.consumes, InboxNote.owes, List.count_nil] at same
      omega
  | clear taken =>
    have none : state.readPendingDingtalkAttachments = [] := fits
    rw [none, ite_self] at moved
    refine Iff.trans (forall_congr' fun attachment => ?_) List.perm_iff_count.symm
    have moved := moved attachment
    simp only [InboxNote.receives, InboxNote.consumes, InboxNote.owes, List.count_nil] at moved ⊢
    omega

/-- An action squares just if it meets its condition. -/
theorem squares_iff (does : note.Does owed env s t) :
    note.Squares env s t owed ↔ note.Careful env s := by
  cases note with
  | plain =>
    exact iff_of_true (squares_of_quiet rfl rfl rfl (recorded_of_files does.2)) trivial
  | receive attachments =>
    obtain ⟨rfl, files⟩ := does
    refine iff_of_true (fun attachment => ?_) trivial
    rw [recorded_of_files files]
    simp only [InboxNote.receives, InboxNote.consumes, InboxNote.owes, List.count_nil]
    omega
  | transcribe attachments => exact squares_transcribe does
  | load change => exact squares_load does
  | truncate change scope => exact squares_truncate does
  | write change scope loaded state => exact squares_write does

end Squares
/-- All handlers do what their notes say and end without owing anything. -/
abbrev AllSettle (s : InboxPool Scope) : Prop :=
  s.Ending owing InboxNote.Does fun _ owed => owed = []

theorem balanced_step (settle : AllSettle s.1) (balanced : Balanced s)
    (step : (inbox Scope).Step s label t) : Balanced t ↔ Careful s label := by
  obtain ⟨pool, ledger⟩ := s
  obtain ⟨after, _⟩ := t
  obtain ⟨step, rfl⟩ := step
  dsimp only at balanced settle step
  cases step with
  | spawn process call =>
    refine iff_of_true (fun attachment => ?_) trivial
    have before := balanced attachment
    rw [List.flatMap_append, List.count_append]
    exact before
  | background shared nothing => exact nothing.elim
  | run index env note ready act next owed here enabled =>
    have does := settle.action here enabled env
    have careful : Careful (pool, ledger) (.run index env) ↔ note.Careful env pool.shared := by
      refine ⟨fun all => all note ready act next owed here, fun this => ?_⟩
      intro note' ready' act' next' owed' here'
      cases here.symm.trans here'
      exact this
    refine Iff.trans (forall_congr' fun attachment => ?_) ((squares_iff does).trans careful.symm)
    have before := balanced attachment
    have moved := count_flatMap_set Thread.seen here
      ⟨next env pool.shared, owing.see owed note env pool.shared⟩ attachment
    simp only [ledgerBook, here, List.count_append, owing] at moved before ⊢
    omega

theorem settled_of_balanced (settle : AllSettle s.1) (balanced : Balanced s) : Settled s := by
  intro finished attachment
  have nothing : s.1.threads.flatMap Thread.seen = [] := by
    refine List.flatMap_eq_nil_iff.mpr fun thread member => ?_
    obtain ⟨value, none⟩ := settle.finished member (finished thread member)
    exact none
  have same := balanced attachment
  rw [nothing, List.count_nil] at same
  exact same

/-- As long as actions are careful, attachments are neither lost nor taken twice; the first action
that is not breaks this. -/
theorem attachments_are_kept (reached : ((inbox Scope).restrict Careful).Reachable s) :
    Settled s ∧ Balanced s ∧
      ∀ label t, (inbox Scope).Step s label t → (Balanced t ↔ Careful s label) := by
  have both : AllSettle s.1 ∧ Balanced s := by
    refine reached.invariant (P := fun s => AllSettle s.1 ∧ Balanced s) ?_ ?_
    · rintro ⟨pool, ledger⟩ ⟨⟨nobody, empty⟩, rfl⟩
      dsimp only at nobody empty
      refine ⟨?_, fun attachment => ?_⟩
      · rw [AllSettle, Pool.Ending, nobody]
        exact List.forall_mem_nil _
      · simp only [Inbox.recorded, empty, nobody, List.count_nil, List.flatMap_nil,
          Finset.sum_const_zero]
    · rintro s label t ⟨settle, balanced⟩ ⟨careful, step⟩
      refine ⟨?_, (balanced_step settle balanced step).mpr careful⟩
      exact settle.step (fun _ call => (settles_call call).steady) step.1
  exact ⟨settled_of_balanced both.1 both.2, both.2, fun label t => balanced_step both.1 both.2⟩

end Ledger

/-! ### An image and what is said about it -/

def sampleImage : DingTalkInboundMessage :=
  ⟨.image none, [⟨"image", none, some "code-1", none, none⟩]⟩

def sampleText : DingTalkInboundMessage := ⟨.text "describe", []⟩

def sampleEnv : InboxEnv Unit where
  now := 0
  scopes := [()]
  defaultScope := none
  scope := some ()
  transcript := .error "unavailable"
  opened := true
  landed := true
  plan := .error "unavailable"
  tooManySteps := false
  submitted := .ok ()
  localReply := .ok ()
  installed := .ok ()

abbrev InboxMove : Type := Pool.Move (@InboxCall Unit _) fun _ _ => False

/-- A handler of the message starts. -/
def arrives (message : DingTalkInboundMessage) : InboxMove :=
  .spawn (submitDingtalkTask message).discard (.message message)

/-- Some actions of one handler. -/
def turns (index count : Nat) : List InboxMove :=
  Pool.running (List.replicate count (index, sampleEnv))

def inboxPlayer : (inbox Unit).Player InboxMove :=
  (Pool.player owing InboxCall (fun _ _ => False) _).observe _ _

def sampleStart : InboxPool Unit × Ledger := (⟨⟨fun _ => ⟨none, true⟩, false⟩, []⟩, ⟨[], []⟩)

theorem sampleStart_reachable {limit : InboxPool Unit × Ledger → InboxLabel Unit → Prop} :
    ((inbox Unit).restrict limit).Reachable sampleStart :=
  .init ⟨⟨rfl, fun _ => rfl⟩, rfl⟩

instance (note : InboxNote Scope) (env : InboxEnv Scope) (s : Inbox Scope) :
    Decidable (note.Careful env s) :=
  match note with
  | .transcribe attachments =>
    inferInstanceAs (Decidable (env.transcript.isOk = true ∨ attachments = []))
  | .load (.append _) => inferInstanceAs (Decidable (env.scope.isSome = true))
  | .load (.clear _) =>
    inferInstanceAs (Decidable ((s.found env).any (·.2.pending.isSome) = true))
  | .truncate (.append _) _ | .truncate (.clear _) _ =>
    inferInstanceAs (Decidable (env.opened = true))
  | .write .keep scope loaded _ =>
    inferInstanceAs (Decidable ((s.files scope).pending.Perm
      (if env.landed then loaded.readPendingDingtalkAttachments else [])))
  | .write (.append _) scope loaded _ =>
    inferInstanceAs (Decidable (env.landed = true ∧
      (s.files scope).pending.Perm loaded.readPendingDingtalkAttachments))
  | .write (.clear taken) scope _ _ =>
    inferInstanceAs (Decidable ((s.files scope).pending.Perm taken))
  | .plain | .receive _ | .load .keep | .truncate .keep _ => inferInstanceAs (Decidable True)

theorem careful_of_admits (s : InboxPool Unit × Ledger) (index : Nat) (env : InboxEnv Unit)
    (admitted : Pool.noteCheck Prod.fst (fun s note env => decide (note.Careful env s.1.shared))
      s index env = true) : Careful s (.run index env) := by
  intro note ready act next owed here
  exact of_decide_eq_true (Pool.admits_of_noteCheck admitted here)

/-- An image is left, and the next message takes it. -/
theorem attachments_are_kept_sample : ∃ s, ((inbox Unit).restrict Careful).Reachable s ∧
    (s.2.received.length = 1 ∧ s.2.consumed.length = 1) ∧ Settled s := by
  obtain ⟨s, reached, lengths⟩ := (Pool.checked inboxPlayer _ careful_of_admits
    (fun _ _ => trivial) fun _ _ => trivial).exists_reachable sampleStart_reachable
    (arrives sampleImage :: turns 0 17 ++ arrives sampleText :: turns 1 8)
    (fun s => s.2.received.length = 1 ∧ s.2.consumed.length = 1) (by decide)
  exact ⟨s, reached, lengths, (attachments_are_kept reached).1⟩

/-- Two messages read an image before one of them takes it, and both take it. -/
theorem attachments_taken_twice : ¬ ∀ (Scope : Type) [DecidableEq Scope] [Fintype Scope]
    (s : InboxPool Scope × Ledger), (inbox Scope).Reachable s → Settled s := by
  intro always
  obtain ⟨s, reached, finished, off⟩ := inboxPlayer.any.exists_reachable sampleStart_reachable
    (arrives sampleImage :: turns 0 17 ++ arrives sampleText :: arrives sampleText ::
      turns 1 2 ++ turns 2 2 ++ turns 1 6 ++ turns 2 4)
    (fun s => (∀ thread ∈ s.1.threads, thread.program.isDone = true) ∧
      ¬ ∀ attachment ∈ s.2.received, s.2.received.count attachment =
        s.1.shared.recorded attachment + s.2.consumed.count attachment) (by decide)
  have settled := always Unit s reached.of_restrict finished
  exact off fun attachment _ => settled attachment

end UHorse.Hub.DingTalk.Attachments
