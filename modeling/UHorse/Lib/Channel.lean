import Mathlib.Data.List.Defs

/-!
# Channels

A bounded channel keeps its messages in order and never holds more than its capacity. A send
that finds no room waits for a receiver; without one it waits forever. Messages are received
in the order they were sent in.
-/

namespace UHorse.Lib

structure Channel (α : Type) (capacity : Nat) where
  messages : List α
  bounded : messages.length ≤ capacity

namespace Channel

variable {α : Type} {capacity : Nat}

def empty : Channel α capacity := ⟨[], Nat.zero_le _⟩

/-- Put a message at the end, or `none` when the send waits. -/
def send (channel : Channel α capacity) (message : α) : Option (Channel α capacity) :=
  if room : channel.messages.length < capacity then
    some ⟨channel.messages ++ [message], by rwa [List.length_append]⟩
  else none

/-- Take the first message, or `none` when the receiver waits. -/
def receive (channel : Channel α capacity) : Option (α × Channel α capacity) :=
  match channel with
  | ⟨[], _⟩ => none
  | ⟨message :: rest, bounded⟩ =>
    some (message, ⟨rest, Nat.le_of_succ_le bounded⟩)

@[simp] theorem length_empty : (empty : Channel α capacity).messages.length = 0 := rfl

variable {channel : Channel α capacity} {message : α}

theorem messages_of_send {sent : Channel α capacity} (went : channel.send message = some sent) :
    sent.messages = channel.messages ++ [message] := by
  rw [send] at went
  split at went
  · cases went
    rfl
  · cases went

theorem receive_eq_some_iff {rest : Channel α capacity} :
    channel.receive = some (message, rest) ↔ channel.messages = message :: rest.messages := by
  obtain ⟨messages, bounded⟩ := channel
  obtain ⟨remaining, kept⟩ := rest
  cases messages with
  | nil => simp [receive]
  | cons first others => simp [receive, Channel.mk.injEq]

theorem receive_eq_none_iff : channel.receive = none ↔ channel.messages = [] := by
  obtain ⟨messages, bounded⟩ := channel
  cases messages <;> simp [receive]

/-- A send waits exactly if the channel is full. -/
theorem send_eq_none_iff : channel.send message = none ↔ channel.messages.length = capacity := by
  have bounded := channel.bounded
  rw [send]
  split
  · simp only [reduceCtorEq, false_iff]
    omega
  · simp only [true_iff]
    omega

end Channel

/-! ## Broadcast channels -/

/-- A broadcast channel keeps everything that was sent; a receiver reads from its own position and
is told that it lags if more than the capacity was sent since. -/
structure Broadcast (α : Type) (capacity : Nat) where
  sent : List α

inductive Received (α : Type)
  | empty
  | lagged
  | item (value : α)

namespace Broadcast

variable {α : Type} {capacity : Nat}

def send (channel : Broadcast α capacity) (value : α) : Broadcast α capacity :=
  ⟨channel.sent ++ [value]⟩

/-- What a receiver gets at its position. -/
def receive (channel : Broadcast α capacity) (position : Nat) : Received α :=
  if position + capacity < channel.sent.length then .lagged
  else
    match channel.sent[position]? with
    | none => .empty
    | some value => .item value

end Broadcast

end UHorse.Lib
