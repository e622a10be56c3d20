import Mathlib.Data.List.Basic

/-!
# A queue between senders and one receiver

Senders append to the queue until the last of them is gone. The receiver takes
the oldest item, waits when there is none, and learns of the close only after it
has taken everything that was sent.
-/

universe u
variable {α : Type u}

/-- What was sent and not yet received, and whether every sender is gone. -/
structure Channel (α : Type u) where
  queue : List α
  closed : Bool

namespace Channel

/-- The answers of a receive that does not have to wait. -/
inductive Received (α : Type u) where
  | item (value : α) (rest : Channel α)
  | closed

/-- A channel between its first sender and its receiver. -/
def empty : Channel α := ⟨[], false⟩

/-- Send one item; there is nobody left to send once the channel is closed. -/
def send (channel : Channel α) (value : α) : Option (Channel α) :=
  if channel.closed then none else some { channel with queue := channel.queue ++ [value] }

/-- The last sender goes. -/
def close (channel : Channel α) : Channel α := { channel with closed := true }

/-- Receive, or wait as long as the queue is empty and a sender is left. -/
def recv (channel : Channel α) : Option (Received α) :=
  match channel.queue with
  | value :: rest => some (.item value { channel with queue := rest })
  | [] => if channel.closed then some .closed else none

/-- Nothing is sent to a closed channel. -/
theorem send_open {channel next : Channel α} {value : α} (sent : channel.send value = some next) :
    channel.closed = false := by
  unfold send at sent
  split at sent
  case isTrue => cases sent
  case isFalse isOpen => exact Bool.eq_false_iff.mpr isOpen

/-- A send changes nothing but the queue. -/
theorem sent {channel next : Channel α} {value : α} (sent : channel.send value = some next) :
    next = { channel with queue := channel.queue ++ [value] } := by
  unfold send at sent
  split at sent
  case isTrue => cases sent
  case isFalse => exact (Option.some.inj sent).symm

/-- What is sent goes to the end of the queue. -/
theorem queue_of_send {channel next : Channel α} {value : α}
    (sent : channel.send value = some next) : next.queue = channel.queue ++ [value] := by
  rw [Channel.sent sent]

/-- What is received comes from the head of the queue, and closes nothing. -/
theorem of_recv {channel rest : Channel α} {value : α}
    (received : channel.recv = some (.item value rest)) :
    channel.queue = value :: rest.queue ∧ rest.closed = channel.closed := by
  unfold recv at received
  split at received
  case h_1 first others queued =>
    obtain ⟨rfl, rfl⟩ := Received.item.inj (Option.some.inj received)
    exact ⟨queued, rfl⟩
  case h_2 =>
    split at received <;> cases received

/-- Closing a closed channel changes nothing. -/
theorem close_of_closed {channel : Channel α} (closed : channel.closed = true) :
    channel.close = channel := by
  rw [close, ← closed]

/-- A close is received only when nothing is left and nobody can send. -/
theorem recv_closed {channel : Channel α} (received : channel.recv = some .closed) :
    channel.queue = [] ∧ channel.closed = true := by
  unfold recv at received
  split at received
  case h_1 => cases received
  case h_2 queued =>
    split at received
    case isTrue closed => exact ⟨queued, closed⟩
    case isFalse => cases received

end Channel
