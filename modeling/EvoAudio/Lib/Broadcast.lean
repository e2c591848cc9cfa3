/-!
# A broadcast channel and one of its receivers

A channel keeps the last so many messages for its receivers. A receiver that
has fallen further behind is told so and goes on with the oldest message that
is still there; until then it receives what was sent, in the order it was sent.
-/

structure Broadcast (α : Type) where
  sent : List α
  /-- How many of the messages the receiver is through with. -/
  next : Nat
  received : List α
  lagged : Bool
  deriving DecidableEq, Repr

namespace Broadcast

variable {α : Type} {channel channel' : Broadcast α}

def empty : Broadcast α := ⟨[], 0, [], false⟩

def send (channel : Broadcast α) (message : α) : Broadcast α :=
  { channel with sent := channel.sent ++ [message] }

/-- Receiving waits while there is no new message. -/
def recv (capacity : Nat) (channel : Broadcast α) : Option (Broadcast α) :=
  match channel.sent[channel.next]? with
  | none => none
  | some message =>
    if channel.next + capacity < channel.sent.length then
      some { channel with next := channel.sent.length - capacity, lagged := true }
    else some { channel with next := channel.next + 1, received := channel.received ++ [message] }

/-- What the receiver has yet to receive. -/
def unread (channel : Broadcast α) : List α := channel.sent.drop channel.next

/-- A receiver that has not lagged has received the front of what was sent. -/
def Faithful (channel : Broadcast α) : Prop :=
  channel.lagged = false → channel.sent = channel.received ++ channel.unread ∧
    channel.next ≤ channel.sent.length

theorem faithful_empty : (empty : Broadcast α).Faithful := fun _ => ⟨rfl, Nat.le_refl _⟩

@[simp] theorem send_sent : (channel.send message).sent = channel.sent ++ [message] := rfl

theorem Faithful.send (h : channel.Faithful) (message : α) : (channel.send message).Faithful := by
  intro hlag
  obtain ⟨hsent, hnext⟩ := h hlag
  refine ⟨?_, ?_⟩
  · change channel.sent ++ [message] =
      channel.received ++ (channel.sent ++ [message]).drop channel.next
    rw [List.drop_append_of_le_length hnext, ← List.append_assoc]
    exact congrArg (· ++ [message]) hsent
  · simp only [send_sent, List.length_append]
    exact Nat.le_trans hnext (Nat.le_add_right _ _)

theorem recv_sent (h : recv capacity channel = some channel') : channel'.sent = channel.sent := by
  unfold recv at h
  split at h
  · cases h
  · split at h <;> cases h <;> rfl

theorem Faithful.recv (h : channel.Faithful)
    (hrecv : Broadcast.recv capacity channel = some channel') :
    channel'.Faithful := by
  unfold Broadcast.recv at hrecv
  split at hrecv
  · cases hrecv
  next message hmessage =>
    split at hrecv
    · cases hrecv
      rintro ⟨⟩
    · cases hrecv
      intro hlag
      obtain ⟨hsent, -⟩ := h hlag
      obtain ⟨hlt, hget⟩ := List.getElem?_eq_some_iff.mp hmessage
      refine ⟨?_, hlt⟩
      change channel.sent = channel.received ++ [message] ++ channel.sent.drop (channel.next + 1)
      rw [List.append_assoc, List.singleton_append, ← hget, List.getElem_cons_drop]
      exact hsent

end Broadcast
