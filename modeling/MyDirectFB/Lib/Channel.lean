/-
First-in first-out channels with their history: what has been put in, what has
been taken out, and what is still queued.  The three belong together in every
channel that can be built.
-/
import Mathlib.Data.List.Basic

universe u

structure Channel (M : Type u) where
  sent : List M
  taken : List M
  queue : List M
  sent_eq : sent = taken ++ queue

namespace Channel

variable {M : Type u}

def empty : Channel M := ⟨[], [], [], rfl⟩

/-- Put messages in, the first of them first. -/
def send (channel : Channel M) (messages : List M) : Channel M where
  sent := channel.sent ++ messages
  taken := channel.taken
  queue := channel.queue ++ messages
  sent_eq := by rw [channel.sent_eq, List.append_assoc]

/-- Take the oldest message out, if there is one. -/
def take? (channel : Channel M) : Option (M × Channel M) :=
  match hqueue : channel.queue with
  | [] => none
  | message :: rest =>
      some (message,
        { sent := channel.sent
          taken := channel.taken ++ [message]
          queue := rest
          sent_eq := by simp [channel.sent_eq, hqueue] })

/-- Take the oldest messages out, as far as there are so many. -/
def takeMany (channel : Channel M) (count : Nat) : Channel M where
  sent := channel.sent
  taken := channel.taken ++ channel.queue.take count
  queue := channel.queue.drop count
  sent_eq := by rw [channel.sent_eq, List.append_assoc, List.take_append_drop]

@[simp] theorem sent_send (channel : Channel M) (messages : List M) :
    (channel.send messages).sent = channel.sent ++ messages := rfl

@[simp] theorem taken_send (channel : Channel M) (messages : List M) :
    (channel.send messages).taken = channel.taken := rfl

@[simp] theorem queue_send (channel : Channel M) (messages : List M) :
    (channel.send messages).queue = channel.queue ++ messages := rfl

/-- What taking a message does. -/
theorem of_take? {channel rest : Channel M} {message : M}
    (htake : channel.take? = some (message, rest)) :
    channel.queue = message :: rest.queue ∧ rest.sent = channel.sent ∧
      rest.taken = channel.taken ++ [message] := by
  unfold take? at htake
  split at htake
  · cases htake
  · next hqueue =>
      cases htake
      exact ⟨hqueue, rfl, rfl⟩

theorem length_sent (channel : Channel M) :
    channel.sent.length = channel.taken.length + channel.queue.length := by
  rw [channel.sent_eq, List.length_append]

end Channel
