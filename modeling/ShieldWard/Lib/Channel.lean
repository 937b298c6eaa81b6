import Mathlib.Data.List.Basic

/-!
# Buffered channels

The channels of Go with a buffer: values wait in order, a send to a full channel blocks, and a
send to a closed channel or a second close panics. A receiver that waits for a value takes it
in the step after the send, so a hand-over is a send and a receive.
-/

structure Channel (α : Type) where
  capacity : ℕ
  buffer : List α
  closed : Bool
deriving DecidableEq, Repr

namespace Channel

variable {α : Type}

inductive Send (α : Type)
  | sent (channel : Channel α)
  | blocked
  | panicked
deriving DecidableEq, Repr

inductive Receive (α : Type)
  | received (value : α) (channel : Channel α)
  | ended
  | blocked
deriving DecidableEq, Repr

def make (capacity : ℕ) : Channel α := { capacity, buffer := [], closed := false }

def send (channel : Channel α) (value : α) : Send α :=
  if channel.closed then .panicked
  else if channel.buffer.length < channel.capacity then
    .sent { channel with buffer := channel.buffer ++ [value] }
  else .blocked

def receive (channel : Channel α) : Receive α :=
  match channel.buffer with
  | value :: rest => .received value { channel with buffer := rest }
  | [] => if channel.closed then .ended else .blocked

/-- `close`; `none` when it panics. -/
def close (channel : Channel α) : Option (Channel α) :=
  if channel.closed then none else some { channel with closed := true }

/-- An open channel with an empty buffer takes a value. -/
theorem send_of_empty {channel : Channel α} {value : α} (hopen : channel.closed = false)
    (hcapacity : 0 < channel.capacity) (hempty : channel.buffer = []) :
    channel.send value = .sent { channel with buffer := [value] } := by
  unfold send
  rw [hopen, hempty]
  simp [hcapacity]

/-- A send to an open channel appends the value or finds the channel full. -/
theorem send_cases {channel : Channel α} (value : α) (hopen : channel.closed = false) :
    channel.send value = .sent { channel with buffer := channel.buffer ++ [value] } ∧
        channel.buffer.length < channel.capacity ∨
      channel.send value = .blocked ∧ channel.capacity ≤ channel.buffer.length := by
  unfold send
  rw [hopen]
  by_cases h : channel.buffer.length < channel.capacity
  · exact .inl ⟨by simp [h], h⟩
  · exact .inr ⟨by simp [h], by omega⟩

end Channel
