import Transduction.Feed

/-!
# Channels

A channel carries values and failures from producers to one reader. It is closed when any producer
completes it or when no producer is left; a closed channel keeps what was accepted before, and so
does one whose reader is gone, but neither accepts more.

## Main definitions

* `Channel`: a channel with its producers, numbered in the order they came.
* `Channel.send`, `Channel.complete`, `Channel.duplicate`, `Channel.leave`: what a producer can do.
* `Channel.read`: what the reader finds.

## Main results

* `Channel.items_send_of_accepts`: an accepted item is put behind the others.
* `Channel.accepts_complete`, `Channel.accepts_read`: nothing more is accepted after completion or
  once the reader is gone.
-/

namespace Transduction

/-- A channel from producers to a reader. -/
structure Channel (A : Type) where
  /-- The items accepted and not yet read, in order. -/
  items : List (Except Failure A)
  /-- Whether each producer is still there. -/
  producers : List Bool
  /-- Whether a producer has completed the channel. -/
  isCompleted : Bool
  /-- Whether the reader is still there. -/
  hasReader : Bool

namespace Channel

variable {A : Type}

/-- A new channel with one producer. -/
def fresh : Channel A := ⟨[], [true], false, true⟩

/-- Whether a producer is there. -/
def hasProducer (channel : Channel A) (producer : Nat) : Bool :=
  channel.producers[producer]?.getD false

/-- Whether the channel accepts items. -/
def accepts (channel : Channel A) : Bool := channel.hasReader && !channel.isCompleted

/-- Sends an item; says whether it was accepted. -/
def send (channel : Channel A) (item : Except Failure A) : Bool × Channel A :=
  if channel.accepts then (true, { channel with items := channel.items ++ [item] })
  else (false, channel)

/-- Closes the channel for all producers. -/
def complete (channel : Channel A) : Channel A := { channel with isCompleted := true }

/-- Adds a producer. -/
def duplicate (channel : Channel A) : Channel A :=
  { channel with producers := channel.producers ++ [true] }

/-- Removes a producer. -/
def leave (channel : Channel A) (producer : Nat) : Channel A :=
  { channel with producers := channel.producers.set producer false }

/-- Removes all producers. -/
def abandon (channel : Channel A) : Channel A :=
  { channel with producers := channel.producers.map fun _ => false }

/-- Whether nothing more can come. -/
def isClosed (channel : Channel A) : Bool := channel.isCompleted || channel.producers.all (!·)

/-- What the reader finds, and the channel without its reader. If the channel is open, nothing comes
after its items until the run is cancelled, for the given reason if there is one. -/
def read (channel : Channel A) (cancelled : Option String) :
    Feed (Except Failure A) × Channel A :=
  let tail := if channel.isClosed then .over else match cancelled with
    | some reason => .idle reason
    | none => .silent
  (⟨channel.items, tail⟩, { channel with items := [], hasReader := false })

@[simp] theorem accepts_complete (channel : Channel A) : channel.complete.accepts = false := by
  simp [complete, accepts]

/-- Once the reader is gone, nothing more is accepted. -/
@[simp] theorem accepts_read (channel : Channel A) (cancelled : Option String) :
    (channel.read cancelled).2.accepts = false := rfl

theorem items_send_of_accepts {channel : Channel A} (h : channel.accepts = true)
    (item : Except Failure A) : (channel.send item).2.items = channel.items ++ [item] := by
  simp [send, h]

theorem send_of_not_accepts {channel : Channel A} (h : channel.accepts = false)
    (item : Except Failure A) : channel.send item = (false, channel) := by
  simp [send, h]

end Channel

end Transduction
