/-
Module: Gateway.Shutdown
Layer: Shutdown
Purpose: The signal that tells every part of the gateway to stop.
Main exports: Shutdown, Shutdown.Action, Shutdown.Reply, Shutdown.step, Shutdown.unread,
  Shutdown.wakes, Shutdown.run
-/
namespace Gateway

/-!
A coordinator sends signals to those who subscribed before.  There is room for one signal, and the
next one takes its place whether or not it has been read.  Every receiver knows which signal it
reads next.  A receiver whose signal is gone is first told how many it missed, and then gets the one
that was kept.  A signal that nobody could receive is not sent at all.
-/

/-- A coordinator and the receivers that were ever made, in the order of their making. -/
structure Shutdown where
  /-- Whether the coordinator still exists. -/
  live : Bool
  /-- How many signals were sent.  They are numbered from zero, and the last one is kept. -/
  sent : Nat
  /-- The number of the signal that each receiver reads next; `none` once the receiver is
  dropped. -/
  receivers : List (Option Nat)
deriving Repr, DecidableEq

namespace Shutdown

/-- A new coordinator, without receivers. -/
def new : Shutdown := ⟨true, 0, []⟩

/-- What can be done with a coordinator and its receivers. -/
inductive Action where
  | subscribe
  | trigger
  | receive (receiver : Nat)
  | drop (receiver : Nat)
  | dropShutdown
deriving Repr, DecidableEq

/-- What an action answers. -/
inductive Reply where
  | subscribed (receiver : Nat)
  | triggered
  | notified
  | empty
  | closed
  | lagged (missed : Nat)
  | dropped
  /-- The coordinator no longer exists. -/
  | gone
deriving Repr, DecidableEq

/-- The signal that a receiver reads next, if there is such a receiver. -/
def next? (s : Shutdown) (receiver : Nat) : Option Nat :=
  s.receivers[receiver]?.join

/-- How many signals a receiver has not read, if there is such a receiver. -/
def unread (s : Shutdown) (receiver : Nat) : Option Nat :=
  (s.next? receiver).map (s.sent - ·)

/-- Sends a signal, if there is anyone to receive it. -/
def send (s : Shutdown) : Shutdown :=
  if s.receivers.any Option.isSome then { s with sent := s.sent + 1 } else s

/-- What a receiver gets that reads the signal `next`, and which signal it reads after that. -/
def receive (s : Shutdown) (next : Nat) : Reply × Nat :=
  if next = s.sent then (if s.live then .empty else .closed, next)
  else if next + 1 = s.sent then (.notified, s.sent)
  else (.lagged (s.sent - 1 - next), s.sent - 1)

/-- The state in which a receiver reads another signal next. -/
def moveTo (s : Shutdown) (receiver : Nat) (next : Option Nat) : Shutdown :=
  { s with receivers := s.receivers.set receiver next }

/-- Performs an action. -/
def step (s : Shutdown) : Action → Reply × Shutdown
  | .subscribe =>
    if s.live then
      (.subscribed s.receivers.length, { s with receivers := s.receivers ++ [some s.sent] })
    else (.gone, s)
  | .trigger => if s.live then (.triggered, s.send) else (.gone, s)
  | .receive receiver =>
    match s.next? receiver with
    | some next => ((s.receive next).1, s.moveTo receiver (some (s.receive next).2))
    | none => (.dropped, s)
  | .drop receiver => (.dropped, s.moveTo receiver none)
  | .dropShutdown => (.dropped, { s with live := false })

/-- Whether a receiver that waits for a signal goes on: it does for any reply but `empty`. -/
def wakes (s : Shutdown) (receiver : Nat) : Bool :=
  (s.step (.receive receiver)).1 != .empty

/-- The state after a list of actions. -/
def after (s : Shutdown) (actions : List Action) : Shutdown :=
  actions.foldl (fun s action => (s.step action).2) s

/-- The replies to a list of actions. -/
def run (s : Shutdown) : List Action → List Reply
  | [] => []
  | action :: actions => (s.step action).1 :: (s.step action).2.run actions

end Shutdown

end Gateway
