import LiveMap.Channel.Basic
import LiveMap.Notice

/-!
# Listeners that act on their own channel

A listener may subscribe others, end subscriptions, publish a smaller message on the same channel,
and fail.

## Main definitions

* `Relay.Act`: the things a listener can do.
* `Relay`: a channel with the subscriptions ever made and the messages heard.
* `Relay.Plan`: what a listener does when it is called, each thing in view of what the last one led
  to.
* `Relay.publish`: one publication, with all the publications inside it.
-/

namespace LiveMap

/-- One thing that a listener does when it is called. -/
inductive Relay.Act (ι : Type) where
  | subscribe (listener : ι)
  | unsubscribe (handle : Nat)
  /-- Ends the latest subscription that was made for a listener. -/
  | unsubscribeLatest (listener : ι)
  /-- Publishes the message below, if the message is positive. -/
  | republish
  deriving DecidableEq, Repr

/-- A channel of integers, the listener of every subscription ever made by its handle, and the
messages heard. -/
structure Relay (ι : Type) where
  channel : Channel ι
  made : List ι := []
  heard : List (ι × Int) := []
  notices : List (Notice Float) := []

/-- What a listener does when it is called, until it returns or fails. -/
inductive Relay.Plan (ι : Type) where
  | done
  | fail
  | act (first : Relay.Act ι) (next : Relay ι → Relay.Plan ι)

/-- One thing after the other, whatever they lead to. -/
def Relay.Plan.ofActs {ι : Type} (last : Plan ι) : List (Act ι) → Plan ι
  | [] => last
  | a :: rest => .act a fun _ => ofActs last rest

namespace Relay

variable {ι : Type}

instance : Noted (Relay ι) Float := ⟨fun n r => { r with notices := r.notices ++ [n] }⟩

def outlet : Outlet (Relay ι) ι := ⟨channel, fun c r => { r with channel := c }⟩

def subscribe (listener : ι) (r : Relay ι) : Relay ι :=
  note (.subscribed r.channel.topic)
    { r with channel := r.channel.subscribe listener, made := r.made ++ [listener] }

def unsubscribe (handle : Nat) (r : Relay ι) : Relay ι :=
  { r with channel := r.channel.unsubscribe handle }

/-- The handles of all subscriptions ever made for a listener, the oldest first. -/
def handlesOf [DecidableEq ι] (r : Relay ι) (listener : ι) : List Nat :=
  r.made.zipIdx.filterMap fun p => if p.1 = listener then some p.2 else none

variable [DecidableEq ι]

/-- One thing that a listener does. `again` publishes the message below. -/
def act (again : Option (Relay ι → Relay ι)) (r : Relay ι) : Act ι → Relay ι
  | .subscribe l => r.subscribe l
  | .unsubscribe h => r.unsubscribe h
  | .unsubscribeLatest l =>
    match (r.handlesOf l).getLast? with
    | some h => r.unsubscribe h
    | none => r
  | .republish =>
    match again with
    | some publish => publish r
    | none => r

/-- All that a listener does, up to its failure, if it fails. -/
def perform (again : Option (Relay ι → Relay ι)) : Plan ι → Relay ι → Relay ι × Bool
  | .done, r => (r, true)
  | .fail, r => (r, false)
  | .act a next, r => perform again (next (r.act again a)) (r.act again a)

/-- What the listeners plan when they are called with a message, in view of all that happened. -/
abbrev Script (ι : Type) := ι → Int → Relay ι → Plan ι

def hear (listener : ι) (message : Int) (r : Relay ι) : Relay ι :=
  { r with heard := r.heard ++ [(listener, message)] }

def call (script : Script ι) (again : Option (Relay ι → Relay ι)) (message : Int) (listener : ι)
    (r : Relay ι) : Relay ι × Bool :=
  let r := r.hear listener message
  perform again (script listener message r) r

/-- A publication with at most `depth` publications inside each other. -/
def publishWithin (script : Script ι) : Nat → Int → Relay ι → Relay ι
  | 0, message, r =>
    outlet.publish (call script none message) (fun topic => note (.listenerFailed topic)) r
  | depth + 1, message, r =>
    outlet.publish (call script (some (publishWithin script depth (message - 1))) message)
      (fun topic => note (.listenerFailed topic)) r

/-- A publication. Each publication inside it has a smaller message, down to zero. -/
def publish (script : Script ι) (message : Int) (r : Relay ι) : Relay ι :=
  publishWithin script message.toNat message r

/-- The bound on publications inside each other is never what stops them. -/
theorem publish_eq (script : Script ι) (message : Int) (r : Relay ι) :
    r.publish script message =
      outlet.publish
        (call script (if 0 < message then some (publish script (message - 1)) else none) message)
        (fun topic => note (.listenerFailed topic)) r := by
  unfold publish
  by_cases h : 0 < message
  · have hdepth : message.toNat = (message - 1).toNat + 1 := by omega
    rw [if_pos h, hdepth, publishWithin]
  · have hdepth : message.toNat = 0 := by omega
    rw [if_neg h, hdepth, publishWithin]

end Relay

end LiveMap
