import LiveMap.Channel.Relay

/-!
# A journal of publications

A relay that writes down, beside everything it does, which publication began and ended when, which
subscription each message was handed to, and which subscriptions were made and ended.

## Main definitions

* `Relay.Event`, `Relay.Journal`: what is written down, and the relay it is written down for.
* `Relay.Journal.publish`: a publication with its journal.
* `Relay.replay`: what a journal says about the channel.
* `Relay.Event.nest`: how publications may stand inside each other.

## Main statements

* `Relay.Journal.relay_publish`: the journal is one of the publication itself.
-/

namespace LiveMap

/-! ## Deliveries seen through a projection -/

/-- A delivery of a larger state, each subscription served under its own name, shows as the delivery
of what the state projects to. -/
theorem deliver_map {ι W V : Type} {call : ι → W → W × Bool} {noteFailure : W → W}
    {callOf : Subscription ι → V → V × Bool} {noteFailureOf : V → V} (view : V → W)
    (hcall : ∀ s v, call s.listener (view v) = (view (callOf s v).1, (callOf s v).2))
    (hnote : ∀ v, noteFailure (view v) = view (noteFailureOf v)) (subs : List (Subscription ι))
    (v : V) :
    view (deliver callOf noteFailureOf (subs.map fun s => ⟨s.handle, s⟩) v) =
      deliver call noteFailure subs (view v) := by
  induction subs generalizing v with
  | nil => rfl
  | cons s rest ih =>
    simp only [List.map_cons, deliver, hcall]
    cases hc : callOf s v with
    | mk v' ok =>
      cases ok
      · simp only [hnote]
        exact ih _
      · exact ih _

namespace Relay

variable {ι : Type}

/-! ## Events -/

/-- What happens during publications. A publication goes by the number of those before it. -/
inductive Event (ι : Type) where
  | began (call : Nat) (message : Int)
  | handed (call : Nat) (recipient : Subscription ι) (message : Int)
  | subscribed (made : Subscription ι)
  | unsubscribed (handle : Nat)
  | failed (call : Nat)
  | ended (call : Nat)
  deriving DecidableEq, Repr

namespace Event

/-- The publication that the event is a part of. -/
def call? : Event ι → Option Nat
  | .began k _ | .handed k _ _ | .failed k | .ended k => some k
  | .subscribed _ | .unsubscribed _ => none

/-- What the event makes of the channel. -/
def apply (c : Channel ι) : Event ι → Channel ι
  | .began _ _ => { c with published := c.published + 1 }
  | .subscribed s => c.subscribe s.listener
  | .unsubscribed h => c.unsubscribe h
  | .handed .. | .failed _ | .ended _ => c

/-- The names in the event are those that the channel gives. -/
def Fits (c : Channel ι) : Event ι → Prop
  | .began k _ => k = c.published
  | .subscribed s => s.handle = c.opened
  | .unsubscribed h => h < c.opened
  | .handed .. | .failed _ | .ended _ => True

/-- The publications that are open after an event, each with its message, the innermost first. A
publication begins inside one of the message above it, and everything else belongs to the innermost
one. -/
def nest (inside : List (Nat × Int)) (e : Event ι) : Option (List (Nat × Int)) :=
  match e, inside with
  | .began k m, [] => some [(k, m)]
  | .began k m, (outer, m') :: rest =>
    if 0 < m' ∧ m = m' - 1 then some ((k, m) :: (outer, m') :: rest) else none
  | .handed k _ m, p :: rest => if (k, m) = p then some (p :: rest) else none
  | .failed k, p :: rest => if k = p.1 then some (p :: rest) else none
  | .ended k, p :: rest => if k = p.1 then some rest else none
  | .subscribed _, inside => some inside
  | .unsubscribed _, inside => some inside
  | _, [] => none

def hearing? : Event ι → Option (ι × Int)
  | .handed _ s m => some (s.listener, m)
  | _ => none

/-- What the event leaves in the log of a channel with that topic. -/
def notice? (topic : String) : Event ι → Option (Notice Float)
  | .subscribed _ => some (.subscribed topic)
  | .failed _ => some (.listenerFailed topic)
  | _ => none

def isBegan : Event ι → Bool
  | .began .. => true
  | _ => false

def made? : Event ι → Option (Subscription ι)
  | .subscribed s => some s
  | _ => none

def withdrawn? : Event ι → Option Nat
  | .unsubscribed h => some h
  | _ => none

/-- The delivery that the event is for a publication. -/
def delivery? (call : Nat) : Event ι → Option (Subscription ι × Int)
  | .handed k s m => if k = call then some (s, m) else none
  | _ => none

end Event

/-- The channel after events. -/
def replay (c : Channel ι) (events : List (Event ι)) : Channel ι := events.foldl Event.apply c

@[simp] theorem replay_nil (c : Channel ι) : replay c [] = c := rfl

@[simp] theorem replay_cons (c : Channel ι) (e : Event ι) (es : List (Event ι)) :
    replay c (e :: es) = replay (e.apply c) es := rfl

theorem replay_append (c : Channel ι) (es es' : List (Event ι)) :
    replay c (es ++ es') = replay (replay c es) es' := List.foldl_append

/-- All that a publication handed out, in order. -/
def deliveries (call : Nat) (events : List (Event ι)) : List (Subscription ι × Int) :=
  events.filterMap (Event.delivery? call)

theorem deliveries_append (call : Nat) (es es' : List (Event ι)) :
    deliveries call (es ++ es') = deliveries call es ++ deliveries call es' :=
  List.filterMap_append

/-! ## The relay with its journal -/

/-- A relay and what happened to it. -/
structure Journal (ι : Type) where
  relay : Relay ι
  events : List (Event ι) := []

namespace Journal

/-- The relay moves on, and the journal says why. -/
def write (j : Journal ι) (e : Event ι) (r : Relay ι) : Journal ι := ⟨r, j.events ++ [e]⟩

def subscribe (listener : ι) (j : Journal ι) : Journal ι :=
  j.write (.subscribed ⟨j.relay.channel.opened, listener⟩) (j.relay.subscribe listener)

/-- Ends a subscription; a handle that was never given is not worth an event. -/
def unsubscribe (handle : Nat) (j : Journal ι) : Journal ι :=
  if handle < j.relay.channel.opened then
    j.write (.unsubscribed handle) (j.relay.unsubscribe handle)
  else { j with relay := j.relay.unsubscribe handle }

variable [DecidableEq ι]

def act (again : Option (Journal ι → Journal ι)) (j : Journal ι) : Act ι → Journal ι
  | .subscribe l => j.subscribe l
  | .unsubscribe h => j.unsubscribe h
  | .unsubscribeLatest l =>
    match (j.relay.handlesOf l).getLast? with
    | some h => j.unsubscribe h
    | none => j
  | .republish =>
    match again with
    | some publish => publish j
    | none => j

def perform (again : Option (Journal ι → Journal ι)) : Plan ι → Journal ι → Journal ι × Bool
  | .done, j => (j, true)
  | .fail, j => (j, false)
  | .act a next, j => perform again (next (j.act again a).relay) (j.act again a)

/-- A subscription is served by a publication. -/
def serve (script : Script ι) (again : Option (Journal ι → Journal ι)) (call : Nat) (message : Int)
    (s : Subscription ι) (j : Journal ι) : Journal ι × Bool :=
  let j := j.write (.handed call s message) (j.relay.hear s.listener message)
  perform again (script s.listener message j.relay) j

/-- A listener failed. -/
def fail (topic : String) (call : Nat) (j : Journal ι) : Journal ι :=
  j.write (.failed call) (note (.listenerFailed topic) j.relay)

/-- The publication is counted. -/
def begin (message : Int) (j : Journal ι) : Journal ι :=
  let c := j.relay.channel
  j.write (.began c.published message)
    { j.relay with channel := { c with published := c.published + 1 } }

/-- A publication, begun, served and ended. -/
def publishWith (script : Script ι) (again : Option (Journal ι → Journal ι)) (message : Int)
    (j : Journal ι) : Journal ι :=
  let c := j.relay.channel
  let served := deliver (serve script again c.published message) (fail c.topic c.published)
    (c.live.map fun s => ⟨s.handle, s⟩) (j.begin message)
  served.write (.ended c.published) served.relay

def publishWithin (script : Script ι) : Nat → Int → Journal ι → Journal ι
  | 0, message, j => j.publishWith script none message
  | depth + 1, message, j =>
    j.publishWith script (some (publishWithin script depth (message - 1))) message

def publish (script : Script ι) (message : Int) (j : Journal ι) : Journal ι :=
  publishWithin script message.toNat message j

/-! ## The journal changes nothing -/

omit [DecidableEq ι] in
@[simp] theorem relay_unsubscribe (handle : Nat) (j : Journal ι) :
    (j.unsubscribe handle).relay = j.relay.unsubscribe handle := by
  unfold unsubscribe
  split <;> rfl

variable {again : Option (Journal ι → Journal ι)} {again' : Option (Relay ι → Relay ι)}

theorem relay_act (h : Option.Rel (fun f g => ∀ j, (f j).relay = g j.relay) again again')
    (a : Act ι) (j : Journal ι) : (j.act again a).relay = j.relay.act again' a := by
  cases a with
  | subscribe l => rfl
  | unsubscribe handle => exact relay_unsubscribe handle j
  | unsubscribeLatest l =>
    simp only [act, Relay.act]
    cases (j.relay.handlesOf l).getLast? with
    | none => rfl
    | some handle => exact relay_unsubscribe handle j
  | republish =>
    cases h with
    | none => rfl
    | some hpublish => exact hpublish j

theorem relay_perform (h : Option.Rel (fun f g => ∀ j, (f j).relay = g j.relay) again again')
    (p : Plan ι) (j : Journal ι) :
    Relay.perform again' p j.relay = ((perform again p j).1.relay, (perform again p j).2) := by
  induction p generalizing j with
  | done => rfl
  | fail => rfl
  | act a next ih =>
    simp only [Relay.perform, perform, ← relay_act h]
    exact ih _ _

theorem relay_publishWith (script : Script ι) (message : Int)
    (h : Option.Rel (fun f g => ∀ j, (f j).relay = g j.relay) again again') (j : Journal ι) :
    (j.publishWith script again message).relay =
      outlet.publish (Relay.call script again' message)
        (fun topic => note (.listenerFailed topic)) j.relay :=
  deliver_map relay (fun s j => relay_perform h (script s.listener message _) (j.write _ _))
    (fun _ => rfl) _ _

theorem relay_publishWithin (script : Script ι) (depth : Nat) (message : Int) (j : Journal ι) :
    (publishWithin script depth message j).relay =
      Relay.publishWithin script depth message j.relay := by
  induction depth generalizing message j with
  | zero => exact relay_publishWith script message .none j
  | succ depth ih => exact relay_publishWith script message (.some (ih _)) j

theorem relay_publish (script : Script ι) (message : Int) (j : Journal ι) :
    (j.publish script message).relay = j.relay.publish script message :=
  relay_publishWithin script _ message j

end Journal

end Relay

end LiveMap
