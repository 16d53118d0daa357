import LiveMap.Text.Quoted

/-!
# Channels

A channel hands every message to its subscriptions. What one publication reaches is fixed when it
begins; a listener that fails does not keep the message from the others.

## Main definitions

* `Subscription`, `Channel` with `Channel.subscribe`, `Channel.unsubscribe` and `Channel.count`.
* `deliver`: a message to the subscriptions of a snapshot, in order.
* `Outlet`: a channel inside a larger state, with `Outlet.publish`.
-/

namespace LiveMap

/-- A listener of a channel, under a handle that no other subscription of the channel has. -/
structure Subscription (ι : Type) where
  handle : Nat
  listener : ι
  deriving DecidableEq, Repr

/-- A named output: the live subscriptions in the order in which they were made, how many were ever
made, and how many messages were published. -/
structure Channel (ι : Type) where
  topic : String
  live : List (Subscription ι) := []
  opened : Nat := 0
  published : Nat := 0
  deriving DecidableEq, Repr

namespace Channel

variable {ι : Type}

/-- The channel with one more subscription; its handle is `c.opened`. -/
def subscribe (c : Channel ι) (listener : ι) : Channel ι :=
  { c with live := c.live ++ [⟨c.opened, listener⟩], opened := c.opened + 1 }

/-- The channel without the subscription of a handle. A handle that is not live changes nothing. -/
def unsubscribe (c : Channel ι) (handle : Nat) : Channel ι :=
  { c with live := c.live.filter fun s => s.handle ≠ handle }

def count (c : Channel ι) : Nat := c.live.length

def isHeard (c : Channel ι) : Bool := c.count ≠ 0

@[simp] theorem live_subscribe (c : Channel ι) (l : ι) :
    (c.subscribe l).live = c.live ++ [⟨c.opened, l⟩] := rfl

@[simp] theorem live_unsubscribe (c : Channel ι) (h : Nat) :
    (c.unsubscribe h).live = c.live.filter fun s => s.handle ≠ h := rfl

@[simp] theorem unsubscribe_unsubscribe (c : Channel ι) (h : Nat) :
    (c.unsubscribe h).unsubscribe h = c.unsubscribe h := by
  simp [unsubscribe, List.filter_filter]

/-- Handles are below the number of subscriptions made, so the next one is new. -/
def HandlesIssued (c : Channel ι) : Prop := ∀ s ∈ c.live, s.handle < c.opened

theorem HandlesIssued.subscribe {c : Channel ι} (h : c.HandlesIssued) (l : ι) :
    (c.subscribe l).HandlesIssued := by
  intro s hs
  simp only [live_subscribe, List.mem_append, List.mem_singleton] at hs
  rcases hs with hs | rfl
  · exact Nat.lt_succ_of_lt (h s hs)
  · exact Nat.lt_succ_self c.opened

theorem HandlesIssued.unsubscribe {c : Channel ι} (h : c.HandlesIssued) (handle : Nat) :
    (c.unsubscribe handle).HandlesIssued :=
  fun s hs => h s (List.mem_filter.mp hs).1

def describe (c : Channel ι) : String :=
  "Publisher(" ++ quoted c.topic ++ ", subscribers=" ++ toString c.count ++ ")"

end Channel

/-- Hands a message to subscriptions in order. `call` says what a listener does to the state and
whether it succeeds; a failure is noted, and the next listener is called. -/
def deliver {ι W : Type} (call : ι → W → W × Bool) (noteFailure : W → W) :
    List (Subscription ι) → W → W
  | [], w => w
  | s :: rest, w =>
    match call s.listener w with
    | (w, true) => deliver call noteFailure rest w
    | (w, false) => deliver call noteFailure rest (noteFailure w)

/-- What every listener and every noted failure keeps, a delivery keeps. -/
theorem deliver_preserves {ι W : Type} {call : ι → W → W × Bool} {noteFailure : W → W}
    {P : W → Prop} (hcall : ∀ l w, P w → P (call l w).1) (hnote : ∀ w, P w → P (noteFailure w)) :
    ∀ (subs : List (Subscription ι)) (w : W), P w → P (deliver call noteFailure subs w)
  | [], _, h => h
  | s :: rest, w, h => by
    have hs := hcall s.listener w h
    simp only [deliver]
    cases hc : call s.listener w with
    | mk w' ok =>
      rw [hc] at hs
      cases ok
      · exact deliver_preserves hcall hnote rest _ (hnote _ hs)
      · exact deliver_preserves hcall hnote rest _ hs

/-- The place of a channel inside a larger state. -/
structure Outlet (W ι : Type) where
  get : W → Channel ι
  set : Channel ι → W → W

/-- Publishes on the channel of an outlet: the publication is counted, then the subscriptions that
are live at that moment are served. -/
def Outlet.publish {W ι : Type} (p : Outlet W ι) (call : ι → W → W × Bool)
    (noteFailure : String → W → W) (w : W) : W :=
  let c := p.get w
  deliver call (noteFailure c.topic) c.live (p.set { c with published := c.published + 1 } w)

end LiveMap
