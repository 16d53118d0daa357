import LiveMap.Notice
import LiveMap.Slot.Basic

/-!
# Callbacks that act on their own slot

A callback may register and remove callbacks of the slot it is called by, clear the slot, call it
again with a smaller value, and fail.

## Main definitions

* `Slot.Act`: the things a callback can do.
* `Slot.Bench`: a slot with the record of what its callbacks did.
* `Slot.Plan`: what a callback does when it is called, each thing in view of what the last one led
  to.
* `Slot.Bench.call`: one call of the slot, with all the calls inside it.
-/

namespace LiveMap.Slot

/-- One thing that a callback does. -/
inductive Act (ι : Type) where
  | add (callback : ι)
  | remove (callback : ι)
  | clear
  /-- Calls the slot with the value below, if the value is positive. -/
  | callAgain
  deriving DecidableEq, Repr

/-- What is recorded of calls. A call goes by the number of those before it. -/
inductive Record (ι : Type) where
  | began (call : Nat) (value : Int)
  | invoked (call : Nat) (callback : ι) (value : Int)
  | added (callback : ι)
  | removed (caller callback : ι) (found : Bool)
  | cleared
  | returned (call : Nat) (callback : ι)
  | failed (reason : String)
  | ended (call : Nat)
  deriving DecidableEq, Repr

/-- A slot, how often it was called, and the record of what its callbacks did. -/
structure Bench (ι : Type) where
  slot : Slot ι
  calls : Nat := 0
  trace : List (Record ι) := []
  notices : List (Notice Float) := []

/-- What a callback does when it is called, until it returns or fails. -/
inductive Plan (ι : Type) where
  | done
  | fail (reason : String)
  | act (first : Act ι) (next : Bench ι → Plan ι)

/-- One thing after the other, whatever they lead to. -/
def Plan.ofActs {ι : Type} (last : Plan ι) : List (Act ι) → Plan ι
  | [] => last
  | a :: rest => .act a fun _ => ofActs last rest

/-- What the callbacks plan when they are called with a value, in view of all that happened. -/
abbrev Script (ι : Type) := ι → Int → Bench ι → Plan ι

namespace Bench

variable {ι : Type} [DecidableEq ι]

instance : Noted (Bench ι) Float := ⟨fun n b => { b with notices := b.notices ++ [n] }⟩

def record (r : Record ι) (b : Bench ι) : Bench ι := { b with trace := b.trace ++ [r] }

def add (callback : ι) (b : Bench ι) : Bench ι :=
  note (.callbackAdded b.slot.name) { b with slot := b.slot.add callback }

/-- Whether a callback is registered, and the slot without its earliest entry. -/
def remove (callback : ι) (b : Bench ι) : Bool × Bench ι :=
  if callback ∈ b.slot.entries then
    (true, note (.callbackRemoved b.slot.name) { b with slot := b.slot.remove callback })
  else (false, b)

/-- A callback that is not registered is removed from nothing. -/
theorem remove_eq (callback : ι) (b : Bench ι) :
    b.remove callback =
      (decide (callback ∈ b.slot.entries),
        { b with
          slot := b.slot.remove callback
          notices := b.notices ++
            if callback ∈ b.slot.entries then [.callbackRemoved b.slot.name] else [] }) := by
  unfold remove
  by_cases hmem : callback ∈ b.slot.entries
  · rw [if_pos hmem, if_pos hmem, decide_eq_true hmem]
    rfl
  · rw [if_neg hmem, if_neg hmem, decide_eq_false hmem, Slot.remove, List.erase_of_not_mem hmem,
      List.append_nil]

def clear (b : Bench ι) : Bench ι := { b with slot := b.slot.clear }

/-- One thing that a callback does. `again` is the call with the value below. -/
def act (again : Option (Bench ι → Bench ι × Option String)) (caller : ι) (b : Bench ι) :
    Act ι → Bench ι × Option String
  | .add c => ((b.add c).record (.added c), none)
  | .remove c =>
    let (found, removed) := b.remove c
    (removed.record (.removed caller c found), none)
  | .clear => (b.clear.record .cleared, none)
  | .callAgain =>
    match again with
    | none => (b, none)
    | some call => call b

/-- What a callback does, up to the first failure. -/
def perform (again : Option (Bench ι → Bench ι × Option String)) (caller : ι) :
    Plan ι → Bench ι → Bench ι × Option String
  | .done, b => (b, none)
  | .fail reason, b => (b.record (.failed reason), some reason)
  | .act a next, b =>
    match b.act again caller a with
    | (b, some reason) => (b, some reason)
    | (b, none) => perform again caller (next b) b

/-- A callback called with a value. -/
def invoke (script : Script ι) (again : Option (Bench ι → Bench ι × Option String)) (call : Nat)
    (value : Int) (callback : ι) (b : Bench ι) : Bench ι × Option String :=
  let b := b.record (.invoked call callback value)
  match perform again callback (script callback value b) b with
  | (b, some reason) => (b, some reason)
  | (b, none) => (b.record (.returned call callback), none)

/-- The call is counted. -/
def begin (value : Int) (b : Bench ι) : Bench ι :=
  { b with calls := b.calls + 1 }.record (.began b.calls value)

/-- A call of the slot: the callbacks that are registered when it begins, up to the first that
fails. -/
def callWith (script : Script ι) (again : Option (Bench ι → Bench ι × Option String)) (value : Int)
    (b : Bench ι) : Bench ι × Option String :=
  match invokeAll (invoke script again b.calls value) b.slot.entries (b.begin value) with
  | (after, some reason) => (after, some reason)
  | (after, none) => (after.record (.ended b.calls), none)

/-- A call of the slot with at most `depth` calls inside each other. -/
def callWithin (script : Script ι) : Nat → Int → Bench ι → Bench ι × Option String
  | 0, value, b => b.callWith script none value
  | depth + 1, value, b => b.callWith script (some (callWithin script depth (value - 1))) value

/-- A call of the slot. Each call inside it has a smaller value, down to zero. -/
def call (script : Script ι) (value : Int) (b : Bench ι) : Bench ι × Option String :=
  callWithin script value.toNat value b

/-- The bound on calls inside each other is never what stops them. -/
theorem call_eq (script : Script ι) (value : Int) (b : Bench ι) :
    b.call script value =
      b.callWith script (if 0 < value then some (call script (value - 1)) else none) value := by
  unfold call
  by_cases h : 0 < value
  · have hdepth : value.toNat = (value - 1).toNat + 1 := by omega
    rw [if_pos h, hdepth, callWithin]
  · have hdepth : value.toNat = 0 := by omega
    rw [if_neg h, hdepth, callWithin]

end Bench

end LiveMap.Slot
