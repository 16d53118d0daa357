import LiveMap.Text.Quoted

/-!
# Callback slots

A slot is a list of callbacks that are invoked with one argument. A callback may stand in it more
than once. What one call invokes is fixed when it begins, and the first callback that fails ends it.

## Main definitions

* `Slot` with `Slot.add`, `Slot.remove`, `Slot.clear` and `Slot.describe`.
* `invokeAll`: the entries of a snapshot in order, up to the first that fails.
-/

namespace LiveMap

/-- A named list of callbacks, in the order of their registration. -/
structure Slot (ι : Type) where
  name : String
  entries : List ι := []
  deriving DecidableEq, Repr

namespace Slot

variable {ι : Type}

/-- Registers a callback behind all others. -/
def add (s : Slot ι) (callback : ι) : Slot ι := { s with entries := s.entries ++ [callback] }

/-- Removes the earliest entry of a callback. -/
def remove [DecidableEq ι] (s : Slot ι) (callback : ι) : Slot ι :=
  { s with entries := s.entries.erase callback }

def clear (s : Slot ι) : Slot ι := { s with entries := [] }

def length (s : Slot ι) : Nat := s.entries.length

@[simp] theorem entries_add (s : Slot ι) (c : ι) : (s.add c).entries = s.entries ++ [c] := rfl

@[simp] theorem entries_remove [DecidableEq ι] (s : Slot ι) (c : ι) :
    (s.remove c).entries = s.entries.erase c := rfl

@[simp] theorem entries_clear (s : Slot ι) : s.clear.entries = [] := rfl

def describe (s : Slot ι) : String :=
  "CallbackSlot(" ++ quoted s.name ++ ", callbacks=" ++ toString s.length ++ ")"

end Slot

/-- Invokes callbacks in order. The first that fails ends the call, and its failure is passed on. -/
def invokeAll {ι W ε : Type} (call : ι → W → W × Option ε) : List ι → W → W × Option ε
  | [], w => (w, none)
  | c :: rest, w =>
    match call c w with
    | (w, some e) => (w, some e)
    | (w, none) => invokeAll call rest w

@[simp] theorem invokeAll_nil {ι W ε : Type} (call : ι → W → W × Option ε) (w : W) :
    invokeAll call [] w = (w, none) := rfl

theorem invokeAll_append {ι W ε : Type} (call : ι → W → W × Option ε) (cs ds : List ι) (w : W) :
    invokeAll call (cs ++ ds) w =
      match invokeAll call cs w with
      | (w, some e) => (w, some e)
      | (w, none) => invokeAll call ds w := by
  induction cs generalizing w with
  | nil => rfl
  | cons c cs ih =>
    simp only [List.cons_append, invokeAll]
    cases call c w with
    | mk w' failure => cases failure <;> simp [ih]

/-- What every callback keeps, a call keeps. -/
theorem invokeAll_preserves {ι W ε : Type} {call : ι → W → W × Option ε} {P : W → Prop}
    {cs : List ι} (hcall : ∀ c ∈ cs, ∀ w, P w → P (call c w).1) {w : W} (hw : P w) :
    P (invokeAll call cs w).1 := by
  induction cs generalizing w with
  | nil => exact hw
  | cons c rest ih =>
    have hfirst := hcall c (List.mem_cons_self ..) w hw
    unfold invokeAll
    split
    next heq =>
      rw [heq] at hfirst
      exact hfirst
    next heq =>
      rw [heq] at hfirst
      exact ih (fun c' hc' => hcall c' (List.mem_cons_of_mem _ hc')) hfirst

/-- Where no callback fails and each leaves things so that the next does not, a call does not. -/
theorem invokeAll_succeeds {ι W ε : Type} {call : ι → W → W × Option ε} {P : W → Prop}
    {cs : List ι} (hcall : ∀ c ∈ cs, ∀ w, P w → (call c w).2 = none ∧ P (call c w).1) {w : W}
    (hw : P w) : (invokeAll call cs w).2 = none := by
  induction cs generalizing w with
  | nil => rfl
  | cons c rest ih =>
    obtain ⟨hdone, hnext⟩ := hcall c List.mem_cons_self w hw
    have hrest := ih (fun c' hc' => hcall c' (List.mem_cons_of_mem _ hc')) hnext
    unfold invokeAll
    split
    next heq =>
      rw [heq] at hdone
      exact hdone
    next heq =>
      rw [heq] at hrest
      exact hrest

end LiveMap
