import LiveMap.Proofs.Slot.History

/-!
# Calls inside calls

While it is invoked, a callback may register and remove callbacks of its slot, clear it, call it
again and fail. A call still invokes the callbacks that were registered when it began, in order, up
to the first that fails, and a failure ends all the calls it happens in.

## Main definitions

* `Slot.Leads`: what a part of a call comes to.

## Main statements

* `Slot.exists_call`: the records of a call are a history.
* `Slot.call_nested`: what a call amounts to.
-/

namespace LiveMap.Slot

variable {ι : Type} [DecidableEq ι]

/-! ## Calls make histories -/

namespace Bench

/-- How far a bench is while calls are open. -/
def progress (frames : List (Frame ι)) (b : Bench ι) : Progress ι :=
  ⟨b.slot.entries, b.calls, frames, none⟩

/-- How far a part of a call has come that leaves calls open, unless it fails. -/
def reached (frames : List (Frame ι)) : Bench ι × Option String → Progress ι
  | (b, none) => b.progress frames
  | (b, some reason) => ⟨b.slot.entries, b.calls, [], some reason⟩

omit [DecidableEq ι] in
theorem reached_nil (outcome : Bench ι × Option String) :
    reached [] outcome = ⟨outcome.1.slot.entries, outcome.1.calls, [], outcome.2⟩ := by
  obtain ⟨b, _ | reason⟩ := outcome <;> rfl

end Bench

/-- What is recorded in a part of a call. -/
structure Leads (frames frames' : List (Frame ι)) (records : List (Record ι)) (b : Bench ι)
    (outcome : Bench ι × Option String) : Prop where
  trace : outcome.1.trace = b.trace ++ records
  notices : outcome.1.notices = b.notices ++ records.filterMap (Record.notice? b.slot.name)
  name : outcome.1.slot.name = b.slot.name
  history : History (b.progress frames) records (Bench.reached frames' outcome)

namespace Leads

variable {frames frames' frames'' : List (Frame ι)} {records later : List (Record ι)}
  {b b' : Bench ι} {outcome : Bench ι × Option String}

theorem refl (frames : List (Frame ι)) (b : Bench ι) : Leads frames frames [] b (b, none) where
  trace := (List.append_nil _).symm
  notices := (List.append_nil _).symm
  name := rfl
  history := .nil _

theorem trans (h : Leads frames frames' records b (b', none))
    (h' : Leads frames' frames'' later b' outcome) :
    Leads frames frames'' (records ++ later) b outcome where
  trace := by rw [h'.trace, h.trace, List.append_assoc]
  notices := by rw [h'.notices, h.notices, h.name, List.filterMap_append, List.append_assoc]
  name := h'.name.trans h.name
  history := h.history.append h'.history

/-- A failure leaves no call open, whichever were to stay open. -/
theorem failed {reason : String} (h : Leads frames frames' records b (b', some reason)) :
    Leads frames frames'' records b (b', some reason) :=
  ⟨h.trace, h.notices, h.name, h.history⟩

/-- One record that nothing is noted beside. -/
theorem record {r : Record ι} {failure : Option String}
    (hstep : Step (b.progress frames) r (Bench.reached frames' (b.record r, failure)))
    (hnotice : Record.notice? b.slot.name r = none) :
    Leads frames frames' [r] b (b.record r, failure) where
  trace := rfl
  notices := by rw [List.filterMap_cons, hnotice]; exact (List.append_nil _).symm
  name := rfl
  history := .single hstep

end Leads

section Calls

variable {again : Option (Bench ι → Bench ι × Option String)} {frames : List (Frame ι)}

/-- What the calls inside do while a callback runs. -/
def Continues (again : Option (Bench ι → Bench ι × Option String)) (frames : List (Frame ι)) :
    Prop :=
  ∀ call, again = some call → ∀ b, ∃ records, Leads frames frames records b (call b)

theorem exists_act {k : Nat} {v : Int} {caller : ι} {left : List ι} {outer : List (Frame ι)}
    (hframes : frames = ⟨k, v, some caller, left⟩ :: outer) (hagain : Continues again frames)
    (a : Act ι) (b : Bench ι) :
    ∃ records, Leads frames frames records b (b.act again caller a) := by
  subst hframes
  cases a with
  | add c => exact ⟨[.added c], rfl, rfl, rfl, .single (.added ..)⟩
  | remove c =>
    refine ⟨[.removed caller c (decide (c ∈ b.slot.entries))], ?_⟩
    unfold Bench.act
    dsimp only
    rw [Bench.remove_eq]
    refine ⟨rfl, ?_, rfl, .single (.removed ..)⟩
    by_cases hmem : c ∈ b.slot.entries <;> simp [Bench.record, Record.notice?, hmem]
  | clear => exact ⟨[.cleared], rfl, (List.append_nil _).symm, rfl, .single (.cleared ..)⟩
  | callAgain =>
    unfold Bench.act
    cases again with
    | none => exact ⟨[], .refl _ b⟩
    | some call => exact hagain call rfl b

theorem exists_perform {k : Nat} {v : Int} {caller : ι} {left : List ι} {outer : List (Frame ι)}
    (hframes : frames = ⟨k, v, some caller, left⟩ :: outer) (hagain : Continues again frames)
    (plan : Plan ι) (b : Bench ι) :
    ∃ records, Leads frames frames records b (Bench.perform again caller plan b) := by
  induction plan generalizing b with
  | done => exact ⟨[], .refl _ b⟩
  | fail reason =>
    subst hframes
    exact ⟨[.failed reason], .record (.failed ..) rfl⟩
  | act a next ih =>
    obtain ⟨records, hact⟩ := exists_act hframes hagain a b
    unfold Bench.perform
    split
    next b' reason heq =>
      rw [heq] at hact
      exact ⟨records, hact⟩
    next b' heq =>
      rw [heq] at hact
      obtain ⟨later, hnext⟩ := ih b' b'
      exact ⟨_, hact.trans hnext⟩

variable {k : Nat} {v : Int} {outer : List (Frame ι)}

theorem exists_invoke (script : Script ι) (c : ι) (left : List ι)
    (hagain : Continues again (⟨k, v, some c, left⟩ :: outer)) (b : Bench ι) :
    ∃ records, Leads (⟨k, v, none, c :: left⟩ :: outer) (⟨k, v, none, left⟩ :: outer) records b
      (Bench.invoke script again k v c b) := by
  have hinvoked : Leads (⟨k, v, none, c :: left⟩ :: outer) (⟨k, v, some c, left⟩ :: outer)
      [.invoked k c v] b (b.record (.invoked k c v), none) := .record (.invoked ..) rfl
  obtain ⟨records, hperform⟩ := exists_perform rfl hagain
    (script c v (b.record (.invoked k c v))) (b.record (.invoked k c v))
  unfold Bench.invoke
  dsimp only
  split
  next b' reason heq =>
    rw [heq] at hperform
    exact ⟨_, (hinvoked.trans hperform).failed⟩
  next b' heq =>
    rw [heq] at hperform
    have hreturned : Leads (⟨k, v, some c, left⟩ :: outer) (⟨k, v, none, left⟩ :: outer)
        [.returned k c] b' (b'.record (.returned k c), none) := .record (.returned ..) rfl
    exact ⟨_, (hinvoked.trans hperform).trans hreturned⟩

/-- By induction on the callbacks that are left, up to the first that fails. -/
theorem exists_invokeAll (script : Script ι)
    (hagain : ∀ c left, Continues again (⟨k, v, some c, left⟩ :: outer)) (left : List ι)
    (b : Bench ι) :
    ∃ records, Leads (⟨k, v, none, left⟩ :: outer) (⟨k, v, none, []⟩ :: outer) records b
      (invokeAll (Bench.invoke script again k v) left b) := by
  induction left generalizing b with
  | nil => exact ⟨[], .refl _ b⟩
  | cons c left ih =>
    obtain ⟨records, hinvoke⟩ := exists_invoke script c left (hagain c left) b
    unfold invokeAll
    split
    next b' reason heq =>
      rw [heq] at hinvoke
      exact ⟨records, hinvoke.failed⟩
    next b' heq =>
      rw [heq] at hinvoke
      obtain ⟨later, hrest⟩ := ih b'
      exact ⟨_, hinvoke.trans hrest⟩

theorem exists_callWith (script : Script ι) (b : Bench ι)
    (hagain : ∀ c left, Continues again (⟨b.calls, v, some c, left⟩ :: outer)) :
    ∃ records, Leads (⟨b.calls, v, none, b.slot.entries⟩ :: outer) outer records (b.begin v)
      (b.callWith script again v) := by
  obtain ⟨records, hserved⟩ := exists_invokeAll script hagain b.slot.entries (b.begin v)
  unfold Bench.callWith
  split
  next after reason heq =>
    rw [heq] at hserved
    exact ⟨records, hserved.failed⟩
  next after heq =>
    rw [heq] at hserved
    have hended : Leads (⟨b.calls, v, none, []⟩ :: outer) outer [.ended b.calls] after
        (after.record (.ended b.calls), none) := .record (.ended ..) rfl
    exact ⟨_, hserved.trans hended⟩

/-- By induction on how deep calls may stand inside each other. -/
theorem exists_call (script : Script ι) (value : Int) (outer : List (Frame ι)) (b : Bench ι) :
    ∃ records, Leads (⟨b.calls, value, none, b.slot.entries⟩ :: outer) outer records (b.begin value)
      (b.call script value) := by
  induction hdepth : value.toNat generalizing value outer b with
  | zero =>
    rw [Bench.call_eq, if_neg (by omega)]
    exact exists_callWith script b fun c left => nofun
  | succ depth ih =>
    have hvalue : 0 < value := by omega
    rw [Bench.call_eq, if_pos hvalue]
    refine exists_callWith script b fun c left call hcall b' => ?_
    obtain rfl := Option.some.inj hcall
    -- The call inside begins with the caller still open beneath it.
    obtain ⟨records, hinside⟩ := ih (value - 1)
      (⟨b.calls, value, some c, left⟩ :: outer) b' (by omega)
    have hbegan : Leads (⟨b.calls, value, some c, left⟩ :: outer)
        (⟨b'.calls, value - 1, none, b'.slot.entries⟩ :: ⟨b.calls, value, some c, left⟩ :: outer)
        [.began b'.calls (value - 1)] b' (b'.begin (value - 1), none) :=
      ⟨rfl, (List.append_nil _).symm, rfl, .single (.began _ _ _ _ _ _ _ hvalue)⟩
    exact ⟨_, hbegan.trans hinside⟩

end Calls

/-! ## What a call amounts to -/

section Outermost

variable {entries : List ι} {calls : Nat} {value : Int} {rest before later : List (Record ι)}
  {s : Progress ι}

omit [DecidableEq ι] in
/-- An outermost call is alone when it begins. -/
theorem nested_outermost (entries : List ι) (calls : Nat) (value : Int) :
    Nested ⟨entries, calls + 1, [⟨calls, value, none, entries⟩], none⟩ :=
  ⟨by simp, by simp, nofun⟩

/-- What becomes of an outermost call and of all calls inside it. -/
theorem serves_outermost {k : Nat} {v : Int}
    (h : History ⟨entries, calls + 1, [⟨calls, value, none, entries⟩], none⟩ rest s)
    (hs : s.frames = []) (hrecords : .began calls value :: rest = before ++ .began k v :: later) :
    Frame.Serves ⟨k, v, none, replay entries before⟩ later s.failure := by
  have hnested := nested_outermost entries calls value
  obtain _ | ⟨r, before⟩ := before
  · -- The outermost call began before its history.
    obtain ⟨hbegan, rfl⟩ := List.cons.inj hrecords
    obtain ⟨rfl, rfl⟩ := Record.began.inj hbegan
    exact h.serves hnested hs (.head _)
  · obtain ⟨rfl, rfl⟩ := List.cons.inj hrecords
    exact h.serves_began hnested hs

theorem found_outermost {caller c : ι} {found : Bool}
    (h : History ⟨entries, calls + 1, [⟨calls, value, none, entries⟩], none⟩ rest s)
    (hrecords : .began calls value :: rest = before ++ .removed caller c found :: later) :
    found = decide (c ∈ replay entries before) := by
  obtain _ | ⟨r, before⟩ := before
  · cases hrecords
  · obtain ⟨rfl, rfl⟩ := List.cons.inj hrecords
    exact h.found_eq

end Outermost

/-- Whatever callbacks do when they are invoked, a call comes to an end, and so do those inside it,
each of the value below that of the call it happens in. Each of them invokes the callbacks that were
registered when it began, in order, up to the first that does not return; if it ends they all
returned. A failure is the last thing that happens in any of them, and the outermost one passes it
on. Registered in the end is what additions, removals of the earliest entry and clearings made of
the slot in their order. Nothing is asked of the slot before, so the same holds of what comes after,
also after a failure. -/
theorem call_nested (script : Script ι) (value : Int) (b : Bench ι) :
    let after := (b.call script value).1
    let failure := (b.call script value).2
    b.call script value = b.callWith script
      (if 0 < value then some (Bench.call script (value - 1)) else none) value ∧
    ∃ rest,
      let records := .began b.calls value :: rest
      after.trace = b.trace ++ records ∧
      after.notices = b.notices ++ records.filterMap (Record.notice? b.slot.name) ∧
      after.slot = { b.slot with entries := replay b.slot.entries records } ∧
      History ⟨b.slot.entries, b.calls + 1, [⟨b.calls, value, none, b.slot.entries⟩], none⟩ rest
        ⟨after.slot.entries, after.calls, [], failure⟩ ∧
      (∀ before k v later, records = before ++ .began k v :: later →
        let registered := replay b.slot.entries before
        (.ended k ∈ later ∧ returns k later = registered ∧
          invocations k later = registered.map (·, v)) ∨
        (.ended k ∉ later ∧ failure ≠ none ∧ ∃ done culprit spared,
          registered = done ++ culprit :: spared ∧ returns k later = done ∧
          invocations k later = (done ++ [culprit]).map (·, v))) ∧
      (∀ before caller c found later, records = before ++ .removed caller c found :: later →
        found = decide (c ∈ replay b.slot.entries before)) ∧
      (failure = none → .ended b.calls ∈ rest ∧ ∀ reason, .failed reason ∉ records) ∧
      (∀ reason, failure = some reason → .ended b.calls ∉ rest ∧
        ∃ earlier, records = earlier ++ [.failed reason] ∧
          ∀ reason', .failed reason' ∉ earlier) := by
  intro after failure
  obtain ⟨rest, hcall⟩ := exists_call script value [] b
  have hhistory : History ⟨b.slot.entries, b.calls + 1,
      [⟨b.calls, value, none, b.slot.entries⟩], none⟩ rest
      ⟨after.slot.entries, after.calls, [], failure⟩ :=
    Bench.reached_nil (b.call script value) ▸ hcall.history
  have hnested := nested_outermost b.slot.entries b.calls value
  obtain ⟨hfine, hfailed⟩ := hhistory.failure_eq rfl
  have hended := hhistory.ended_iff hnested rfl rfl
  refine ⟨Bench.call_eq script value b, rest, ?_, hcall.notices, ?_, hhistory,
    fun _ _ _ _ hrecords => serves_outermost hhistory rfl hrecords,
    fun _ _ _ _ _ hrecords => found_outermost hhistory hrecords, ?_, ?_⟩
  · rw [hcall.trace, Bench.begin, Bench.record, List.append_assoc]
    rfl
  · have hentries : after.slot.entries = replay b.slot.entries rest := hhistory.entries_eq
    have hname : after.slot.name = b.slot.name := hcall.name
    calc after.slot = ⟨after.slot.name, after.slot.entries⟩ := rfl
      _ = ⟨b.slot.name, replay b.slot.entries rest⟩ := by rw [hname, hentries]
  · intro hnone
    exact ⟨hended.mpr hnone, fun reason hmem =>
      (List.mem_cons.mp hmem).elim nofun (hfine hnone reason)⟩
  · intro reason hsome
    obtain ⟨earlier, rfl, hearlier⟩ := hfailed reason hsome
    refine ⟨fun hmem => ?_, .began b.calls value :: earlier, rfl, fun reason' hmem =>
      (List.mem_cons.mp hmem).elim nofun (hearlier reason')⟩
    have hnone : failure = none := hended.mp hmem
    rw [hsome] at hnone
    cases hnone

/-- The first callback removes the second one, registers a third one and calls the slot again, where
the third one fails; but called with zero the first one does nothing. -/
def unruly : Script Nat
  | 0, value, _ =>
    if 0 < value then .ofActs .done [.remove 1, .remove 1, .add 2, .callAgain] else .done
  | 2, _, _ => .ofActs (.fail "late") [.add 0]
  | _, _, _ => .done

/-- The call inside invokes the first and the third callback, and neither call ends; what the
callbacks made of the slot stays. -/
theorem call_nested_unruly :
    let b : Bench Nat := { slot := { name := "on_new_frame", entries := [0, 1] } }
    let after := (b.call unruly 1).1
    let before := [.began 0 1, .invoked 0 0 1, .removed 0 1 true, .removed 0 1 false, .added 2]
    let later := [.invoked 1 0 0, .returned 1 0, .invoked 1 2 0, .added 0, .failed "late"]
    (b.call unruly 1).2 = some "late" ∧ after.trace = before ++ .began 1 0 :: later ∧
    .ended 1 ∉ later ∧ .ended 0 ∉ before ++ .began 1 0 :: later ∧
    (∃ done culprit spared, replay [0, 1] before = done ++ culprit :: spared ∧
      returns 1 later = done ∧ invocations 1 later = (done ++ [culprit]).map (·, 0)) ∧
    (∃ earlier, after.trace = earlier ++ [.failed "late"]) ∧ after.slot.entries = [0, 2, 0] := by
  intro b after before later
  obtain ⟨-, rest, htrace, -, hslot, -, hcalls, -, -, hfailed⟩ := call_nested unruly 1 b
  have hfailure : (b.call unruly 1).2 = some "late" := by decide
  have hrecorded : after.trace = before ++ .began 1 0 :: later := by decide
  have hrecords : .began 0 1 :: rest = before ++ .began 1 0 :: later :=
    htrace.symm.trans hrecorded
  obtain ⟨houtermost, earlier, hlast, -⟩ := hfailed "late" hfailure
  have hout : .ended 0 ∉ before ++ .began 1 0 :: later := by
    rw [← hrecords]
    exact fun hmem => (List.mem_cons.mp hmem).elim nofun houtermost
  obtain ⟨hended, -⟩ | ⟨hcut, -, hculprit⟩ := hcalls before 1 0 later hrecords
  · exact absurd hended (by decide)
  · refine ⟨hfailure, hrecorded, hcut, hout, hculprit, ⟨earlier, htrace.trans hlast⟩, ?_⟩
    have hentries : after.slot.entries = replay [0, 1] (.began 0 1 :: rest) :=
      congrArg Slot.entries hslot
    rw [hentries, hrecords]
    decide

end LiveMap.Slot
