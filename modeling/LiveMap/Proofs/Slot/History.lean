import LiveMap.Slot.Script

/-!
# Histories of calls

What is recorded of a call and of the calls inside it, told without the callbacks: which calls are
open, which callback runs in each, and what each has still to invoke.

## Main definitions

* `Slot.replay`: what records make of the registered callbacks.
* `Slot.invocations`, `Slot.returns`: what they say of one call.
* `Slot.Frame`, `Slot.Progress`: a call that has not ended yet, and how far an outermost one is.
* `Slot.Step`, `Slot.History`: what may be recorded then, record by record.
* `Slot.Frame.Serves`: what becomes of an open call.

## Main statements

* `Slot.Step.serves`, `Slot.History.serves`: one record, and many.
* `Slot.History.serves_began`: calls that begin meanwhile.
* `Slot.History.entries_eq`, `Slot.History.failure_eq`: what is registered, and what has failed.
-/

namespace LiveMap.Slot

variable {ι : Type}

/-! ## What is in a record -/

namespace Record

/-- The callbacks that are registered after what was recorded. -/
def apply [DecidableEq ι] (entries : List ι) : Record ι → List ι
  | .added c => entries ++ [c]
  | .removed _ c _ => entries.erase c
  | .cleared => []
  | .began .. | .invoked .. | .returned .. | .failed _ | .ended _ => entries

/-- The invocation by a call that is recorded. -/
def invocation? (call : Nat) : Record ι → Option (ι × Int)
  | .invoked k c v => if k = call then some (c, v) else none
  | _ => none

/-- The callback that is recorded to have returned to a call. -/
def return? (call : Nat) : Record ι → Option ι
  | .returned k c => if k = call then some c else none
  | _ => none

/-- What is noted, beside the record, of a slot with that name. -/
def notice? (name : String) : Record ι → Option (Notice Float)
  | .added _ => some (.callbackAdded name)
  | .removed _ _ found => if found then some (.callbackRemoved name) else none
  | _ => none

end Record

/-- The callbacks that are registered after all that was recorded, in its order. -/
def replay [DecidableEq ι] (entries : List ι) (records : List (Record ι)) : List ι :=
  records.foldl Record.apply entries

/-- What a call invoked, with the values, in order. -/
def invocations (call : Nat) (records : List (Record ι)) : List (ι × Int) :=
  records.filterMap (Record.invocation? call)

/-- The callbacks that returned to a call, in order. -/
def returns (call : Nat) (records : List (Record ι)) : List ι :=
  records.filterMap (Record.return? call)

/-! ## Histories -/

/-- A call that has begun and not ended, with the callback that is running, and those that are still
to be invoked. -/
structure Frame (ι : Type) where
  call : Nat
  value : Int
  running : Option ι
  left : List ι

/-- How far a call is: the registered callbacks, how often the slot was called, the calls that are
open, the innermost first, and the failure that ended them. -/
structure Progress (ι : Type) where
  entries : List ι
  calls : Nat
  frames : List (Frame ι)
  failure : Option String

/-- What may be recorded next while calls are open, and how far they are then. Callbacks act while
they run, and a call goes on while none runs. -/
inductive Step [DecidableEq ι] : Progress ι → Record ι → Progress ι → Prop where
  /-- The running callback calls the slot with the value below. -/
  | began (entries : List ι) (calls k : Nat) (v : Int) (caller : ι) (left : List ι)
    (outer : List (Frame ι)) (hvalue : 0 < v) :
    Step ⟨entries, calls, ⟨k, v, some caller, left⟩ :: outer, none⟩ (.began calls (v - 1))
      ⟨entries, calls + 1,
        ⟨calls, v - 1, none, entries⟩ :: ⟨k, v, some caller, left⟩ :: outer, none⟩
  | invoked (entries : List ι) (calls k : Nat) (v : Int) (c : ι) (left : List ι)
    (outer : List (Frame ι)) :
    Step ⟨entries, calls, ⟨k, v, none, c :: left⟩ :: outer, none⟩ (.invoked k c v)
      ⟨entries, calls, ⟨k, v, some c, left⟩ :: outer, none⟩
  | added (c : ι) (entries : List ι) (calls k : Nat) (v : Int) (caller : ι) (left : List ι)
    (outer : List (Frame ι)) :
    Step ⟨entries, calls, ⟨k, v, some caller, left⟩ :: outer, none⟩ (.added c)
      ⟨entries ++ [c], calls, ⟨k, v, some caller, left⟩ :: outer, none⟩
  | removed (c : ι) (entries : List ι) (calls k : Nat) (v : Int) (caller : ι) (left : List ι)
    (outer : List (Frame ι)) :
    Step ⟨entries, calls, ⟨k, v, some caller, left⟩ :: outer, none⟩
      (.removed caller c (decide (c ∈ entries)))
      ⟨entries.erase c, calls, ⟨k, v, some caller, left⟩ :: outer, none⟩
  | cleared (entries : List ι) (calls k : Nat) (v : Int) (caller : ι) (left : List ι)
    (outer : List (Frame ι)) :
    Step ⟨entries, calls, ⟨k, v, some caller, left⟩ :: outer, none⟩ .cleared
      ⟨[], calls, ⟨k, v, some caller, left⟩ :: outer, none⟩
  | returned (entries : List ι) (calls k : Nat) (v : Int) (c : ι) (left : List ι)
    (outer : List (Frame ι)) :
    Step ⟨entries, calls, ⟨k, v, some c, left⟩ :: outer, none⟩ (.returned k c)
      ⟨entries, calls, ⟨k, v, none, left⟩ :: outer, none⟩
  /-- The running callback fails, and with it all calls that are open. -/
  | failed (reason : String) (entries : List ι) (calls k : Nat) (v : Int) (caller : ι)
    (left : List ι) (outer : List (Frame ι)) :
    Step ⟨entries, calls, ⟨k, v, some caller, left⟩ :: outer, none⟩ (.failed reason)
      ⟨entries, calls, [], some reason⟩
  /-- A call that has nothing left to invoke ends. -/
  | ended (entries : List ι) (calls k : Nat) (v : Int) (outer : List (Frame ι)) :
    Step ⟨entries, calls, ⟨k, v, none, []⟩ :: outer, none⟩ (.ended k) ⟨entries, calls, outer, none⟩

/-- What may be recorded, one thing after the other. Nothing is recorded while no call is open. -/
inductive History [DecidableEq ι] : Progress ι → List (Record ι) → Progress ι → Prop where
  | nil (p : Progress ι) : History p [] p
  | cons {p q s : Progress ι} {r : Record ι} {records : List (Record ι)} (step : Step p r q)
    (later : History q records s) : History p (r :: records) s

variable [DecidableEq ι]

namespace History

variable {p q s : Progress ι} {records later : List (Record ι)}

theorem single {r : Record ι} (step : Step p r q) : History p [r] q := .cons step (.nil q)

theorem append (h : History p records q) (h' : History q later s) :
    History p (records ++ later) s := by
  induction h with
  | nil => exact h'
  | cons step _ ih => exact .cons step (ih h')

/-- A history up to some record, and from there on. -/
theorem exists_split {before : List (Record ι)} (h : History p (before ++ later) s) :
    ∃ q, History p before q ∧ History q later s := by
  induction before generalizing p with
  | nil => exact ⟨p, .nil p, h⟩
  | cons r before ih =>
    obtain _ | ⟨step, hrest⟩ := h
    obtain ⟨q, hbefore, hlater⟩ := ih hrest
    exact ⟨q, .cons step hbefore, hlater⟩

/-- Nothing happens where no call is open. -/
theorem of_closed (h : History p records s) (hclosed : p.frames = []) : records = [] ∧ s = p := by
  obtain _ | ⟨step, -⟩ := h
  · exact ⟨rfl, rfl⟩
  · cases step <;> cases hclosed

end History

/-! ## What a history says -/

/-- Calls stand inside each other: each has a number that was given to it, and all but the innermost
one have a callback that runs. -/
structure Nested (p : Progress ι) : Prop where
  issued : ∀ f ∈ p.frames, f.call < p.calls
  distinct : (p.frames.map Frame.call).Nodup
  busy : ∀ f ∈ p.frames.tail, f.running.isSome

theorem Step.nested {p q : Progress ι} {r : Record ι} (h : Step p r q) (hp : Nested p) :
    Nested q := by
  obtain ⟨hissued, hdistinct, hbusy⟩ := hp
  cases h with
  | began entries calls k v caller left outer hvalue =>
    refine ⟨?_, ?_, ?_⟩
    · rintro f (_ | ⟨_, hf⟩)
      · exact Nat.lt_succ_self _
      · exact Nat.lt_succ_of_lt (hissued f hf)
    · refine List.nodup_cons.mpr ⟨fun hmem => ?_, hdistinct⟩
      obtain ⟨f, hf, hcall⟩ := List.mem_map.mp hmem
      have hlt := hissued f hf
      have heq : f.call = calls := hcall
      exact absurd hlt (by rw [heq]; exact Nat.lt_irrefl _)
    · rintro f (_ | ⟨_, hf⟩)
      · rfl
      · exact hbusy f hf
  | failed => exact ⟨nofun, List.nodup_nil, nofun⟩
  | ended entries calls k v outer =>
    exact ⟨fun f hf => hissued f (.tail _ hf), (List.nodup_cons.mp hdistinct).2,
      fun f hf => hbusy f (List.mem_of_mem_tail hf)⟩
  | added | removed | cleared => exact ⟨hissued, hdistinct, hbusy⟩
  | invoked entries calls k v c left outer | returned entries calls k v c left outer =>
    refine ⟨?_, hdistinct, hbusy⟩
    rintro f (_ | ⟨_, hf⟩)
    · have hk : k < calls := hissued _ (.head _)
      exact hk
    · exact hissued f (.tail _ hf)

omit [DecidableEq ι] in
/-- The callers of an open call have other numbers. -/
theorem Nested.call_ne {entries : List ι} {calls : Nat} {top f : Frame ι} {outer : List (Frame ι)}
    {failure : Option String} (h : Nested ⟨entries, calls, top :: outer, failure⟩)
    (hf : f ∈ outer) : f.call ≠ top.call := fun heq =>
  (List.nodup_cons.mp h.distinct).1 (heq ▸ List.mem_map_of_mem hf)

/-- A failure leaves no call open, and nothing else is one. -/
theorem Step.failure_eq {p q : Progress ι} {r : Record ι} (h : Step p r q) :
    (∃ reason, r = .failed reason ∧ q.frames = [] ∧ q.failure = some reason) ∨
      (∀ reason, r ≠ .failed reason) ∧ q.failure = none := by
  cases h with
  | failed reason => exact .inl ⟨reason, rfl, rfl, rfl⟩
  | _ => exact .inr ⟨nofun, rfl⟩

/-- A call that is not open does nothing, and is not opened. -/
theorem Step.absent {p q : Progress ι} {r : Record ι} {k : Nat} (h : Step p r q)
    (hk : k < p.calls) (hother : ∀ f ∈ p.frames, f.call ≠ k) :
    (r.invocation? k = none ∧ r.return? k = none) ∧ k < q.calls ∧ ∀ f ∈ q.frames, f.call ≠ k := by
  cases h with
  | began entries calls k' v caller left outer hvalue =>
    refine ⟨⟨rfl, rfl⟩, Nat.lt_succ_of_lt hk, ?_⟩
    rintro f (_ | ⟨_, hf⟩)
    · exact Nat.ne_of_gt hk
    · exact hother f hf
  | invoked entries calls k' v c left outer =>
    have hne : k' ≠ k := hother _ (.head _)
    refine ⟨⟨if_neg hne, rfl⟩, hk, ?_⟩
    rintro f (_ | ⟨_, hf⟩)
    · exact hne
    · exact hother f (.tail _ hf)
  | returned entries calls k' v c left outer =>
    have hne : k' ≠ k := hother _ (.head _)
    refine ⟨⟨rfl, if_neg hne⟩, hk, ?_⟩
    rintro f (_ | ⟨_, hf⟩)
    · exact hne
    · exact hother f (.tail _ hf)
  | failed => exact ⟨⟨rfl, rfl⟩, hk, nofun⟩
  | ended => exact ⟨⟨rfl, rfl⟩, hk, fun f hf => hother f (.tail _ hf)⟩
  | added | removed | cleared => exact ⟨⟨rfl, rfl⟩, hk, hother⟩

/-- What becomes of an open call. It ends after it has invoked all that was left, or it is cut off
by a callback that does not return. -/
def Frame.Serves (f : Frame ι) (records : List (Record ι)) (failure : Option String) : Prop :=
  (.ended f.call ∈ records ∧ returns f.call records = f.running.toList ++ f.left ∧
    invocations f.call records = f.left.map (·, f.value)) ∨
  (.ended f.call ∉ records ∧ failure ≠ none ∧ ∃ done culprit spared,
    f.running.toList ++ f.left = done ++ culprit :: spared ∧ returns f.call records = done ∧
    f.running.toList.map (·, f.value) ++ invocations f.call records =
      (done ++ [culprit]).map (·, f.value))

omit [DecidableEq ι] in
/-- What has nothing to do with a call. -/
theorem Frame.Serves.cons_other {f : Frame ι} {r : Record ι} {later : List (Record ι)}
    {failure : Option String} (h : f.Serves later failure)
    (hinvocation : r.invocation? f.call = none) (hreturn : r.return? f.call = none)
    (hended : .ended f.call ≠ r) : f.Serves (r :: later) failure := by
  have hinvocations : invocations f.call (r :: later) = invocations f.call later := by
    rw [invocations, List.filterMap_cons, hinvocation]
    rfl
  have hreturns : returns f.call (r :: later) = returns f.call later := by
    rw [returns, List.filterMap_cons, hreturn]
    rfl
  have hmem : Record.ended f.call ∈ r :: later ↔ .ended f.call ∈ later := by
    rw [List.mem_cons, or_iff_right hended]
  unfold Frame.Serves
  rw [hinvocations, hreturns, hmem]
  exact h

omit [DecidableEq ι] in
/-- The call invokes its next callback. -/
theorem Frame.Serves.invoked {k : Nat} {v : Int} {c : ι} {left : List ι} {later : List (Record ι)}
    {failure : Option String} (h : Frame.Serves ⟨k, v, some c, left⟩ later failure) :
    Frame.Serves ⟨k, v, none, c :: left⟩ (.invoked k c v :: later) failure := by
  have hinvocations : invocations k (.invoked k c v :: later) = (c, v) :: invocations k later := by
    simp [invocations, Record.invocation?]
  have hreturns : returns k (.invoked k c v :: later) = returns k later := rfl
  have hmem : Record.ended k ∈ .invoked k c v :: later ↔ .ended k ∈ later := by simp
  unfold Frame.Serves
  rw [hinvocations, hreturns, hmem]
  obtain ⟨hended, hreturned, hrest⟩ |
    ⟨hnot, hfailed, done, culprit, spared, hall, hdone, hrest⟩ := h
  · exact .inl ⟨hended, hreturned, congrArg ((c, v) :: ·) hrest⟩
  · exact .inr ⟨hnot, hfailed, done, culprit, spared, hall, hdone, hrest⟩

omit [DecidableEq ι] in
/-- The callback that runs returns. -/
theorem Frame.Serves.returned {k : Nat} {v : Int} {c : ι} {left : List ι} {later : List (Record ι)}
    {failure : Option String} (h : Frame.Serves ⟨k, v, none, left⟩ later failure) :
    Frame.Serves ⟨k, v, some c, left⟩ (.returned k c :: later) failure := by
  have hinvocations : invocations k (.returned k c :: later) = invocations k later := rfl
  have hreturns : returns k (.returned k c :: later) = c :: returns k later := by
    simp [returns, Record.return?]
  have hmem : Record.ended k ∈ .returned k c :: later ↔ .ended k ∈ later := by simp
  unfold Frame.Serves
  rw [hinvocations, hreturns, hmem]
  obtain ⟨hended, hreturned, hrest⟩ |
    ⟨hnot, hfailed, done, culprit, spared, hall, hdone, hrest⟩ := h
  · exact .inl ⟨hended, congrArg (c :: ·) hreturned, hrest⟩
  · exact .inr ⟨hnot, hfailed, c :: done, culprit, spared, congrArg (c :: ·) hall,
      congrArg (c :: ·) hdone, congrArg ((c, v) :: ·) hrest⟩

/-- What a record means to an open call: it goes on, it ends, or it is cut off. -/
theorem Step.serves {p q : Progress ι} {r : Record ι} {f : Frame ι} (h : Step p r q)
    (hp : Nested p) (hf : f ∈ p.frames) :
    (∃ f' ∈ q.frames, ∀ later failure, f'.Serves later failure → f.Serves (r :: later) failure) ∨
    (r = .ended f.call ∧ f.running = none ∧ f.left = [] ∧ f.call < q.calls ∧
      ∀ g ∈ q.frames, g.call ≠ f.call) ∨
    (∃ reason, r = .failed reason ∧ f.running.isSome ∧ q.frames = [] ∧
      q.failure = some reason) := by
  cases h with
  | began entries calls k v caller left outer hvalue =>
    exact .inl ⟨f, .tail _ hf, fun _ _ hlater => hlater.cons_other rfl rfl nofun⟩
  | added | removed | cleared =>
    exact .inl ⟨f, hf, fun _ _ hlater => hlater.cons_other rfl rfl nofun⟩
  | invoked entries calls k v c left outer =>
    obtain _ | ⟨_, hf⟩ := hf
    · exact .inl ⟨_, .head _, fun _ _ hlater => hlater.invoked⟩
    · have hne : k ≠ f.call := (hp.call_ne hf).symm
      exact .inl ⟨f, .tail _ hf, fun _ _ hlater => hlater.cons_other (if_neg hne) rfl nofun⟩
  | returned entries calls k v c left outer =>
    obtain _ | ⟨_, hf⟩ := hf
    · exact .inl ⟨_, .head _, fun _ _ hlater => hlater.returned⟩
    · have hne : k ≠ f.call := (hp.call_ne hf).symm
      exact .inl ⟨f, .tail _ hf, fun _ _ hlater => hlater.cons_other rfl (if_neg hne) nofun⟩
  | failed reason entries calls k v caller left outer =>
    obtain _ | ⟨_, hf⟩ := hf
    · exact .inr (.inr ⟨reason, rfl, rfl, rfl, rfl⟩)
    · -- The calls around it wait for the callback that called again.
      exact .inr (.inr ⟨reason, rfl, hp.busy f hf, rfl, rfl⟩)
  | ended entries calls k v outer =>
    obtain _ | ⟨_, hf⟩ := hf
    · exact .inr (.inl ⟨rfl, rfl, rfl, hp.issued _ (.head _), fun g hg => hp.call_ne hg⟩)
    · have hne : Record.ended (ι := ι) f.call ≠ .ended k := by
        rintro ⟨⟩
        exact hp.call_ne hf rfl
      exact .inl ⟨f, hf, fun _ _ hlater => hlater.cons_other rfl rfl hne⟩

/-- The outermost call stays open until it ends or something fails. -/
theorem Step.outermost {p q : Progress ι} {r : Record ι} {k : Nat} (h : Step p r q) (hp : Nested p)
    (hk : (p.frames.map Frame.call).getLast? = some k) :
    (.ended k ≠ r ∧ (q.frames.map Frame.call).getLast? = some k) ∨
      (q.frames = [] ∧ (.ended k = r ↔ q.failure = none)) := by
  cases h with
  | began entries calls k' v caller left outer hvalue =>
    refine .inl ⟨nofun, ?_⟩
    rw [List.map_cons, List.map_cons, List.getLast?_cons_cons]
    exact hk
  | invoked | added | removed | cleared | returned => exact .inl ⟨nofun, hk⟩
  | failed => exact .inr ⟨rfl, nofun, nofun⟩
  | ended entries calls k' v outer =>
    cases outer with
    | nil =>
      obtain rfl : k' = k := Option.some.inj hk
      exact .inr ⟨rfl, fun _ => rfl, fun _ => rfl⟩
    | cons f outer =>
      rw [List.map_cons, List.map_cons, List.getLast?_cons_cons] at hk
      refine .inl ⟨?_, hk⟩
      rintro ⟨⟩
      exact (List.nodup_cons.mp hp.distinct).1 (List.mem_of_getLast? hk)

namespace History

variable {p q s : Progress ι} {records before later : List (Record ι)}

theorem nested (h : History p records s) (hp : Nested p) : Nested s := by
  induction h with
  | nil => exact hp
  | cons step _ ih => exact ih (step.nested hp)

/-- The registered callbacks are what the records make of them. -/
theorem entries_eq (h : History p records s) : s.entries = replay p.entries records := by
  induction h with
  | nil => rfl
  | cons step _ ih => rw [ih]; cases step <;> rfl

/-- Whether a callback was registered is reported truly. -/
theorem found_eq {caller c : ι} {found : Bool}
    (h : History p (before ++ .removed caller c found :: later) s) :
    found = decide (c ∈ replay p.entries before) := by
  obtain ⟨q, hbefore, _ | ⟨step, -⟩⟩ := h.exists_split
  rw [← hbefore.entries_eq]
  cases step
  rfl

/-- A failure is the last thing that is recorded, and there is no other. -/
theorem failure_eq (h : History p records s) (hp : p.failure = none) :
    (s.failure = none → ∀ reason, .failed reason ∉ records) ∧
    ∀ reason, s.failure = some reason →
      ∃ earlier, records = earlier ++ [.failed reason] ∧ ∀ reason', .failed reason' ∉ earlier := by
  induction h with
  | nil => exact ⟨fun _ _ => nofun, fun _ hs => by rw [hp] at hs; cases hs⟩
  | @cons p q s r records step later ih =>
    obtain ⟨reason, rfl, hclosed, hq⟩ | ⟨hr, hq⟩ := step.failure_eq
    · obtain ⟨rfl, rfl⟩ := later.of_closed hclosed
      rw [hq]
      refine ⟨nofun, ?_⟩
      rintro reason' heq
      obtain rfl := Option.some.inj heq
      exact ⟨[], rfl, nofun⟩
    · obtain ⟨hfine, hfailed⟩ := ih hq
      have hnot {records : List (Record ι)} (hrecords : ∀ reason, .failed reason ∉ records)
          (reason : String) : .failed reason ∉ r :: records := fun hmem =>
        (List.mem_cons.mp hmem).elim (fun heq => hr reason heq.symm) (hrecords reason)
      refine ⟨fun hs => hnot (hfine hs), fun reason hs => ?_⟩
      obtain ⟨earlier, rfl, hearlier⟩ := hfailed reason hs
      exact ⟨r :: earlier, rfl, hnot hearlier⟩

/-- A call that has ended is not heard of again. -/
theorem absent {k : Nat} (h : History p records s) (hk : k < p.calls)
    (hother : ∀ f ∈ p.frames, f.call ≠ k) :
    invocations k records = [] ∧ returns k records = [] := by
  induction h with
  | nil => exact ⟨rfl, rfl⟩
  | cons step _ ih =>
    obtain ⟨⟨hinvocation, hreturn⟩, hk', hother'⟩ := step.absent hk hother
    obtain ⟨hinvocations, hreturns⟩ := ih hk' hother'
    rw [invocations, returns, List.filterMap_cons, List.filterMap_cons, hinvocation, hreturn]
    exact ⟨hinvocations, hreturns⟩

/-- By induction on the records, each of which an open call goes on with, ends with or is cut off
by. -/
theorem serves (h : History p records s) (hp : Nested p) (hs : s.frames = []) {f : Frame ι}
    (hf : f ∈ p.frames) : f.Serves records s.failure := by
  induction h generalizing f with
  | nil =>
    rw [hs] at hf
    cases hf
  | @cons p q s r records step later ih =>
    obtain ⟨f', hf', hgoes⟩ | ⟨rfl, hidle, hleft, hissued, hclosed⟩ |
      ⟨reason, rfl, hbusy, hclosed, hfailure⟩ := step.serves hp hf
    · exact hgoes _ _ (ih (step.nested hp) hs hf')
    · -- It has ended, and its number is not given again.
      obtain ⟨hinvocations, hreturns⟩ := later.absent hissued hclosed
      refine .inl ⟨List.mem_cons_self, ?_, ?_⟩
      · rw [hidle, hleft]
        exact hreturns
      · rw [hleft]
        exact hinvocations
    · obtain ⟨rfl, rfl⟩ := later.of_closed hclosed
      obtain ⟨c, hc⟩ := Option.isSome_iff_exists.mp hbusy
      refine .inr ⟨by simp, by rw [hfailure]; exact nofun, [], c, f.left, ?_, rfl, ?_⟩
      · rw [hc]
        rfl
      · rw [hc]
        rfl

/-- What becomes of a call that begins inside another one. -/
theorem serves_began {k : Nat} {v : Int} (h : History p (before ++ .began k v :: later) s)
    (hp : Nested p) (hs : s.frames = []) :
    Frame.Serves ⟨k, v, none, replay p.entries before⟩ later s.failure := by
  obtain ⟨q, hbefore, _ | ⟨step, hlater⟩⟩ := h.exists_split
  have hnested := step.nested (hbefore.nested hp)
  rw [← hbefore.entries_eq]
  cases step
  exact hlater.serves hnested hs (.head _)

/-- The outermost call ends unless something fails. -/
theorem ended_iff {k : Nat} (h : History p records s) (hp : Nested p) (hs : s.frames = [])
    (hk : (p.frames.map Frame.call).getLast? = some k) :
    .ended k ∈ records ↔ s.failure = none := by
  induction h with
  | nil =>
    rw [hs] at hk
    cases hk
  | cons step later ih =>
    obtain ⟨hother, hk'⟩ | ⟨hclosed, hended⟩ := step.outermost hp hk
    · rw [List.mem_cons, or_iff_right hother]
      exact ih (step.nested hp) hs hk'
    · obtain ⟨rfl, rfl⟩ := later.of_closed hclosed
      rw [List.mem_singleton]
      exact hended

end History

end LiveMap.Slot
