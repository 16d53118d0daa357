import LiveMap.Proofs.Channel.Journal

/-!
# What a journal says about a channel

Replaying events on a channel counts the publications and keeps handles apart, and tells who is live
in the end from who was, who became so, and which handles were ended.

## Main definitions

* `Relay.Fitting`: the names in a journal are those that the channel gives.
* `Relay.WellNamed`: handles are given out before they are held, and held once.

## Main statements

* `Relay.published_replay`, `Relay.Fitting.live_replay`, `Relay.WellNamed.nodup_live_made`.
-/

namespace LiveMap.Relay

variable {ι : Type}

/-! ## Names in a journal -/

/-- Every event of a list fits the channel that it meets. -/
def Fitting : Channel ι → List (Event ι) → Prop
  | _, [] => True
  | c, e :: es => e.Fits c ∧ Fitting (e.apply c) es

theorem fitting_append {c : Channel ι} {es es' : List (Event ι)} :
    Fitting c (es ++ es') ↔ Fitting c es ∧ Fitting (replay c es) es' := by
  induction es generalizing c with
  | nil => simp [Fitting]
  | cons e es ih => simp only [List.cons_append, Fitting, replay_cons, ih, and_assoc]

theorem published_replay (c : Channel ι) (es : List (Event ι)) :
    (replay c es).published = c.published + es.countP Event.isBegan := by
  induction es generalizing c with
  | nil => rfl
  | cons e es ih =>
    have hstep : (e.apply c).published = c.published + if e.isBegan then 1 else 0 := by
      cases e <;> rfl
    rw [replay_cons, ih, hstep, List.countP_cons]
    omega

/-- A publication gets the number of those before it. -/
theorem Fitting.call_began {c : Channel ι} {before rest : List (Event ι)} {call : Nat}
    {message : Int} (h : Fitting c (before ++ .began call message :: rest)) :
    call = (replay c before).published ∧ c.published ≤ call ∧
      call < (replay c (before ++ .began call message :: rest)).published := by
  obtain ⟨-, hfits, -⟩ := fitting_append.mp h
  have hcall : call = (replay c before).published := hfits
  have hbefore := published_replay c before
  have hall := published_replay c (before ++ .began call message :: rest)
  rw [List.countP_append, List.countP_cons] at hall
  simp only [Event.isBegan, if_true] at hall
  exact ⟨hcall, by omega, by omega⟩

theorem topic_replay (c : Channel ι) (es : List (Event ι)) : (replay c es).topic = c.topic := by
  induction es generalizing c with
  | nil => rfl
  | cons e es ih =>
    rw [replay_cons, ih]
    cases e <;> rfl

/-! ## Who is live in the end -/

theorem Fitting.opened_le_made {c : Channel ι} {es : List (Event ι)} (h : Fitting c es) :
    ∀ s ∈ es.filterMap Event.made?, c.opened ≤ s.handle := by
  induction es generalizing c with
  | nil => simp
  | cons e es ih =>
    obtain ⟨hfits, hrest⟩ := h
    have hlater := ih hrest
    cases e with
    | subscribed made =>
      intro s hs
      rcases List.mem_cons.mp hs with rfl | hs
      · exact Nat.le_of_eq (Eq.symm hfits)
      · exact Nat.le_of_succ_le (hlater s hs)
    | _ => exact hlater

/-- Live is who was or became so, but for those whose handles were ended. -/
theorem Fitting.live_replay {c : Channel ι} {es : List (Event ι)} (h : Fitting c es) :
    (replay c es).live = (c.live ++ es.filterMap Event.made?).filter
      fun s => s.handle ∉ es.filterMap Event.withdrawn? := by
  induction es generalizing c with
  | nil =>
    simp only [replay_nil, List.filterMap_nil, List.append_nil]
    exact (List.filter_eq_self.mpr fun s _ => rfl).symm
  | cons e es ih =>
    obtain ⟨hfits, hrest⟩ := h
    have hlater := ih hrest
    have hmade := hrest.opened_le_made
    rw [replay_cons, hlater]
    cases e with
    | subscribed made =>
      obtain ⟨handle, listener⟩ := made
      obtain rfl : handle = c.opened := hfits
      simp [Event.apply, Event.made?, Event.withdrawn?]
    | unsubscribed handle =>
      have hopen : handle < c.opened := hfits
      have hother : (es.filterMap Event.made?).filter (fun s => s.handle ≠ handle) =
          es.filterMap Event.made? := by
        refine List.filter_eq_self.mpr fun s hs => ?_
        have hle : c.opened ≤ s.handle := hmade s hs
        exact decide_eq_true (by omega)
      have happly : (Event.apply c (.unsubscribed handle)).live ++ es.filterMap Event.made? =
          (c.live ++ es.filterMap Event.made?).filter fun s => s.handle ≠ handle := by
        rw [List.filter_append, hother]
        rfl
      have hwithdrawn : (Event.unsubscribed handle :: es).filterMap Event.withdrawn? =
          handle :: es.filterMap Event.withdrawn? := rfl
      rw [happly, hwithdrawn, List.filter_filter]
      refine List.filter_congr fun s _ => ?_
      simp only [List.mem_cons, not_or, Bool.decide_and, Bool.and_comm]
    | _ => rfl

/-- A channel whose handles are given out and held once. -/
structure WellNamed (c : Channel ι) : Prop where
  issued : c.HandlesIssued
  distinct : (c.live.map Subscription.handle).Nodup

theorem WellNamed.apply {c : Channel ι} (h : WellNamed c) (e : Event ι) :
    WellNamed (e.apply c) := by
  cases e with
  | subscribed s =>
    refine ⟨h.issued.subscribe _, ?_⟩
    simp only [Event.apply, Channel.live_subscribe, List.map_append, List.map_cons, List.map_nil]
    refine List.nodup_append.mpr ⟨h.distinct, by simp, ?_⟩
    rintro a ha b hb rfl
    obtain ⟨t, ht, rfl⟩ := List.mem_map.mp ha
    have hissued := h.issued t ht
    simp only [List.mem_singleton] at hb
    omega
  | unsubscribed handle =>
    refine ⟨h.issued.unsubscribe _, ?_⟩
    exact h.distinct.sublist (List.filter_sublist.map _)
  | _ => exact ⟨h.issued, h.distinct⟩

theorem WellNamed.replay {c : Channel ι} (h : WellNamed c) (es : List (Event ι)) :
    WellNamed (replay c es) := by
  induction es generalizing c with
  | nil => exact h
  | cons e es ih => exact ih (h.apply e)

theorem Fitting.nodup_made {c : Channel ι} {es : List (Event ι)} (h : Fitting c es) :
    ((es.filterMap Event.made?).map Subscription.handle).Nodup := by
  induction es generalizing c with
  | nil => exact List.nodup_nil
  | cons e es ih =>
    obtain ⟨hfits, hrest⟩ := h
    have hlater := ih hrest
    have hmade := hrest.opened_le_made
    cases e with
    | subscribed made =>
      obtain hhandle : made.handle = c.opened := hfits
      refine List.nodup_cons.mpr ⟨fun hmem => ?_, hlater⟩
      obtain ⟨s, hs, heq⟩ := List.mem_map.mp hmem
      have hle : c.opened + 1 ≤ s.handle := hmade s hs
      omega
    | _ => exact hlater

/-- A handle that was never given ends nothing. -/
theorem WellNamed.unsubscribe_eq {c : Channel ι} (h : WellNamed c) {handle : Nat}
    (hle : c.opened ≤ handle) : c.unsubscribe handle = c := by
  have hlive : c.live.filter (fun s => s.handle ≠ handle) = c.live := by
    refine List.filter_eq_self.mpr fun s hs => ?_
    have hissued := h.issued s hs
    exact decide_eq_true (by omega)
  rw [Channel.unsubscribe, hlive]

/-- Those who were live and those who became so have different handles. -/
theorem WellNamed.nodup_live_made {c : Channel ι} {es : List (Event ι)} (h : WellNamed c)
    (hfit : Fitting c es) :
    ((c.live ++ es.filterMap Event.made?).map Subscription.handle).Nodup := by
  rw [List.map_append]
  refine List.nodup_append.mpr ⟨h.distinct, hfit.nodup_made, ?_⟩
  intro a ha b hb heq
  obtain ⟨s, hs, rfl⟩ := List.mem_map.mp ha
  obtain ⟨t, ht, rfl⟩ := List.mem_map.mp hb
  have hissued := h.issued s hs
  have hle := hfit.opened_le_made t ht
  omega

end LiveMap.Relay
