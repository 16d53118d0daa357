import LiveMap.Proofs.Channel.Replay

/-!
# Publications inside publications

While it is served, a listener may make and end subscriptions, publish again and fail. Every
publication still hands its message to the subscriptions that were live when it began, once and in
order, and the ones inside it are over before it goes on.

## Main definitions

* `Relay.Follows`: what a part of a journal says, while a publication is served or outside of all.
* `Relay.run`: a channel after any moves from outside.

## Main statements

* `Relay.exists_deliver`: serving a snapshot hands the message to it, whatever the listeners do.
* `Relay.publish_reentrant`: what a publication amounts to.
-/

namespace LiveMap.Relay

variable {ι : Type}

/-! ## What a part of a journal says -/

/-- An element of two lists in a row stands in one of them. -/
theorem append_eq_append_cons {α : Type} {xs ys before rest : List α} {x : α}
    (h : xs ++ ys = before ++ x :: rest) :
    (∃ middle, before = xs ++ middle ∧ ys = middle ++ x :: rest) ∨
      ∃ middle, xs = before ++ x :: middle ∧ rest = middle ++ ys := by
  rcases List.append_eq_append_iff.mp h with ⟨middle, hbefore, hys⟩ | ⟨middle, hxs, hrest⟩
  · exact .inl ⟨middle, hbefore, hys⟩
  · cases middle with
    | nil => exact .inl ⟨[], by simpa using hxs.symm, hrest.symm⟩
    | cons y middle =>
      obtain ⟨rfl, rfl⟩ := List.cons.inj hrest
      exact .inr ⟨middle, hxs, rfl⟩

/-- What happens to a journal while a publication is served, or outside of all publications: the
events `es`, with the deliveries `given` by that publication itself. -/
structure Follows (serving : Option (Nat × Int)) (given : List (Subscription ι × Int))
    (es : List (Event ι)) (j j' : Journal ι) : Prop where
  events : j'.events = j.events ++ es
  channel : j'.relay.channel = replay j.relay.channel es
  heard : j'.relay.heard = j.relay.heard ++ es.filterMap Event.hearing?
  notices : j'.relay.notices =
    j.relay.notices ++ es.filterMap (Event.notice? j.relay.channel.topic)
  fitting : Fitting j.relay.channel es
  calls : ∀ e ∈ es, ∀ k, e.call? = some k → (∃ m, serving = some (k, m)) ∨
    j.relay.channel.published ≤ k ∧ k < j'.relay.channel.published
  nested : ∀ outside, (serving = none → outside = []) →
    es.foldlM Event.nest (serving.toList ++ outside) = some (serving.toList ++ outside)
  own : ∀ p, serving = some p → deliveries p.1 es = given
  complete : ∀ before k m rest, es = before ++ .began k m :: rest →
    deliveries k es = (replay j.relay.channel before).live.map (·, m)

/-- The publication that is served began before, and handles are held once. -/
structure Ready (serving : Option (Nat × Int)) (j : Journal ι) : Prop where
  begun : ∀ p, serving = some p → p.1 < j.relay.channel.published
  named : WellNamed j.relay.channel

theorem deliveries_eq_nil {call : Nat} {es : List (Event ι)}
    (h : ∀ e ∈ es, e.call? ≠ some call) : deliveries call es = [] := by
  refine List.filterMap_eq_nil_iff.mpr fun e he => ?_
  have hcall := h e he
  cases e with
  | handed k s m =>
    have hne : k ≠ call := fun heq => hcall (congrArg some heq)
    exact if_neg hne
  | _ => rfl

namespace Follows

variable {serving : Option (Nat × Int)} {given given' : List (Subscription ι × Int)}
  {es es' : List (Event ι)} {j j' j'' : Journal ι}

theorem published_le (h : Follows serving given es j j') :
    j.relay.channel.published ≤ j'.relay.channel.published := by
  rw [h.channel, published_replay]
  exact Nat.le_add_right _ _

theorem ready (h : Follows serving given es j j') (hready : Ready serving j) :
    Ready serving j' where
  begun p hp := Nat.lt_of_lt_of_le (hready.begun p hp) h.published_le
  named := h.channel ▸ hready.named.replay es

theorem refl (serving : Option (Nat × Int)) (j : Journal ι) : Follows serving [] [] j j where
  events := (List.append_nil _).symm
  channel := rfl
  heard := (List.append_nil _).symm
  notices := (List.append_nil _).symm
  fitting := trivial
  calls := by simp
  nested _ _ := rfl
  own _ _ := rfl
  complete := by simp

/-- A publication that began in one part of a journal hands out nothing in another. -/
theorem complete_append (h : Follows serving given es j j') (h' : Follows serving given' es' j' j'')
    (hready : Ready serving j) (before : List (Event ι)) (k : Nat) (m : Int)
    (rest : List (Event ι)) (hes : es ++ es' = before ++ .began k m :: rest) :
    deliveries k (es ++ es') = (replay j.relay.channel before).live.map (·, m) := by
  have hle := h.published_le
  rw [deliveries_append]
  rcases append_eq_append_cons hes with ⟨middle, hbefore, hes'⟩ | ⟨middle, hes, hrest⟩
  · obtain ⟨-, hk, -⟩ := (hes' ▸ h'.fitting).call_began
    have hnone : deliveries k es = [] := by
      refine deliveries_eq_nil fun e he hcall => ?_
      rcases h.calls e he k hcall with ⟨m', hserving⟩ | ⟨-, hlt⟩
      · have hlt := hready.begun _ hserving
        omega
      · omega
    rw [hnone, List.nil_append, h'.complete middle k m rest hes', h.channel, hbefore,
      replay_append]
  · obtain ⟨-, hk, hlt⟩ := (hes ▸ h.fitting).call_began
    rw [← hes, ← h.channel] at hlt
    have hnone : deliveries k es' = [] := by
      refine deliveries_eq_nil fun e he hcall => ?_
      rcases h'.calls e he k hcall with ⟨m', hserving⟩ | ⟨hge, -⟩
      · have hlt := hready.begun _ hserving
        omega
      · omega
    rw [hnone, List.append_nil, h.complete before k m middle hes]

theorem trans (h : Follows serving given es j j') (h' : Follows serving given' es' j' j'')
    (hready : Ready serving j) : Follows serving (given ++ given') (es ++ es') j j'' where
  events := by rw [h'.events, h.events, List.append_assoc]
  channel := by rw [h'.channel, h.channel, replay_append]
  heard := by rw [h'.heard, h.heard, List.append_assoc, List.filterMap_append]
  notices := by
    rw [h'.notices, h.notices, List.append_assoc, List.filterMap_append, h.channel, topic_replay]
  fitting := fitting_append.mpr ⟨h.fitting, h.channel ▸ h'.fitting⟩
  calls e he k hk := by
    have hle := h.published_le
    have hle' := h'.published_le
    rcases List.mem_append.mp he with he | he
    · rcases h.calls e he k hk with hserving | ⟨hlow, hhigh⟩
      · exact .inl hserving
      · exact .inr ⟨hlow, Nat.lt_of_lt_of_le hhigh hle'⟩
    · rcases h'.calls e he k hk with hserving | ⟨hlow, hhigh⟩
      · exact .inl hserving
      · exact .inr ⟨Nat.le_trans hle hlow, hhigh⟩
  nested outside houtside := by
    rw [List.foldlM_append, h.nested outside houtside]
    exact h'.nested outside houtside
  own p hp := by rw [deliveries_append, h.own p hp, h'.own p hp]
  complete := h.complete_append h' hready

/-- One event that begins no publication. -/
theorem write {e : Event ι} {r : Relay ι} (hchannel : r.channel = e.apply j.relay.channel)
    (hheard : r.heard = j.relay.heard ++ [e].filterMap Event.hearing?)
    (hnotices : r.notices =
      j.relay.notices ++ [e].filterMap (Event.notice? j.relay.channel.topic))
    (hfits : e.Fits j.relay.channel) (hcall : ∀ k, e.call? = some k → ∃ m, serving = some (k, m))
    (hnest : ∀ outside, e.nest (serving.toList ++ outside) = some (serving.toList ++ outside))
    (hown : ∀ p, serving = some p → deliveries p.1 [e] = given) (hbegan : e.isBegan = false) :
    Follows serving given [e] j (j.write e r) where
  events := rfl
  channel := hchannel
  heard := hheard
  notices := hnotices
  fitting := ⟨hfits, trivial⟩
  calls e' he' k hk := by
    obtain rfl := List.mem_singleton.mp he'
    exact .inl (hcall k hk)
  nested outside _ := by
    rw [List.foldlM_cons, hnest outside]
    rfl
  own := hown
  complete before k m rest hes := by
    have hmem : Event.began k m ∈ [e] := hes ▸ List.mem_append_right _ List.mem_cons_self
    rw [← List.mem_singleton.mp hmem] at hbegan
    cases hbegan

theorem subscribe (l : ι) : Follows serving [] [.subscribed ⟨j.relay.channel.opened, l⟩] j
    (j.subscribe l) := by
  refine write rfl ?_ rfl rfl (by simp [Event.call?]) (fun _ => rfl) (fun _ _ => rfl) rfl
  exact (List.append_nil _).symm

theorem exists_unsubscribe (handle : Nat) (hready : Ready serving j) :
    ∃ es, Follows serving [] es j (j.unsubscribe handle) := by
  unfold Journal.unsubscribe
  by_cases hgiven : handle < j.relay.channel.opened
  · rw [if_pos hgiven]
    exact ⟨_, write rfl (List.append_nil _).symm (List.append_nil _).symm hgiven
      (by simp [Event.call?]) (fun _ => rfl) (fun _ _ => rfl) rfl⟩
  · have hsame : j.relay.unsubscribe handle = j.relay := by
      rw [Relay.unsubscribe, hready.named.unsubscribe_eq (Nat.le_of_not_lt hgiven)]
    rw [if_neg hgiven, hsame]
    exact ⟨[], refl serving j⟩

end Follows

/-! ## Listeners, deliveries and publications -/

section Steps

variable [DecidableEq ι] {again : Option (Journal ι → Journal ι)} {serving : Option (Nat × Int)}

/-- What the publications inside do while one is served. -/
def Continues (again : Option (Journal ι → Journal ι)) (serving : Option (Nat × Int)) : Prop :=
  ∀ publish, again = some publish → ∀ j, Ready serving j →
    ∃ es, Follows serving [] es j (publish j)

theorem exists_act (hagain : Continues again serving) (a : Act ι) {j : Journal ι}
    (hready : Ready serving j) : ∃ es, Follows serving [] es j (j.act again a) := by
  cases a with
  | subscribe l => exact ⟨_, .subscribe l⟩
  | unsubscribe handle => exact Follows.exists_unsubscribe handle hready
  | unsubscribeLatest l =>
    simp only [Journal.act]
    cases (j.relay.handlesOf l).getLast? with
    | none => exact ⟨[], .refl serving j⟩
    | some handle => exact Follows.exists_unsubscribe handle hready
  | republish =>
    cases again with
    | none => exact ⟨[], .refl serving j⟩
    | some publish => exact hagain publish rfl j hready

theorem exists_perform (hagain : Continues again serving) (p : Plan ι) {j : Journal ι}
    (hready : Ready serving j) : ∃ es, Follows serving [] es j (Journal.perform again p j).1 := by
  induction p generalizing j with
  | done => exact ⟨[], .refl serving j⟩
  | fail => exact ⟨[], .refl serving j⟩
  | act a next ih =>
    obtain ⟨es, hact⟩ := exists_act hagain a hready
    obtain ⟨es', hnext⟩ := ih _ (hact.ready hready)
    exact ⟨_, hact.trans hnext hready⟩

variable {call : Nat} {message : Int}

theorem exists_serve (script : Script ι) (hagain : Continues again (some (call, message)))
    (s : Subscription ι) {j : Journal ι} (hready : Ready (some (call, message)) j) :
    ∃ es, Follows (some (call, message)) [(s, message)] es j
      (Journal.serve script again call message s j).1 := by
  have hhanded : Follows (some (call, message)) [(s, message)] [.handed call s message] j
      (j.write (.handed call s message) (j.relay.hear s.listener message)) := by
    refine .write rfl rfl (List.append_nil _).symm trivial ?_ ?_ ?_ rfl
    · rintro k hk
      obtain rfl := Option.some.inj hk
      exact ⟨message, rfl⟩
    · intro outside
      simp [Event.nest]
    · rintro p hp
      obtain rfl := Option.some.inj hp
      simp [deliveries, Event.delivery?]
  obtain ⟨es, hperform⟩ := exists_perform hagain (script s.listener message _)
    (hhanded.ready hready)
  exact ⟨_, hhanded.trans hperform hready⟩

omit [DecidableEq ι] in
theorem follows_fail (call : Nat) (message : Int) {topic : String} {j : Journal ι}
    (htopic : j.relay.channel.topic = topic) :
    Follows (some (call, message)) [] [.failed call] j (j.fail topic call) := by
  subst htopic
  refine .write rfl (List.append_nil _).symm rfl trivial ?_ ?_ (fun _ _ => rfl) rfl
  · rintro k hk
    obtain rfl := Option.some.inj hk
    exact ⟨message, rfl⟩
  · intro outside
    simp [Event.nest]

/-- The deliveries are those of the snapshot, whatever the listeners do. -/
theorem exists_deliver (script : Script ι) (hagain : Continues again (some (call, message)))
    (subs : List (Subscription ι)) {topic : String} {j : Journal ι}
    (htopic : j.relay.channel.topic = topic) (hready : Ready (some (call, message)) j) :
    ∃ es, Follows (some (call, message)) (subs.map (·, message)) es j
      (deliver (Journal.serve script again call message) (Journal.fail topic call)
        (subs.map fun s => ⟨s.handle, s⟩) j) := by
  induction subs generalizing j with
  | nil => exact ⟨[], .refl _ j⟩
  | cons s rest ih =>
    obtain ⟨es, hserve⟩ := exists_serve script hagain s hready
    simp only [List.map_cons, deliver]
    cases hcall : Journal.serve script again call message s j with
    | mk j' ok =>
      rw [hcall] at hserve
      have htopic' : j'.relay.channel.topic = topic := by
        rw [hserve.channel, topic_replay, htopic]
      cases ok with
      | true =>
        obtain ⟨es', hrest⟩ := ih htopic' (hserve.ready hready)
        exact ⟨_, hserve.trans hrest hready⟩
      | false =>
        have hfailed := hserve.trans (follows_fail call message htopic') hready
        have htopicFailed : (j'.fail topic call).relay.channel.topic = topic := htopic'
        obtain ⟨es', hrest⟩ := ih htopicFailed (hfailed.ready hready)
        exact ⟨_, hfailed.trans hrest hready⟩

omit [DecidableEq ι] in
theorem ready_begin {j : Journal ι} (message : Int) (hready : Ready serving j) :
    Ready (some (j.relay.channel.published, message)) (j.begin message) where
  begun p hp := by
    obtain rfl := Option.some.inj hp
    exact Nat.lt_succ_self _
  named := hready.named.apply (.began 0 0)

omit [DecidableEq ι] in
theorem filterMap_enclosed {α : Type} {f : Event ι → Option α} {k : Nat} {m : Int}
    (hbegan : f (.began k m) = none) (hended : f (.ended k) = none) (es : List (Event ι)) :
    (Event.began k m :: es ++ [Event.ended k]).filterMap f = es.filterMap f := by
  rw [List.cons_append, List.filterMap_cons, hbegan, List.filterMap_append, List.filterMap_cons,
    hended, List.filterMap_nil, List.append_nil]

omit [DecidableEq ι] in
/-- What serving a publication says, put between its begin and its end. -/
theorem Follows.enclose {j served : Journal ι} {es : List (Event ι)} (hready : Ready serving j)
    (hmessage : ∀ p, serving = some p → 0 < p.2 ∧ message = p.2 - 1)
    (h : Follows (some (j.relay.channel.published, message))
      (j.relay.channel.live.map (·, message)) es (j.begin message) served) :
    Follows serving []
      (.began j.relay.channel.published message :: es ++ [.ended j.relay.channel.published]) j
      (served.write (.ended j.relay.channel.published) served.relay) where
  events := by simp [Journal.write, h.events, Journal.begin]
  channel := by
    rw [List.cons_append, replay_cons, replay_append]
    exact h.channel
  heard := by
    rw [filterMap_enclosed rfl rfl]
    exact h.heard
  notices := by
    rw [filterMap_enclosed rfl rfl]
    exact h.notices
  fitting := ⟨rfl, fitting_append.mpr ⟨h.fitting, trivial, trivial⟩⟩
  calls e he k hk := by
    have hgrown : j.relay.channel.published + 1 ≤ served.relay.channel.published := h.published_le
    right
    change _ ≤ k ∧ k < served.relay.channel.published
    rcases List.mem_append.mp he with he | he
    · rcases List.mem_cons.mp he with rfl | he
      · obtain rfl := Option.some.inj hk
        omega
      · rcases h.calls e he k hk with ⟨m, hm⟩ | ⟨hlow, hhigh⟩
        · obtain ⟨rfl, -⟩ := Prod.mk.inj (Option.some.inj hm)
          omega
        · have hlow : j.relay.channel.published + 1 ≤ k := hlow
          omega
    · obtain rfl := List.mem_singleton.mp he
      obtain rfl := Option.some.inj hk
      omega
  nested outside houtside := by
    have hopen : Event.nest (serving.toList ++ outside)
        (.began j.relay.channel.published message : Event ι) =
          some ((j.relay.channel.published, message) :: (serving.toList ++ outside)) := by
      cases serving with
      | none =>
        rw [houtside rfl]
        rfl
      | some p => exact if_pos (hmessage p rfl)
    have hinside := h.nested (serving.toList ++ outside) (by simp)
    rw [List.cons_append, List.foldlM_cons, hopen]
    change (es ++ [Event.ended j.relay.channel.published]).foldlM Event.nest
      ((some (j.relay.channel.published, message)).toList ++ (serving.toList ++ outside)) = _
    rw [List.foldlM_append, hinside]
    simp [Event.nest]
  own p hp := by
    have hbegun := hready.begun p hp
    rw [deliveries, filterMap_enclosed rfl rfl]
    refine deliveries_eq_nil fun e he hcall => ?_
    rcases h.calls e he p.1 hcall with ⟨m, hm⟩ | ⟨hlow, -⟩
    · obtain ⟨hsame, -⟩ := Prod.mk.inj (Option.some.inj hm)
      omega
    · have hlow : j.relay.channel.published + 1 ≤ p.1 := hlow
      omega
  complete before k m rest hes := by
    rw [deliveries, filterMap_enclosed rfl rfl]
    cases before with
    | nil =>
      obtain ⟨hevent, -⟩ := List.cons.inj hes
      obtain ⟨rfl, rfl⟩ := Event.began.inj hevent
      exact h.own _ rfl
    | cons first before =>
      obtain ⟨rfl, htail⟩ := List.cons.inj hes
      rcases append_eq_append_cons htail with ⟨middle, -, hlast⟩ | ⟨middle, hes', -⟩
      · -- The last event ends a publication.
        have hmem : (.began k m : Event ι) ∈ [Event.ended j.relay.channel.published] := by
          rw [hlast]
          exact List.mem_append_right _ List.mem_cons_self
        cases List.mem_singleton.mp hmem
      · exact h.complete before k m middle hes'

/-- A publication begins, serves its snapshot and ends. -/
theorem exists_publishWith (script : Script ι) {j : Journal ι}
    (hagain : Continues again (some (j.relay.channel.published, message)))
    (hready : Ready serving j)
    (hmessage : ∀ p, serving = some p → 0 < p.2 ∧ message = p.2 - 1) :
    ∃ es, Follows serving [] (.began j.relay.channel.published message :: es) j
      (j.publishWith script again message) := by
  obtain ⟨es, hserved⟩ := exists_deliver script hagain j.relay.channel.live rfl
    (ready_begin message hready)
  exact ⟨_, hserved.enclose hready hmessage⟩

/-- By induction on how deep publications may stand inside each other. -/
theorem exists_publishWithin (script : Script ι) {depth : Nat} {message : Int} {j : Journal ι}
    (hdepth : depth ≤ message.toNat) (hready : Ready serving j)
    (hmessage : ∀ p, serving = some p → 0 < p.2 ∧ message = p.2 - 1) :
    ∃ es, Follows serving [] (.began j.relay.channel.published message :: es) j
      (Journal.publishWithin script depth message j) := by
  induction depth generalizing message serving j with
  | zero => exact exists_publishWith script (by rintro publish ⟨⟩) hready hmessage
  | succ depth ih =>
    refine exists_publishWith script (fun publish hpublish j' hready' => ?_) hready hmessage
    obtain rfl := Option.some.inj hpublish
    have hbelow : ∀ p, some (j.relay.channel.published, message) = some p →
        0 < p.2 ∧ message - 1 = p.2 - 1 := by
      rintro p hp
      obtain rfl := Option.some.inj hp
      exact ⟨by omega, rfl⟩
    obtain ⟨es, hinside⟩ := ih (by omega) hready' hbelow
    exact ⟨_, hinside⟩

end Steps

/-! ## Runs -/

/-- What happens to a channel from outside of its listeners. -/
inductive Move (ι : Type) where
  | subscribe (listener : ι)
  | unsubscribe (handle : Nat)
  | publish (message : Int)
  deriving DecidableEq, Repr

section Runs

variable [DecidableEq ι]

def move (script : Script ι) (r : Relay ι) : Move ι → Relay ι
  | .subscribe l => r.subscribe l
  | .unsubscribe h => r.unsubscribe h
  | .publish m => r.publish script m

/-- A new channel after moves. -/
def run (script : Script ι) (topic : String) (moves : List (Move ι)) : Relay ι :=
  moves.foldl (move script) { channel := { topic } }

/-- The journal of one publication. -/
def journal (script : Script ι) (message : Int) (r : Relay ι) : List (Event ι) :=
  (Journal.publish script message ⟨r, []⟩).events

theorem exists_journal (script : Script ι) (message : Int) {r : Relay ι}
    (hnamed : WellNamed r.channel) :
    ∃ es, journal script message r = .began r.channel.published message :: es ∧
      Follows none [] (journal script message r) ⟨r, []⟩
        (Journal.publish script message ⟨r, []⟩) := by
  have hready : Ready none (⟨r, []⟩ : Journal ι) := ⟨by simp, hnamed⟩
  obtain ⟨es, h⟩ := exists_publishWithin script (Nat.le_refl message.toNat) hready (by simp)
  have hevents : journal script message r = .began r.channel.published message :: es := h.events
  exact ⟨es, hevents, hevents ▸ h⟩

theorem wellNamed_publish (script : Script ι) (message : Int) {r : Relay ι}
    (hnamed : WellNamed r.channel) : WellNamed (r.publish script message).channel := by
  obtain ⟨es, -, h⟩ := exists_journal script message hnamed
  have hrelay : (Journal.publish script message ⟨r, []⟩).relay = r.publish script message :=
    Journal.relay_publish script message _
  rw [← hrelay, h.channel]
  exact hnamed.replay _

theorem wellNamed_run (script : Script ι) (topic : String) (moves : List (Move ι)) :
    WellNamed (run script topic moves).channel := by
  have hstep : ∀ r : Relay ι, WellNamed r.channel → ∀ m, WellNamed (move script r m).channel := by
    intro r h m
    cases m with
    | subscribe l => exact h.apply (.subscribed ⟨0, l⟩)
    | unsubscribe handle => exact h.apply (.unsubscribed handle)
    | publish message => exact wellNamed_publish script message h
  unfold run
  generalize hstart : ({ channel := { topic } } : Relay ι) = r
  have hnamed : WellNamed r.channel := by
    subst hstart
    exact ⟨by simp [Channel.HandlesIssued], List.nodup_nil⟩
  clear hstart
  induction moves generalizing r with
  | nil => exact hnamed
  | cons m moves ih => exact ih _ (hstep r hnamed m)

/-- Whatever listeners do when they are called: every publication, the outermost one and those
inside it, hands its message once to each subscription that was live when it began, in order, and to
no other; those inside come to their end before the outer one goes on; all of them are counted; and
live in the end are those who were or became so, but for the ones whose handles were ended. -/
theorem publish_reentrant (script : Script ι) (topic : String) (moves : List (Move ι))
    (message : Int) :
    let r := run script topic moves
    let after := r.publish script message
    let events := journal script message r
    -- The journal is one of this publication.
    (Journal.publish script message ⟨r, []⟩).relay = after ∧
    after.heard = r.heard ++ events.filterMap Event.hearing? ∧
    after.notices = r.notices ++ events.filterMap (Event.notice? r.channel.topic) ∧
    after.channel = replay r.channel events ∧
    (∃ rest, events = .began r.channel.published message :: rest) ∧
    events.foldlM Event.nest [] = some [] ∧
    (∀ before call m rest, events = before ++ .began call m :: rest →
      call = (replay r.channel before).published ∧
      deliveries call events = (replay r.channel before).live.map (·, m)) ∧
    after.channel.published = r.channel.published + events.countP Event.isBegan ∧
    ((r.channel.live ++ events.filterMap Event.made?).map Subscription.handle).Nodup ∧
    after.channel.live = (r.channel.live ++ events.filterMap Event.made?).filter
      fun s => s.handle ∉ events.filterMap Event.withdrawn? := by
  intro r after events
  have hnamed := wellNamed_run script topic moves
  obtain ⟨es, hfirst, h⟩ := exists_journal script message hnamed
  have hrelay : (Journal.publish script message ⟨r, []⟩).relay = after :=
    Journal.relay_publish script message _
  have hchannel : after.channel = replay r.channel events := hrelay ▸ h.channel
  refine ⟨hrelay, hrelay ▸ h.heard, hrelay ▸ h.notices, hchannel, ⟨es, hfirst⟩,
    h.nested [] (fun _ => rfl), ?_, ?_, hnamed.nodup_live_made h.fitting, ?_⟩
  · intro before call m rest hevents
    have hfitting : Fitting r.channel (before ++ .began call m :: rest) := hevents ▸ h.fitting
    exact ⟨hfitting.call_began.1, h.complete before call m rest hevents⟩
  · rw [hchannel, published_replay]
  · rw [hchannel]
    exact h.fitting.live_replay

end Runs

/-- The first listener ends the second subscription, makes a third one, publishes again and fails,
but at rest it does nothing. -/
def unruly : Script Nat
  | 0, message, _ =>
    if 0 < message then .ofActs .fail [.unsubscribe 1, .subscribe 2, .republish] else .done
  | _, _, _ => .done

/-- The second listener is still served, after all that happened inside. -/
theorem publish_reentrant_unruly :
    let r := run unruly "/map" [.subscribe 0, .subscribe 1]
    let events := journal unruly 1 r
    (r.publish unruly 1).heard = [(0, 1), (0, 0), (2, 0), (1, 1)] ∧
    (r.publish unruly 1).channel.live = [⟨0, 0⟩, ⟨2, 2⟩] ∧
    events.foldlM Event.nest [] = some [] ∧
    (∀ before call m rest, events = before ++ .began call m :: rest →
      call = (replay r.channel before).published ∧
      deliveries call events = (replay r.channel before).live.map (·, m)) ∧
    (r.publish unruly 1).channel.published = r.channel.published + events.countP Event.isBegan := by
  obtain ⟨-, -, -, -, -, hnested, hcomplete, hcounted, -, -⟩ :=
    publish_reentrant unruly "/map" [.subscribe 0, .subscribe 1] 1
  exact ⟨by decide, by decide, hnested, hcomplete, hcounted⟩

end LiveMap.Relay
