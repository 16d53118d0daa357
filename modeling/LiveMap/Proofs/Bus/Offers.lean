import LiveMap.Proofs.Bus.Publication
import LiveMap.Viewer.Basic

/-!
# What listeners hear

A publication counts once and reaches a recorder as often as the recorder sits at the channel. A
viewer offers a message without knowing who sits there: relations are told in any case, all else is
told where anyone listens. So what a recorder hears of an offer depends on its own seats only.

## Main definitions

* `Bus.heardBy`: what a recorder has heard; `Bus.seats`: how often it sits at a channel.
* `Bus.toldOn`: all that was told on a channel.
* `Bus.toldOf`: what is told of an offer; `Bus.Offered`: what an offer changes.

## Main statements

* `Bus.published_publish`, `Bus.toldOn_publish`, `Bus.heardBy_publish`: one publication.
* `Bus.Offered.publish`, `Bus.Offered.withheld`: an offer that is told, and one that is not.
-/

namespace LiveMap.Bus

variable {K χ ρ : Type}

/-! ## Definitions -/

/-- What a recorder has heard, on whatever channel. -/
def heardBy [DecidableEq ρ] (r : ρ) (b : Bus K χ ρ) : List (Message K) :=
  b.delivered.filterMap fun p => if p.1 = r then some p.2 else none

/-- The number of subscriptions that a recorder has on a channel. -/
def seats [DecidableEq ρ] (r : ρ) (a : χ) (b : Bus K χ ρ) : Nat :=
  (b.channels a).live.countP fun s => s.listener = .recorder r

/-- All that was told on a channel, whether it was heard or not. -/
def toldOn [DecidableEq χ] (a : χ) (b : Bus K χ ρ) : List (Message K) :=
  b.sent.filterMap fun p => if p.1 = a then some p.2 else none

/-- What is offered on one output. -/
def offeredOn (o : Output) (offer : Option (Output × Message K)) : List (Message K) :=
  (offer.filter fun p => p.1 = o).toList.map Prod.snd

/-- What is told of an offer at an output of a viewer: relations in any case, and all else only if
the output is heard. -/
def toldOf (id : Nat) (offer : Option (Output × Message K)) (b : Bus K Address ρ) :
    List (Address × Message K) :=
  ((offer.filter fun p => p.1 = .relations || b.isHeard (id, p.1)).map
    fun p => ((id, p.1), p.2)).toList

/-- An offer at an output of a viewer, and nothing else, was made between two states of a bus. -/
structure Offered [DecidableEq ρ] (id : Nat) (offer : Option (Output × Message K))
    (b c : Bus K Address ρ) : Prop where
  sent : c.sent = b.sent ++ b.toldOf id offer
  published : ∀ a, (c.channels a).published =
    (b.channels a).published + (b.toldOf id offer).countP fun p => p.1 = a
  heard : ∀ r, c.heardBy r =
    b.heardBy r ++ offer.toList.flatMap fun p => List.replicate (b.seats r (id, p.1)) p.2

variable [DecidableEq χ]

/-! ## Counts of publications -/

theorem published_setChannel {a : χ} {c : Channel (Listener ρ)} {b : Bus K χ ρ}
    (h : c.published = (b.channels a).published) (x : χ) :
    ((b.setChannel a c).channels x).published = (b.channels x).published := by
  by_cases hx : x = a
  · subst hx
    rw [channels_setChannel_self, h]
  · rw [channels_setChannel_of_ne c b hx]

theorem published_subscribe (a : χ) (l : Listener ρ) (b : Bus K χ ρ) (x : χ) :
    ((b.subscribe a l).channels x).published = (b.channels x).published :=
  published_setChannel (c := (b.channels a).subscribe l) rfl x

theorem published_unsubscribe (a : χ) (handle : Nat) (b : Bus K χ ρ) (x : χ) :
    ((b.unsubscribe a handle).channels x).published = (b.channels x).published :=
  published_setChannel (c := (b.channels a).unsubscribe handle) rfl x

theorem published_performActs (acts : List (Recorder.Act χ ρ)) (b : Bus K χ ρ) (x : χ) :
    ((performActs acts b).1.channels x).published = (b.channels x).published := by
  induction acts generalizing b with
  | nil => rfl
  | cons act rest ih =>
    cases act with
    | subscribe a l => exact (ih _).trans (published_subscribe a l b x)
    | unsubscribe a handle => exact (ih _).trans (published_unsubscribe a handle b x)
    | fail => rfl

section Serving

variable [Scalar K]

theorem published_call (m : Message K) (l : Listener ρ) (b : Bus K χ ρ) (x : χ) :
    ((call m l b).1.channels x).published = (b.channels x).published := by
  cases l with
  | recorder r => exact published_performActs _ _ x
  | tree i =>
    unfold call feedTree
    dsimp only
    split
    · split <;> rfl
    · rfl
  | scene i part =>
    unfold call feedScene
    dsimp only
    split <;> rfl

/-- A publication is counted once, on its own channel. -/
theorem published_publish (a : χ) (m : Message K) (b : Bus K χ ρ) (x : χ) :
    ((b.publish a m).channels x).published =
      (b.channels x).published + if x = a then 1 else 0 := by
  unfold publish Outlet.publish
  refine deliver_preserves (P := fun c : Bus K χ ρ => (c.channels x).published =
    (b.channels x).published + if x = a then 1 else 0) ?_ ?_ _ _ ?_
  · intro l c hc
    exact (published_call m l c x).trans hc
  · exact fun _ hc => hc
  · by_cases hx : x = a
    · subst hx
      rw [if_pos rfl]
      exact congrArg Channel.published (channels_setChannel_self _ _ _)
    · rw [if_neg hx]
      exact congrArg Channel.published (channels_setChannel_of_ne _ { b with sent := _ } hx)

theorem toldOn_publish (a : χ) (m : Message K) (b : Bus K χ ρ) (x : χ) :
    (b.publish a m).toldOn x = b.toldOn x ++ if x = a then [m] else [] := by
  rw [toldOn, sent_publish, List.filterMap_append, toldOn]
  by_cases h : a = x
  · simp [h]
  · simp [h, Ne.symm h]

/-! ## What a recorder hears -/

variable [DecidableEq ρ]

omit [Scalar K] [DecidableEq ρ] in
theorem delivered_performActs (acts : List (Recorder.Act χ ρ)) (b : Bus K χ ρ) :
    (performActs acts b).1.delivered = b.delivered := by
  induction acts generalizing b with
  | nil => rfl
  | cons act rest ih =>
    cases act with
    | subscribe | unsubscribe => exact ih _
    | fail => rfl

theorem heardBy_call (r : ρ) (m : Message K) (l : Listener ρ) (b : Bus K χ ρ) :
    (call m l b).1.heardBy r = b.heardBy r ++ if l = .recorder r then [m] else [] := by
  cases l with
  | recorder r' =>
    rw [heardBy, call, delivered_performActs, List.filterMap_append, heardBy]
    by_cases h : r' = r <;> simp [h]
  | tree i =>
    rw [if_neg (by simp), List.append_nil]
    unfold call feedTree
    dsimp only
    split
    · split <;> rfl
    · rfl
  | scene i part =>
    rw [if_neg (by simp), List.append_nil]
    unfold call feedScene
    dsimp only
    split <;> rfl

/-- By induction on the subscriptions; that a listener fails keeps nothing from the others. -/
theorem heardBy_deliver (r : ρ) (m : Message K) (topic : String)
    (subs : List (Subscription (Listener ρ))) (b : Bus K χ ρ) :
    (deliver (call m) (note (.listenerFailed topic)) subs b).heardBy r =
      b.heardBy r ++ List.replicate (subs.countP fun s => s.listener = .recorder r) m := by
  induction subs generalizing b with
  | nil => exact (List.append_nil _).symm
  | cons s rest ih =>
    have hcall := heardBy_call r m s.listener b
    have hnext (c : Bus K χ ρ) (hc : c.heardBy r = (call m s.listener b).1.heardBy r) :
        (deliver (call m) (note (.listenerFailed topic)) rest c).heardBy r = b.heardBy r ++
          List.replicate ((s :: rest).countP fun s => s.listener = .recorder r) m := by
      rw [ih, hc, hcall, List.append_assoc, List.countP_cons]
      by_cases h : s.listener = .recorder r <;> simp [h, List.replicate_succ]
    simp only [deliver]
    cases hserved : call m s.listener b with
    | mk c ok =>
      rw [hserved] at hnext
      cases ok
      · exact hnext _ rfl
      · exact hnext _ rfl

/-- A recorder hears a publication once at each of its seats. -/
theorem heardBy_publish (r : ρ) (a : χ) (m : Message K) (b : Bus K χ ρ) :
    (b.publish a m).heardBy r = b.heardBy r ++ List.replicate (b.seats r a) m :=
  heardBy_deliver r m _ _ _

omit [Scalar K] [DecidableEq χ] in
theorem seats_of_unheard {a : χ} {b : Bus K χ ρ} (h : b.isHeard a = false) (r : ρ) :
    b.seats r a = 0 := by
  have hlive : (b.channels a).live = [] := by
    simpa [isHeard, Channel.isHeard, Channel.count] using h
  rw [seats, hlive]
  rfl

end Serving

/-! ## Offers -/

namespace Offered

variable [DecidableEq ρ] {id : Nat} {offer : Option (Output × Message K)} {b c : Bus K Address ρ}

/-- Nothing was offered, and nobody was told anything. -/
theorem quiet (hsent : c.sent = b.sent) (hdelivered : c.delivered = b.delivered)
    (hpublished : ∀ a, (c.channels a).published = (b.channels a).published) :
    Offered id none b c where
  sent := by rw [hsent, toldOf, Option.filter_none, Option.map_none, Option.toList_none,
    List.append_nil]
  published a := hpublished a
  heard r := by
    rw [heardBy, hdelivered]
    exact (List.append_nil _).symm

theorem refl (id : Nat) (b : Bus K Address ρ) : Offered id none b b := quiet rfl rfl fun _ => rfl

theorem notices (h : Offered id offer b c) (notices : List (Notice K)) :
    Offered id offer b { c with notices } := ⟨h.sent, h.published, h.heard⟩

theorem of_notices {notices : List (Notice K)} (h : Offered id offer { b with notices } c) :
    Offered id offer b c := ⟨h.sent, h.published, h.heard⟩

/-- An offer where nobody listens, of something that is no relation. -/
theorem withheld {o : Output} (ho : o ≠ .relations) (hunheard : b.isHeard (id, o) = false)
    (hoffer : ∀ p ∈ offer, p.1 = o) : Offered id offer b b := by
  have htold : b.toldOf id offer = [] := by
    cases offer with
    | none => rfl
    | some p => simp [toldOf, hoffer p rfl, hunheard, ho]
  refine ⟨?_, fun a => ?_, fun r => ?_⟩
  · rw [htold, List.append_nil]
  · rw [htold]
    rfl
  · cases offer with
    | none => exact (List.append_nil _).symm
    | some p => simp [hoffer p rfl, seats_of_unheard hunheard r]

/-- What is offered on an output is told there if it is a relation or someone listens. -/
theorem toldOn (h : Offered id offer b c) (o : Output) :
    c.toldOn (id, o) = b.toldOn (id, o) ++
      if o = .relations ∨ b.isHeard (id, o) = true then offeredOn o offer else [] := by
  rw [Bus.toldOn, h.sent, List.filterMap_append, Bus.toldOn, toldOf, offeredOn]
  congr 1
  cases offer with
  | none => simp
  | some p =>
    obtain ⟨o', m⟩ := p
    by_cases ho : o' = o
    · subst ho
      by_cases htold : o' = .relations ∨ b.isHeard (id, o') = true
      · simp [Option.filter_some, htold]
      · simp [Option.filter_some, htold]
    · simp only [Option.filter_some]
      split <;> simp [ho]

variable [Scalar K]

/-- An offer of a relation, or where someone listens. -/
theorem publish {o : Output} (h : o = .relations ∨ b.isHeard (id, o) = true) (m : Message K) :
    Offered id (some (o, m)) b (b.publish (id, o) m) := by
  have htold : b.toldOf id (some (o, m)) = [((id, o), m)] := by
    rcases h with rfl | hheard
    · rfl
    · simp [toldOf, hheard]
  refine ⟨?_, fun a => ?_, fun r => ?_⟩
  · rw [htold, sent_publish]
  · rw [htold, published_publish, List.countP_singleton]
    simp [eq_comm]
  · rw [heardBy_publish]
    simp

end Offered

end LiveMap.Bus
