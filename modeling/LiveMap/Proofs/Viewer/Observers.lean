import LiveMap.Proofs.Viewer.Interleaving
import LiveMap.Proofs.Viewer.SameWork

/-!
# Listeners only observe

Two runs of a viewer with the same work come to the same, whoever listens to either of them and
whatever listeners do when they are called. A recorder that is present at both alike hears the same
in both.

## Main definitions

* `work`: the moves that do not concern listeners; `LiveRun.offers`: what they have to tell.
* `LiveRun.presence`: the seats of a recorder whenever the viewer works.

## Main statements

* `LiveRun.heardBy_play`, `LiveRun.relations_play`: what is heard and told by what is offered.
* `LiveRun.SameWork.play`: runs with the same work stay alike, and offer the same.
* `LiveRun.listeners_only_observe`: from the beginning of two runs, at any time.
-/

namespace LiveMap

variable {K ρ : Type}

/-- The moves that do not concern listeners. -/
def work (moves : List (LiveMove K ρ)) : List (LiveMove K ρ) := moves.filter fun m => !m.isWatch

namespace LiveRun

def heardBy [DecidableEq ρ] (r : ρ) (run : LiveRun K ρ) : List (Message K) :=
  run.station.bus.heardBy r

/-- The seats that a recorder has at the outputs of the viewer. -/
def seats [DecidableEq ρ] (r : ρ) (run : LiveRun K ρ) (o : Output) : Nat :=
  run.station.bus.seats r (run.station.id, o)

variable [Scalar K]

/-- What the work among moves has to tell, move by move. -/
def offers : List (LiveMove K ρ) → LiveRun K ρ → List (Option (Output × Message K))
  | [], _ => []
  | m :: moves, run =>
    if m.isWatch then offers moves (run.act m) else run.offer m :: offers moves (run.act m)

/-- The seats of a recorder before each piece of work among moves. -/
def presence [DecidableEq ρ] (r : ρ) : List (LiveMove K ρ) → LiveRun K ρ → List (Output → Nat)
  | [], _ => []
  | m :: moves, run =>
    if m.isWatch then presence r moves (run.act m)
    else run.seats r :: presence r moves (run.act m)

/-! ## One run -/

section OneRun

variable [DecidableEq ρ]

/-- What a recorder hears of an offer at its seats. -/
def hears (seats : Output → Nat) (offer : Option (Output × Message K)) : List (Message K) :=
  offer.toList.flatMap fun p => List.replicate (seats p.1) p.2

omit [DecidableEq ρ] in
theorem offer_of_isWatch (run : LiveRun K ρ) {m : LiveMove K ρ} (hm : m.isWatch = true) :
    run.offer m = none := by
  cases m with
  | frame | rescript => rfl
  | proceed => cases hm
  | map m =>
    cases m with
    | perform => cases hm
    | _ => rfl

/-- By induction on the moves: a recorder hears each offer once at each seat that it has then. -/
theorem heardBy_play (r : ρ) (moves : List (LiveMove K ρ)) (run : LiveRun K ρ) :
    (play moves run).heardBy r = run.heardBy r ++
      (List.zipWith hears (presence r moves run) (offers moves run)).flatten := by
  induction moves generalizing run with
  | nil => exact (List.append_nil _).symm
  | cons m moves ih =>
    have hact : (run.act m).heardBy r = run.heardBy r ++ hears (run.seats r) (run.offer m) :=
      (run.offered_act m).heard r
    rw [play, ih, hact, presence, offers, List.append_assoc]
    cases hm : m.isWatch with
    | true =>
      rw [offer_of_isWatch run hm, if_pos rfl, if_pos rfl]
      rfl
    | false =>
      rw [if_neg Bool.false_ne_true, if_neg Bool.false_ne_true, List.zipWith_cons_cons,
        List.flatten_cons]

/-- Relations are told whether they are heard or not. -/
theorem relations_play (moves : List (LiveMove K ρ)) (run : LiveRun K ρ) :
    (play moves run).station.told .relations =
      run.station.told .relations ++ (offers moves run).flatMap (Bus.offeredOn .relations) := by
  induction moves generalizing run with
  | nil => exact (List.append_nil _).symm
  | cons m moves ih =>
    rw [play, ih, told_act, if_pos (.inl rfl), offers, List.append_assoc]
    cases hm : m.isWatch with
    | true =>
      rw [offer_of_isWatch run hm, if_pos rfl]
      rfl
    | false => rw [if_neg Bool.false_ne_true, List.flatMap_cons]

end OneRun

/-! ## Two runs -/

theorem play_watch {moves : List (LiveMove K ρ)} (hwatch : ∀ m ∈ moves, m.isWatch = true)
    (run : LiveRun K ρ) : run.SameWork (play moves run) ∧ offers moves run = [] := by
  induction moves generalizing run with
  | nil => exact ⟨.refl run, rfl⟩
  | cons m moves ih =>
    have hm := hwatch m List.mem_cons_self
    obtain ⟨hsame, hoffers⟩ := ih (fun x hx => hwatch x (List.mem_cons_of_mem _ hx)) (run.act m)
    exact ⟨(run.sameWork_watch hm).trans hsame, by rw [offers, if_pos hm, hoffers]⟩

theorem offers_append (moves moves' : List (LiveMove K ρ)) (run : LiveRun K ρ) :
    offers (moves ++ moves') run = offers moves run ++ offers moves' (play moves run) := by
  induction moves generalizing run with
  | nil => rfl
  | cons m moves ih =>
    rw [List.cons_append, offers, offers, ih, play]
    split <;> rfl

variable {run run' : LiveRun ℝ ρ} {moves moves' : List (LiveMove ℝ ρ)}

theorem sound_play (hsound : run.Sound) (hproper : ∀ m ∈ moves, m.HasProperFrame) :
    (play moves run).Sound := by
  induction moves generalizing run with
  | nil => exact hsound
  | cons m moves ih =>
    rw [List.forall_mem_cons] at hproper
    exact ih (sound_act hsound hproper.1) hproper.2

/-- By induction on the moves of one run. What concerns listeners changes nothing that matters, and
each piece of work is found in the other run behind what concerns listeners there. -/
theorem SameWork.play (h : run.SameWork run') (hsound : run.Sound)
    (hproper : ∀ m ∈ moves, m.HasProperFrame) (hwork : work moves = work moves') :
    (LiveRun.play moves run).SameWork (LiveRun.play moves' run') ∧
      offers moves' run' = offers moves run := by
  induction moves generalizing moves' run run' with
  | nil =>
    have hwatch : ∀ m ∈ moves', m.isWatch = true := by
      simpa [work, List.filter_eq_nil_iff] using hwork.symm
    obtain ⟨hsame, hoffers⟩ := play_watch hwatch run'
    exact ⟨h.trans hsame, hoffers⟩
  | cons m moves ih =>
    rw [List.forall_mem_cons] at hproper
    have hnext := sound_act hsound hproper.1
    cases hm : m.isWatch with
    | true =>
      have hsame := (run.sameWork_watch hm).symm.trans h
      rw [offers, if_pos hm]
      exact ih hsame hnext hproper.2 (by simpa [work, hm] using hwork)
    | false =>
      have hfirst : work moves' = m :: work moves := by simpa [work, hm] using hwork.symm
      obtain ⟨before, after, rfl, hbefore, -, hafter⟩ := List.filter_eq_cons_iff.mp hfirst
      obtain ⟨hwatched, hnone⟩ := play_watch (by simpa using hbefore) run'
      have hsame := h.trans hwatched
      obtain ⟨hfinal, hoffers⟩ := ih (hsame.act hsound m) hnext hproper.2 hafter.symm
      rw [play_append, offers_append, hnone, List.nil_append, offers, offers, hm,
        if_neg Bool.false_ne_true, if_neg Bool.false_ne_true, hsame.offer_eq, hoffers]
      exact ⟨hfinal, rfl⟩

/-! ## From the beginning -/

theorem sameWork_fresh (names : Settings K) (trees trees' : List (TreeClient K Address))
    (scenes scenes' : List (SceneClient K Address)) :
    SameWork (fresh names trees scenes : LiveRun K ρ) (fresh names trees' scenes') :=
  ⟨rfl, rfl, _, _, .onBus _ _, rfl⟩

/-- Two viewers do the same work, and the poses of their frames are proper. However their listeners
come and go, and whatever recorders do when they are called, the viewers know the same and have told
the same relations; and a recorder that sits at both alike whenever they work from some time on
hears the same from then on. -/
theorem listeners_only_observe [DecidableEq ρ] (names : Settings ℝ)
    (trees trees' : List (TreeClient ℝ Address)) (scenes scenes' : List (SceneClient ℝ Address))
    {earlier earlier' later later' : List (LiveMove ℝ ρ)}
    (hproper : ∀ m ∈ earlier ++ later, m.HasProperFrame)
    (hearlier : work earlier = work earlier') (hlater : work later = work later') :
    let before := LiveRun.play earlier (fresh names trees scenes)
    let before' := LiveRun.play earlier' (fresh names trees' scenes')
    let after := LiveRun.play later before
    let after' := LiveRun.play later' before'
    after.SameWork after' ∧ after'.station.told .relations = after.station.told .relations ∧
    ∀ r, presence r later before = presence r later' before' →
      ∃ heard, after.heardBy r = before.heardBy r ++ heard ∧
        after'.heardBy r = before'.heardBy r ++ heard := by
  intro before before' after after'
  rw [List.forall_mem_append] at hproper
  have hfresh : (fresh names trees scenes : LiveRun ℝ ρ).Sound := sound_of_idle rfl
  obtain ⟨hsameBefore, hoffersBefore⟩ := (sameWork_fresh names trees trees' scenes scenes').play
    hfresh hproper.1 hearlier
  have hsound : before.Sound := sound_play hfresh hproper.1
  obtain ⟨hsame, hoffers⟩ := hsameBefore.play hsound hproper.2 hlater
  refine ⟨hsame, ?_, fun r hpresence => ⟨_, heardBy_play r later before, ?_⟩⟩
  · rw [relations_play, relations_play, hoffers, relations_play, relations_play, hoffersBefore]
    rfl
  · rw [heardBy_play, hoffers, hpresence]

/-- A listener that listens alone when a frame begins. -/
noncomputable def aloneAtFrame : List (LiveMove ℝ Bool) :=
  [.map (.subscribe (0, .points) (.recorder true)), .frame FrameRun.frameAhead]

/-- The same listener, behind one that fails. -/
noncomputable def behindFailing : List (LiveMove ℝ Bool) :=
  .rescript (fun r => if r then [] else [.fail]) ::
    .map (.subscribe (0, .points) (.recorder false)) :: aloneAtFrame

/-- It hears the scan of the frame all the same. -/
theorem listeners_only_observe_behindFailing :
    (∀ m ∈ aloneAtFrame ++ [.proceed], m.HasProperFrame) ∧
    work aloneAtFrame = work behindFailing ∧
    (LiveRun.play [.proceed] (.play behindFailing (fresh .short [] []))).heardBy true =
      [.cloud (.pack (Settings.short.frameName .imu) 1 [])] := by
  have hproper : ∀ m ∈ aloneAtFrame ++ [.proceed], m.HasProperFrame := by
    simp [aloneAtFrame, LiveMove.HasProperFrame, Pose.IsProper, FrameRun.frameAhead,
      Mat3.isRotation_identity]
  have hwork : work aloneAtFrame = work behindFailing := rfl
  have hlater : work ([.proceed] : List (LiveMove ℝ Bool)) = work [.proceed] := rfl
  have hseats : seats true (.play aloneAtFrame (fresh .short [] [])) =
      seats true (.play behindFailing (fresh .short [] [])) := by
    funext o
    cases o <;> rfl
  have hpresence : presence true [.proceed] (.play aloneAtFrame (fresh .short [] [])) =
      presence true [.proceed] (.play behindFailing (fresh .short [] [])) :=
    congrArg (fun s => [s]) hseats
  obtain ⟨-, -, hheard⟩ := listeners_only_observe .short [] [] [] [] hproper hwork hlater
  obtain ⟨heard, halone, hbehind⟩ := hheard true hpresence
  have hscan : heard = [.cloud (.pack (Settings.short.frameName .imu) 1 [])] := halone.symm
  refine ⟨hproper, hwork, ?_⟩
  rw [hbehind, hscan]
  rfl

end LiveRun

end LiveMap
