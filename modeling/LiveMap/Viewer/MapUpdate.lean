import LiveMap.Viewer.Basic

/-!
# Map updates

When submaps are delivered, the anchor is corrected at once and the rebuild of the map is deferred,
with the poses that hold at that time.

## Main definitions

* `Station.rebuildMap`: the deferred rebuild.
* `Station.updateAnchor`: a correction; `Station.correctAnchor`: the one by the latest submap.
* `ViewerHost.updateSubmaps`: both for a delivery.
-/

namespace LiveMap

variable {K ρ : Type}

/-- Why submaps cannot be delivered. -/
inductive UpdateError where
  | noSubmaps
  deriving DecidableEq, Repr

def UpdateError.message : UpdateError → String
  | noSubmaps => "on_update_submaps requires at least one submap"

/-- The rebuild that a delivery defers. -/
def Rebuild.ofSubmaps (submaps : List (Submap K)) : Rebuild K :=
  ⟨submaps, submaps.map Submap.origin⟩

namespace Station

def noteAll (notices : List (Notice K)) (s : Station K ρ) : Station K ρ :=
  notices.foldl (fun s n => note n s) s

theorem noteAll_eq (notices : List (Notice K)) (s : Station K ρ) :
    s.noteAll notices = { s with bus := { s.bus with notices := s.bus.notices ++ notices } } := by
  induction notices generalizing s with
  | nil => simp [noteAll]
  | cons n rest ih =>
    have h := ih (note n s)
    simp only [noteAll, List.foldl_cons] at h ⊢
    rw [h]
    simp [note]

/-- Retains the clouds that are new. -/
def retain (submaps : List (Submap K)) (s : Station K ρ) : Station K ρ :=
  let noted := s.noteAll (s.viewer.globalMap.extendNotices submaps)
  let (globalMap, _) := s.viewer.globalMap.deliver submaps
  { noted with viewer := { noted.viewer with globalMap } }

variable [Scalar K]

def publishMap (ps : List (Vec3 K)) (globalMap : GlobalMap K) (s : Station K ρ) : Station K ρ :=
  let merged := { s with viewer := { s.viewer with globalMap } }
  let cloud := PointCloud.pack s.viewer.settings.worldFrame s.wallClock ps
  let published := (merged.publish .map (.cloud cloud)).count fun n =>
    { n with mapsPublished := n.mapsPublished + 1 }
  note (.mapPublished globalMap.count ps.length) published

/-- Retains the clouds that are new, and publishes the map if it is heard. It fails when there are
fewer poses than clouds, which are kept all the same. -/
def rebuildMap (r : Rebuild K) (s : Station K ρ) : Station K ρ × Bool :=
  let retained := s.retain r.submaps
  if retained.isHeard .map then
    match retained.viewer.globalMap.merge r.poses with
    | .ok (ps, globalMap) => (retained.publishMap ps globalMap, true)
    | .error _ => (retained, false)
  else (retained, true)

/-- Corrects the anchor, and says what there is to say about it. -/
def updateAnchor (stamp : K) (T_world_imu : Pose K) (s : Station K ρ) : Station K ρ :=
  let noted := s.noteAll (s.viewer.trajectory.anchorNotices stamp)
  let trajectory := s.viewer.trajectory.updateAnchor stamp T_world_imu
  { noted with viewer := { noted.viewer with trajectory } }

/-- Corrects the anchor by the last scan of a submap. -/
def correctAnchor (latest : Submap K) : Station K ρ → Station K ρ :=
  updateAnchor latest.stamp latest.endpointPose

end Station

namespace ViewerHost

variable [Scalar K]

/-- Takes a delivery of submaps, of which the last is new: the anchor is corrected, and the rebuild
of the map is submitted. -/
def updateSubmaps (submaps : List (Submap K)) (h : ViewerHost K ρ) :
    ViewerHost K ρ × Option UpdateError :=
  match submaps.getLast? with
  | none => (h, some .noSubmaps)
  | some latest =>
    let counted := h.surroundings.count fun n => { n with submapUpdates := n.submapUpdates + 1 }
    let corrected : ViewerHost K ρ := { h with surroundings := counted.correctAnchor latest }
    (corrected.submit (.duty (.ofSubmaps submaps)), none)

end ViewerHost

end LiveMap
