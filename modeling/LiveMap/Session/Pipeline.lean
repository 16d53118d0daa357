import LiveMap.Session.Basic

/-!
# The pipeline side of a session

Viewers register for frames and submaps, are reached through the slots, and are closed.

## Main definitions

* `Session.register`, `Session.unregister`, `Session.close`: the life of a viewer.
* `Session.newFrame`, `Session.updateSubmaps`: what one viewer is told.
* `Session.dispatchFrame`, `Session.dispatchSubmaps`: what all registered viewers are told.
-/

namespace LiveMap.Session

variable {K ρ : Type}

/-! ## Registration -/

def modifyMember (id : Nat) (f : Member K → Member K) (s : Session K ρ) : Session K ρ :=
  { s with members := s.members.modify id f }

def isRegistered (id : Nat) (s : Session K ρ) : Bool :=
  ((s.members[id]?).map Member.registered).getD false

def isClosed (id : Nat) (s : Session K ρ) : Bool :=
  ((s.members[id]?).map Member.closed).getD false

/-- Adds a viewer to both slots, unless it is registered. -/
def register (id : Nat) (s : Session K ρ) : Session K ρ :=
  if s.isRegistered id then s
  else
    let forFrames := note (.callbackAdded s.frameSlot.name)
      { s with frameSlot := s.frameSlot.add id }
    let forBoth := note (.callbackAdded s.submapSlot.name)
      { forFrames with submapSlot := s.submapSlot.add id }
    note .viewerRegistered (forBoth.modifyMember id fun m => { m with registered := true })

def leaveFrames (id : Nat) (s : Session K ρ) : Session K ρ :=
  if id ∈ s.frameSlot.entries then
    note (.callbackRemoved s.frameSlot.name) { s with frameSlot := s.frameSlot.remove id }
  else s

def leaveSubmaps (id : Nat) (s : Session K ρ) : Session K ρ :=
  if id ∈ s.submapSlot.entries then
    note (.callbackRemoved s.submapSlot.name) { s with submapSlot := s.submapSlot.remove id }
  else s

/-- Takes a viewer out of both slots, if it is registered. -/
def unregister (id : Nat) (s : Session K ρ) : Session K ρ :=
  if s.isRegistered id then
    ((s.leaveFrames id).leaveSubmaps id).modifyMember id fun m => { m with registered := false }
  else s

def stop (id : Nat) (timeout : Option K) : Session K ρ → Session K ρ × Option StopError :=
  onHost id none fun h => h.stop timeout

/-- Takes a viewer out of the slots and stops its scheduler. It counts as closed only when the
scheduler could be stopped, and is left alone from then on. -/
def close (id : Nat) (s : Session K ρ) : Session K ρ × Option StopError :=
  if s.isClosed id then (s, none)
  else
    match (s.unregister id).stop id none with
    | (s, none) => (s.modifyMember id fun m => { m with closed := true }, none)
    | (s, some e) => (s, some e)

variable [Scalar K]

/-! ## Deliveries -/

/-- A frame told to one viewer. -/
def newFrame (f : EstimationFrame K) (id : Nat) : Session K ρ → Session K ρ × Option PoseError :=
  onStation id none fun s => s.newFrame f

/-- Submaps told to one viewer. -/
def updateSubmaps (submaps : List (Submap K)) (id : Nat) :
    Session K ρ → Session K ρ × Option UpdateError :=
  onHost id none (ViewerHost.updateSubmaps submaps)

/-- A frame told to all registered viewers, up to the first that fails. -/
def dispatchFrame (f : EstimationFrame K) (s : Session K ρ) : Session K ρ × Option PoseError :=
  invokeAll (newFrame f) s.frameSlot.entries s

/-- Submaps told to all registered viewers, up to the first that fails. -/
def dispatchSubmaps (submaps : List (Submap K)) (s : Session K ρ) :
    Session K ρ × Option UpdateError :=
  invokeAll (updateSubmaps submaps) s.submapSlot.entries s

/-! ## Scenes -/

/-- Feeds parts of a scene from the outputs of a viewer, and names the entities after its frames. -/
def attachScene (index id : Nat) (parts : List Output) (s : Session K ρ) : Session K ρ :=
  match s.members[id]? with
  | none => s
  | some member =>
    let named := s.bus.setPaths index member.viewer.settings.paths
    { s with bus := named.addSources index (fun o => (id, o)) parts }

end LiveMap.Session
