import LiveMap.Bus.Clients
import LiveMap.Slot.Basic
import LiveMap.Viewer.Frame
import LiveMap.Viewer.MapUpdate

/-!
# Sessions

A session is any number of viewers on one bus, with the two slots through which the pipeline reaches
those that are registered, and with the clocks that they share.

## Main definitions

* `Member`: a viewer with its scheduler, and what became of it.
* `Session` with `Session.host?` and `Session.putHost`: one viewer seen in its surroundings.
* `Session.addViewer`: one more viewer.
-/

namespace LiveMap

/-- A viewer with its scheduler: whether it is registered, and whether it was closed. -/
structure Member (K : Type) where
  viewer : Viewer K
  scheduler : Scheduler K (Task K (Rebuild K))
  registered : Bool := false
  closed : Bool := false

def frameSlotName : String := "OdometryEstimationCallbacks.on_new_frame"

def submapSlotName : String := "GlobalMappingCallbacks.on_update_submaps"

/-- Viewers by their numbers, the slots that hold the numbers of the registered ones, the bus, the
clocks, and whether a task keeps scheduler threads from ending. The joins that were asked for and
the jobs that were started are kept in order. -/
structure Session (K ρ : Type) where
  members : List (Member K) := []
  frameSlot : Slot Nat := { name := frameSlotName }
  submapSlot : Slot Nat := { name := submapSlotName }
  bus : Bus K Address ρ
  now : K
  wallClock : K
  blocked : Bool := false
  joins : List K := []
  started : List String := []

namespace Session

variable {K ρ : Type}

instance : Noted (Session K ρ) K := ⟨fun n s => { s with bus := note n s.bus }⟩

/-- A viewer in its surroundings, if there is one of that number. -/
def host? (id : Nat) (s : Session K ρ) : Option (ViewerHost K ρ) :=
  (s.members[id]?).map fun member =>
    { scheduler := member.scheduler
      now := s.now
      blocked := s.blocked
      joins := s.joins
      started := s.started
      surroundings :=
        { id, viewer := member.viewer, bus := s.bus, wallClock := s.wallClock } }

/-- A viewer in its surroundings has its own scheduler and outputs, and other threads act. -/
theorem exists_of_host? {id : Nat} {s : Session K ρ} {h : ViewerHost K ρ}
    (hhost : s.host? id = some h) : ∃ m, s.members[id]? = some m ∧ h.scheduler = m.scheduler ∧
      h.surroundings = ⟨id, m.viewer, s.bus, s.wallClock⟩ ∧ h.onLoopThread = false := by
  obtain ⟨m, hm, rfl⟩ := Option.map_eq_some_iff.mp hhost
  exact ⟨m, hm, rfl, rfl, rfl⟩

/-- The session after something happened to a viewer in its surroundings. -/
def putHost (id : Nat) (h : ViewerHost K ρ) (s : Session K ρ) : Session K ρ :=
  let put (member : Member K) : Member K :=
    { member with viewer := h.surroundings.viewer, scheduler := h.scheduler }
  { s with
    members := s.members.modify id put
    bus := h.surroundings.bus
    now := h.now
    wallClock := h.surroundings.wallClock
    blocked := h.blocked
    joins := h.joins
    started := h.started }

/-- Lets something happen to a viewer in its surroundings, with a result; nothing happens when there
is no viewer of that number. -/
def onHost {α : Type} (id : Nat) (absent : α) (f : ViewerHost K ρ → ViewerHost K ρ × α)
    (s : Session K ρ) : Session K ρ × α :=
  match s.host? id with
  | none => (s, absent)
  | some h =>
    let (h, result) := f h
    (s.putHost id h, result)

theorem onHost_of_host? {α : Type} {id : Nat} {s : Session K ρ} {h : ViewerHost K ρ}
    (hhost : s.host? id = some h) (absent : α) (f : ViewerHost K ρ → ViewerHost K ρ × α) :
    s.onHost id absent f = (s.putHost id (f h).1, (f h).2) := by
  rw [onHost, hhost]

/-- Lets something happen to a viewer at its outputs, with a result. -/
def onStation {α : Type} (id : Nat) (absent : α) (f : Station K ρ → Station K ρ × α) :
    Session K ρ → Session K ρ × α :=
  onHost id absent fun h =>
    let (surroundings, result) := f h.surroundings
    ({ h with surroundings }, result)

variable [Scalar K]

/-- One more viewer, with a scheduler that begins and outputs that nobody listens to. Its number is
the number of viewers before it. -/
def addViewer (settings : Settings K) (s : Session K ρ) : Session K ρ :=
  let id := s.members.length
  let scheduler : Scheduler K (Task K (Rebuild K)) :=
    { period := settings.period, joinTimeout := settings.joinTimeout,
      name := Scheduler.standardName }
  let channels (a : Address) : Channel (Listener ρ) :=
    if a.1 = id then { topic := settings.topic a.2 } else s.bus.channels a
  let opened : Session K ρ :=
    { s with
      members := s.members ++ [{ viewer := .start settings, scheduler }]
      bus := { s.bus with channels } }
  note (.schedulerStarted settings.period) opened

end Session

end LiveMap
