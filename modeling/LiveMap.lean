import LiveMap.Config.File
import LiveMap.Numeric.Binary32
import LiveMap.Proofs.Trajectory.Release
import LiveMap.Proofs.Viewer.Extrinsic
import LiveMap.Proofs.Viewer.MapRuns
import LiveMap.Session.Pipeline
import LiveMap.Proofs.Schedule.Threads
import LiveMap.Proofs.Schedule.Levels
import LiveMap.Proofs.FrameTree.Lookup
import LiveMap.Proofs.Session.Closing
import LiveMap.Proofs.Message.PackedCloud
import LiveMap.Proofs.Channel.Reentrancy
import LiveMap.Proofs.Viewer.MessageCounts
import LiveMap.Proofs.Viewer.Observers
import LiveMap.Proofs.FrameTree.Walks
import LiveMap.Proofs.Trajectory.Matching
import LiveMap.Proofs.Session.Registration
import LiveMap.Proofs.Viewer.Placement
import LiveMap.Proofs.Trajectory.Retained
import LiveMap.Proofs.Message.PoseMessages
import LiveMap.Proofs.Geometry.Homogeneous
import LiveMap.Proofs.GlobalMap.Deliveries
import LiveMap.Proofs.Schedule.Pace
import LiveMap.Proofs.Slot.Nesting
import LiveMap.Proofs.Geometry.Closeness
import LiveMap.Proofs.GlobalMap.Stacking
import LiveMap.Proofs.Scene.Clouds
import LiveMap.Proofs.Scene.Heights
import LiveMap.Proofs.Scene.Trail
import LiveMap.Proofs.Config.Section
import LiveMap.Proofs.Bus.Ownership
