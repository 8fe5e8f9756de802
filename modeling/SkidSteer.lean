import SkidSteer.Main
import SkidSteer.Proofs.Registry
import SkidSteer.Proofs.Control.Causes
import SkidSteer.Proofs.Control.Settled
import SkidSteer.Proofs.Control.CommandLog
import SkidSteer.Proofs.Control.Disabling
import SkidSteer.Proofs.Control.Tickets
import SkidSteer.Proofs.Control.Resetting
import SkidSteer.Proofs.Control.UnknownTarget
import SkidSteer.Proofs.Binary64.Order
import SkidSteer.Proofs.Control.Saturation
import SkidSteer.Proofs.Control.Clients
import SkidSteer.Proofs.Storage.Streams
import SkidSteer.Proofs.Storage.Words
import SkidSteer.Proofs.Storage.Decoding
import SkidSteer.Proofs.Storage.Stored
import SkidSteer.Proofs.Storage.Files
import SkidSteer.Proofs.Storage.Separate
import SkidSteer.Proofs.Storage.Places
import SkidSteer.Proofs.Storage.NormalForm
import SkidSteer.Proofs.Storage.Below
import SkidSteer.Proofs.Storage.Interrupted
import SkidSteer.Proofs.Storage.Beside
import SkidSteer.Proofs.Control.Driving
import SkidSteer.Proofs.Binary64.Words
import SkidSteer.Proofs.Binary64.Signs
import SkidSteer.Proofs.Binary64.Counts
import SkidSteer.Proofs.Planning.Curves
import SkidSteer.Proofs.Planning.Steps
import SkidSteer.Proofs.Planning.SampleCount
import SkidSteer.Proofs.Mission.Preparing
import SkidSteer.Proofs.Mission.Driven
import SkidSteer.Proofs.Mission.Executed
import SkidSteer.Proofs.Registry.History
import SkidSteer.Proofs.Control.Settling
import SkidSteer.Proofs.Control.Failing
import SkidSteer.Proofs.Control.Moving
import SkidSteer.Proofs.Planning.Reals
import SkidSteer.Proofs.Planning.Profile
import SkidSteer.Proofs.Planning.Table
import SkidSteer.Proofs.Planning.Samples
import SkidSteer.Proofs.Planning.Wheels
import SkidSteer.Proofs.Planning.Corners
import SkidSteer.Proofs.Planning.Travel
import SkidSteer.Proofs.Planning.Lookup
import SkidSteer.Proofs.Planning.Coverage
import SkidSteer.Proofs.Planning.Angles
import SkidSteer.Proofs.Planning.Symmetry
import SkidSteer.Proofs.Params
import SkidSteer.Proofs.Binary64.NotNumbers
import SkidSteer.Proofs.Binary64.Rounding
import SkidSteer.Proofs.Binary64.Values
import SkidSteer.Proofs.Binary64.Nearest
import SkidSteer.Proofs.Binary64.Operations
import SkidSteer.Proofs.Binary64.Wrapping
import SkidSteer.Proofs.Planning.Platform
import SkidSteer.Proofs.Planning.Refusals
import SkidSteer.Proofs.Planning.Faults
import SkidSteer.Proofs.Planning.Joints
import SkidSteer.Proofs.Control.Demands
import SkidSteer.Proofs.Control.Orienting
import SkidSteer.Proofs.Mission.Periods
