import PipMpu.Core.Accessor
import PipMpu.Core.Boot
import PipMpu.Core.CoqCut
import PipMpu.Core.Effects
import PipMpu.Core.ExceptionEntry
import PipMpu.Core.Exceptions
import PipMpu.Core.FindBlock
import PipMpu.Core.Frame
import PipMpu.Core.IntState
import PipMpu.Core.Internal
import PipMpu.Core.MALInit
import PipMpu.Core.MemManage
import PipMpu.Core.ReadOnly
import PipMpu.Core.Register
import PipMpu.Core.Services
import PipMpu.Core.SvcHandler
import PipMpu.Core.Yield
import PipMpu.Model.ADT
import PipMpu.Model.CoqMAL
import PipMpu.Model.CoqMPU
import PipMpu.Model.CoveringLoop
import PipMpu.Model.MAL
import PipMpu.Model.MALInternal
import PipMpu.Model.Machine
import PipMpu.Model.Stores
import PipMpu.Props.Accounting
import PipMpu.Props.AllServices
import PipMpu.Props.AncestorAccess
import PipMpu.Props.Coherence
import PipMpu.Props.Confinement
import PipMpu.Props.CoqCut
import PipMpu.Props.CoveringRegion
import PipMpu.Props.CutChains
import PipMpu.Props.CutMerge
import PipMpu.Props.DeletePartition
import PipMpu.Props.Failures
import PipMpu.Props.FindBlock
import PipMpu.Props.FreeSlots
import PipMpu.Props.InUse
import PipMpu.Props.IntState
import PipMpu.Props.Isolation
import PipMpu.Props.KernelRuns
import PipMpu.Props.KernelTree
import PipMpu.Props.LargestRegion
import PipMpu.Props.MapMPU
import PipMpu.Props.Masking
import PipMpu.Props.MemManage
import PipMpu.Props.Memory
import PipMpu.Props.NewStructure
import PipMpu.Props.NoTrace
import PipMpu.Props.OwnVidt
import PipMpu.Props.PhysicalMPU
import PipMpu.Props.PrepareCollect
import PipMpu.Props.RegionCalls
import PipMpu.Props.RegionRoundTrip
import PipMpu.Props.RegionRuns
import PipMpu.Props.RegionTree
import PipMpu.Props.RegionZero
import PipMpu.Props.Regions
import PipMpu.Props.Removal
import PipMpu.Props.RemoveChain
import PipMpu.Props.Rights
import PipMpu.Props.Searches
import PipMpu.Props.Served
import PipMpu.Props.SharingLinks
import PipMpu.Props.SystemCalls
import PipMpu.Props.Unmapping
import PipMpu.Props.Untouched
import PipMpu.Refine.Blocks
import PipMpu.Refine.Boot
import PipMpu.Refine.Calls
import PipMpu.Refine.Chains
import PipMpu.Refine.Collect
import PipMpu.Refine.Create
import PipMpu.Refine.Delete
import PipMpu.Refine.Ensures
import PipMpu.Refine.Init
import PipMpu.Refine.KernelData
import PipMpu.Refine.Mapping
import PipMpu.Refine.Outside
import PipMpu.Refine.Prepare
import PipMpu.Refine.Search
import PipMpu.Refine.Sharing
import PipMpu.Refine.Sim
import PipMpu.Refine.Splice
import PipMpu.Refine.Stores
import PipMpu.Refine.Tree
import PipMpu.Refine.Walk
import PipMpu.Refine.Writes
import PipMpu.Spec.Bounds
import PipMpu.Spec.Chains
import PipMpu.Spec.Conf
import PipMpu.Spec.Confined
import PipMpu.Spec.Cover
import PipMpu.Spec.Determined
import PipMpu.Spec.Initial
import PipMpu.Spec.Inv
import PipMpu.Spec.Inverse
import PipMpu.Spec.Isolation
import PipMpu.Spec.Lemmas
import PipMpu.Spec.Ops.Access
import PipMpu.Spec.Ops.Join
import PipMpu.Spec.Ops.Partition
import PipMpu.Spec.Ops.Share
import PipMpu.Spec.Ops.Split
import PipMpu.Spec.Ops.Structure
import PipMpu.Spec.Reclaim
import PipMpu.Spec.Release
import PipMpu.Spec.Removal
import PipMpu.Spec.Sep
import PipMpu.Spec.Serving
import PipMpu.Spec.Settled
import PipMpu.Spec.SharedDown
import PipMpu.Spec.Shares
import PipMpu.Spec.Steps
import PipMpu.Spec.Walk
import PipMpu.Switch.Checks
import PipMpu.Switch.Control
import PipMpu.Switch.Delivery
import PipMpu.Switch.Events
import PipMpu.Switch.FpuRegisters
import PipMpu.Switch.Reads
import PipMpu.Switch.Rejected
import PipMpu.Switch.Runs
import PipMpu.Switch.SaveRestore
import PipMpu.Util.DoWhile
import PipMpu.Util.Dyadic
import PipMpu.Util.Keeps
import PipMpu.Util.Linked
import PipMpu.Util.Mem
import PipMpu.Util.Nest
import PipMpu.Util.System
import PipMpu.Util.Tiling
