import SosKernel.CodeMemoryHandles
import SosKernel.CodeMemoryTouches
import SosKernel.FetcherCompletion
import SosKernel.FetcherServing
import SosKernel.LoaderCompletion
import SosKernel.RegistrationAtomicity
import SosKernel.LinkOrder
import SosKernel.PeriodicTimers
import SosKernel.MessageCollection
import SosKernel.HeapGuards
import SosKernel.FetcherBitmaps
import SosKernel.UartOwnership
import SosKernel.UartFrames
import SosKernel.UartIntegrity
import SosKernel.VmacReceiver
import SosKernel.NetworkDispatch
import SosKernel.SharedMemoryRefinement
import SosKernel.WiringGids
import SosKernel.WiringDelivery
import SosKernel.WiringContinue
import SosKernel.DvmWaiting
import SosKernel.DvmScheduling
import SosKernel.DvmAnalysis
import SosKernel.MiniElfLoader
import SosKernel.DvmArithmetic
import SosKernel.DvmBuffers
import SosKernel.MemoryMap
import SosKernel.TreeRoutingBlocks
import SosKernel.BlockBoundaries
import SosKernel.HeapSimulation
import SosKernel.SlabRuns
import SosKernel.InstructionBoundaries
