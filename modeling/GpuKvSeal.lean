import GpuKvSeal.Foundations.CellProgram
import GpuKvSeal.Foundations.TracedState
import GpuKvSeal.Foundations.BinaryField
import GpuKvSeal.Foundations.HornerHash
import GpuKvSeal.Foundations.BigEndian
import GpuKvSeal.Standard.Aes
import GpuKvSeal.Standard.Gcm
import GpuKvSeal.Standard.GcmField
import GpuKvSeal.Standard.GcmBytes
import GpuKvSeal.Standard.Frame
import GpuKvSeal.Standard.GcmTamper
import GpuKvSeal.Device.AesBlock
import GpuKvSeal.Device.Field
import GpuKvSeal.Device.Kernels
import GpuKvSeal.Device.Footprints
import GpuKvSeal.Host.Runtime
import GpuKvSeal.Host.Api
import GpuKvSeal.Host.Drain
import GpuKvSeal.Host.Contracts
import GpuKvSeal.Host.Accounting
import GpuKvSeal.Host.Workspace
import GpuKvSeal.Host.Pipeline
import GpuKvSeal.Host.Calls
import GpuKvSeal.Host.Keys
import GpuKvSeal.Host.Errors
import GpuKvSeal.Host.Runs
import GpuKvSeal.Host.PendingError
import GpuKvSeal.Host.Rejections
import GpuKvSeal.Host.KeySteps
import GpuKvSeal.Refinement.AesFips
import GpuKvSeal.Refinement.AesPermutation
import GpuKvSeal.Refinement.GhashField
import GpuKvSeal.Refinement.CounterKernel
import GpuKvSeal.Refinement.GhashTree
import GpuKvSeal.Refinement.TagKernels
import GpuKvSeal.System.Footprints
import GpuKvSeal.System.Hash
import GpuKvSeal.System.Frames
import GpuKvSeal.System.Sessions
import GpuKvSeal.System.Completion
import GpuKvSeal.System.Seal
import GpuKvSeal.System.Open
import GpuKvSeal.System.Tamper
import GpuKvSeal.System.Gate
import GpuKvSeal.System.Reports
import GpuKvSeal.System.Creation
import GpuKvSeal.System.HashTree
import GpuKvSeal.System.CounterSpace
import GpuKvSeal.Host.Grids
import GpuKvSeal.System.OpenLimit
import GpuKvSeal.System.Bounds
import GpuKvSeal.Cpu.Process
import GpuKvSeal.Cpu.Api
import GpuKvSeal.Cpu.Chunks
import GpuKvSeal.Cpu.SealBounds
import GpuKvSeal.Cpu.Session
import GpuKvSeal.Cpu.OpenSafety
import GpuKvSeal.Cpu.Streaming
import GpuKvSeal.Cpu.Works
import GpuKvSeal.System.Interop
import GpuKvSeal.Serde.Native
import GpuKvSeal.Serde.RoundTrip
import GpuKvSeal.Refinement.Powers
import GpuKvSeal.Foundations.StreamQueue
import GpuKvSeal.Foundations.LastWriter
import GpuKvSeal.Device.Races
import GpuKvSeal.Host.Queue
import GpuKvSeal.System.Programs
import GpuKvSeal.System.Overlap
import GpuKvSeal.System.FreshNodes
import GpuKvSeal.System.Undisturbed
import GpuKvSeal.Foundations.ThreadPool
import GpuKvSeal.Device.Threads
import GpuKvSeal.Host.Lifecycle
import GpuKvSeal.Host.Composed
import GpuKvSeal.Host.Heap
import GpuKvSeal.System.Asks
import GpuKvSeal.System.Interleaving
import GpuKvSeal.System.Delivered
import GpuKvSeal.Foundations.HashPolynomial
import GpuKvSeal.Standard.Forgery
import GpuKvSeal.System.Forgery
import GpuKvSeal.System.Lifetimes
import GpuKvSeal.Host.KeyObjects
import GpuKvSeal.Host.Reservations
import GpuKvSeal.Foundations.SoleWriter
import GpuKvSeal.Device.Writers
import GpuKvSeal.System.Transients
import GpuKvSeal.Foundations.Workers
import GpuKvSeal.Cpu.Accesses
import GpuKvSeal.Cpu.Threads
import GpuKvSeal.System.Placement
