import PTEditor.Foundation.BitView
import PTEditor.Foundation.Bits
import PTEditor.Foundation.ByteMem
import PTEditor.Foundation.Ensures
import PTEditor.Foundation.Interleaving
import PTEditor.Foundation.Loop
import PTEditor.Foundation.Prog
import PTEditor.Foundation.RadixTree
import PTEditor.Foundation.RadixWalk
import PTEditor.Foundation.RwLock
import PTEditor.Entry
import PTEditor.EntryAccessors
import PTEditor.EntryTypes
import PTEditor.Module.Ioctl
import PTEditor.Module.IoctlSpec
import PTEditor.Module.Kernel
import PTEditor.Module.Linux
import PTEditor.Module.Load
import PTEditor.Module.Locks
import PTEditor.Module.Pointers
import PTEditor.Module.RawCopy
import PTEditor.Module.Resolve
import PTEditor.Module.ResolveSpec
import PTEditor.Module.Tlb
import PTEditor.Library.MemoryType
import PTEditor.Library.Operations
import PTEditor.Library.Process
import PTEditor.Library.PteSpec
import PTEditor.Library.Ptedit
import PTEditor.Library.PteditSpec
import PTEditor.Library.Separate
import PTEditor.Library.Shape
import PTEditor.Library.Slots
import PTEditor.Library.System
import PTEditor.Library.Tables
import PTEditor.Library.UserSpec
import PTEditor.Library.Walk
import PTEditor.Agreement
import PTEditor.Architecture
import PTEditor.CallerFlush
import PTEditor.Cores
import PTEditor.Demos.MapPt
import PTEditor.Demos.Memmap
import PTEditor.Demos.MemmapSpec
import PTEditor.Demos.Virt2phys
import PTEditor.Driver.Dispatch
import PTEditor.Driver.Requests
import PTEditor.FailedCopy
import PTEditor.FindMemoryType
import PTEditor.FoldedLevel
import PTEditor.HandleLifecycle
import PTEditor.HugeEntry
import PTEditor.IndexDecomposition
import PTEditor.InitChannels
import PTEditor.InvalidPid
import PTEditor.KernelConsistency
import PTEditor.LargePages
import PTEditor.LoadUnload
import PTEditor.LockBalance
import PTEditor.LockDiscipline
import PTEditor.LostUpdate
import PTEditor.MappedWindow
import PTEditor.MemoryMap
import PTEditor.OwnPages
import PTEditor.PatTransport
import PTEditor.PhysicalPage
import PTEditor.ProcessRuns
import PTEditor.PteRuns
import PTEditor.RealTables
import PTEditor.ResolveAfterUpdate
import PTEditor.RootCoherence
import PTEditor.SaveRestore
import PTEditor.SetMemoryType
import PTEditor.SetPfn
import PTEditor.StartUp
import PTEditor.Switching
import PTEditor.TlbCoherence
import PTEditor.TlbFlush
import PTEditor.Translation
import PTEditor.UpdateFrame
import PTEditor.ValidEntries
import PTEditor.VmLock
import PTEditor.WindowsAgreement
import PTEditor.WindowsBuffer
import PTEditor.WindowsEffects
import PTEditor.WindowsLibrary
import PTEditor.WindowsMemoryType
import PTEditor.WindowsRuns
import PTEditor.WindowsSpec
