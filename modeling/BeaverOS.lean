import BeaverOS.Lib.ByteMemory
import BeaverOS.Lib.RadixTree
import BeaverOS.Lib.BlockChain
import BeaverOS.Lib.Transition
import BeaverOS.Memory.Paging
import BeaverOS.Memory.Window
import BeaverOS.Memory.FrameAllocator
import BeaverOS.Memory.Conservation
import BeaverOS.Memory.PageTree
import BeaverOS.Memory.TableUpdate
import BeaverOS.Memory.Mapper
import BeaverOS.Memory.MapperState
import BeaverOS.Memory.BootState
import BeaverOS.Memory.Unmap
import BeaverOS.Memory.UpperFlags
import BeaverOS.Memory.Populated
import BeaverOS.Memory.Linker
import BeaverOS.Memory.Calls
import BeaverOS.Memory.Ownership
import BeaverOS.Memory.Footprint
import BeaverOS.Memory.AddressSpace
import BeaverOS.Memory.Reserve
import BeaverOS.Memory.Entries
import BeaverOS.Memory.Protection
import BeaverOS.Memory.WideState
import BeaverOS.Memory.Sbrk
import BeaverOS.Memory.HeapFrames
import BeaverOS.Memory.HeapMemory
import BeaverOS.Memory.ListedState
import BeaverOS.Boot.Remap
import BeaverOS.Memory.Draining
import BeaverOS.Boot.EarlyMain
import BeaverOS.Boot.MemoryMap
import BeaverOS.Memory.Grow
import BeaverOS.Loader.Paging
import BeaverOS.Loader.Level
import BeaverOS.Loader.Refinement
import BeaverOS.Loader.Coverage
import BeaverOS.Loader.Growth
import BeaverOS.Boot.Enforcement
import BeaverOS.Loader.Identity
import BeaverOS.Loader.Elf64
import BeaverOS.Loader.Image
import BeaverOS.Loader.Handshake
import BeaverOS.Loader.Room
import BeaverOS.Loader.Symbols
import BeaverOS.Loader.Lookup
import BeaverOS.Loader.Main
import BeaverOS.Loader.Boot
import BeaverOS.Lib.HeapOrder
import BeaverOS.Data.Heap
import BeaverOS.Isr.Frame
import BeaverOS.Lib.StackMachine
import BeaverOS.Isr.Entry
import BeaverOS.Isr.Dispatch
import BeaverOS.Isr.Transparency
import BeaverOS.Sched.Scheduler
import BeaverOS.Sched.Switch
import BeaverOS.Sched.Invariant
import BeaverOS.Sched.Tasks
import BeaverOS.Sched.Accounts
import BeaverOS.Sched.Selection
import BeaverOS.Sched.Fairness
import BeaverOS.Sched.ExtendedState
import BeaverOS.Threading.Mutex
import BeaverOS.Threading.Exclusion
import BeaverOS.Threading.Preemption
import BeaverOS.Threading.Waiting
import BeaverOS.Threading.Frozen
import BeaverOS.Threading.System
import BeaverOS.Threading.TaskQueue
import BeaverOS.Threading.QueueLock
import BeaverOS.Threading.MaskedSections
import BeaverOS.Threading.Census
import BeaverOS.Lib.Loop
import BeaverOS.Lib.Terminal
import BeaverOS.Screen.Vga
import BeaverOS.Screen.Refinement
import BeaverOS.Lib.Numeral
import BeaverOS.Io.Printf
import BeaverOS.Io.Integers
import BeaverOS.Io.Directives
import BeaverOS.Io.ReadBack
import BeaverOS.Io.ZeroPadding
import BeaverOS.Io.Scanner
import BeaverOS.Io.Rendering
import BeaverOS.Io.Lengths
import BeaverOS.Lib.Division
import BeaverOS.Loader.Divdi3
import BeaverOS.CString.Memmove
import BeaverOS.Isr.Apic
import BeaverOS.CString.Compare
import BeaverOS.CString.Order
import BeaverOS.Memory.Malloc
import BeaverOS.Lib.LinkedQueue
import BeaverOS.Data.Queue
import BeaverOS.Acpi.RootPointer
import BeaverOS.Acpi.Tables
import BeaverOS.Acpi.Mcfg
import BeaverOS.Lib.Stores
import BeaverOS.Gdt.Descriptors
import BeaverOS.Boot.Startup
import BeaverOS.Boot.MainPages
import BeaverOS.Boot.HeapStart
import BeaverOS.Lib.TranslationCache
import BeaverOS.Memory.Tlb
import BeaverOS.Memory.TlbWindow
import BeaverOS.Memory.Invalidation
