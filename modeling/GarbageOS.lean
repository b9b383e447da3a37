import GarbageOS.Heap.Live
import GarbageOS.Heap.Check
import GarbageOS.Heap.Sizes
import GarbageOS.Heap.OutOfMem
import GarbageOS.Shootdown.Checkpoint
import GarbageOS.Shootdown.Effective
import GarbageOS.Shootdown.Activation
import GarbageOS.Vmm.Dealloc
import GarbageOS.Vmm.Placement
import GarbageOS.KernelData.Registry
import GarbageOS.Boot.Identity
import GarbageOS.Apic.Bounds
import GarbageOS.Console.Format
import GarbageOS.Tools.MbrMaker
import GarbageOS.Boot.SecondStage
import GarbageOS.Frames.Capacity
import GarbageOS.Frames.Bootstage
import GarbageOS.Apic.Routing
import GarbageOS.Apic.Nmi
import GarbageOS.Acpi.Discovery
import GarbageOS.Acpi.Lookup
import GarbageOS.Mp.Startup
import GarbageOS.Vmm.FirstFit
import GarbageOS.Vmm.IdentityLoad
import GarbageOS.Vmm.StackGrowth
import GarbageOS.Vmm.Coverage
import GarbageOS.Timer.Pit8254
import GarbageOS.Interrupt.Pic
import GarbageOS.Boot.MemoryMap
import GarbageOS.Shootdown.Integrity
import GarbageOS.Console.Vbe
import GarbageOS.Console.Psf
import GarbageOS.Tools.FatEntries
import GarbageOS.Kernel.Spinlock
import GarbageOS.Console.RingCalls
import GarbageOS.Kernel.Elf
import GarbageOS.Kernel.Memcpy
import GarbageOS.Boot.FirstStage
