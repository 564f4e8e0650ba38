import Rocket68.Theorems.Listing
import Rocket68.Trap.Wp
import Rocket68.Trap.Simulation
import Rocket68.Theorems.Nesting
import Rocket68.Theorems.Restore
import Rocket68.Theorems.Boundary
import Rocket68.Theorems.Stacks
import Rocket68.Theorems.Return
import Rocket68.Theorems.LongAccess
import Rocket68.Theorems.Interrupts
import Rocket68.Theorems.Precise
import Rocket68.Theorems.Targets
import Rocket68.Theorems.Frames
import Rocket68.Theorems.Commit
import Rocket68.Theorems.Tracing
import Rocket68.Theorems.Callbacks
import Rocket68.Theorems.Compare
import Rocket68.Theorems.Shifts
import Rocket68.Theorems.Division
import Rocket68.Theorems.Multiprecision
import Rocket68.Theorems.Decimal
import Rocket68.Theorems.Movem
import Rocket68.Theorems.Immediate
import Rocket68.Logic.Settle
import Rocket68.Logic.Lines
import Rocket68.Timeslice
import Rocket68.Theorems.Format
import Rocket68.Theorems.Ihex
import Rocket68.Theorems.Binary
import Rocket68.Theorems.Corruption
import Rocket68.Disasm
import Rocket68.Theorems.Disassembly
import Rocket68.Theorems.Registers
import Rocket68.Theorems.Accesses
import Rocket68.Logic.Twin
import Rocket68.Theorems.Progress
import Rocket68.Theorems.Slices
import Rocket68.Theorems.Nmi
import Rocket68.Theorems.Resume
import Rocket68.Theorems.Enclosed
import Rocket68.Theorems.Calls
