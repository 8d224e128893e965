import Cemu.Riscv64.Mprv
import Cemu.Riscv64.PmpLock
import Cemu.Riscv64.SupervisorView
import Cemu.Riscv64.Irq
import Cemu.X86.IntrPin
import Cemu.Virtio.Progress
import Cemu.Storage.FdcContained
import Cemu.Storage.IdeGeometry
import Cemu.Storage.IdeIrq
import Cemu.Video.VgaFrame
import Cemu.Video.VgaPlanes
import Cemu.Riscv64.Retire
import Cemu.Riscv32.SplitCsr
import Cemu.Riscv.FaultAddress
import Cemu.Riscv32.CompressedSame
import Cemu.Bus.RamRange
import Cemu.Riscv64.TrapReturn
import Cemu.Riscv64.MulDiv
import Cemu.Riscv64.CsrLegal
import Cemu.Riscv64.NanBox
import Cemu.X86.TornStores
import Cemu.X86.StringInput
import Cemu.X86.CountedRuns
import Cemu.X86.Opcodes
import Cemu.X86.Imul
import Cemu.X86.BitString
import Cemu.X86.DataSegs
import Cemu.Char.Uart
import Cemu.Bus.WideDevice
