import Rvvm.Net.TapIsolation
import Rvvm.Net.TapBounds
import Rvvm.Cpu.Precise
import Rvvm.Cpu.Interrupts
import Rvvm.Devices.Uart
import Rvvm.Devices.NvmeBinding
import Rvvm.Devices.NvmeCompletion
import Rvvm.Devices.NvmeIntx
import Rvvm.Devices.PciMsi
import Rvvm.Cpu.AiaRetention
import Rvvm.Cpu.LrSc
import Rvvm.Cpu.Warl
import Rvvm.Devices.AplicBounds
import Rvvm.Devices.AplicIsolation
import Rvvm.Devices.EthocBounds
import Rvvm.Devices.PlicGateway
import Rvvm.Net.TapLifetime
import Rvvm.Net.TapStream
import Rvvm.Devices.AtaDma
import Rvvm.Devices.AtaPio
import Rvvm.Devices.Rtl8169Irq
import Rvvm.Devices.Rtl8169Tx
import Rvvm.Machine.SnapshotRead
import Rvvm.Util.ElfLoad
import Rvvm.Util.Ringbuf
import Rvvm.Cpu.FenceVma
import Rvvm.Util.Spinlock
import Rvvm.Machine.IrqAlloc
import Rvvm.Devices.SpiNor
import Rvvm.Devices.Aclint
import Rvvm.Machine.AddressSpace
import Rvvm.Devices.XhciLifetime
import Rvvm.Devices.XhciAsync
import Rvvm.Devices.XhciControl
import Rvvm.Devices.Exar
import Rvvm.Devices.Mcp251x
import Rvvm.Devices.HdaRings
import Rvvm.Util.Event
import Rvvm.Cpu.Queries
import Rvvm.Cpu.Fcsr
import Rvvm.Cpu.Satp
import Rvvm.Devices.RtcDs1742
import Rvvm.Net.TapTable
import Rvvm.Net.TapWindow
import Rvvm.Devices.HidMouse
import Rvvm.Jit.X86Shift
