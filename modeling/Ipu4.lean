import Ipu4.Lib.Errno
import Ipu4.FwCom.Tokens
import Ipu4.Isys.Isr
import Ipu4.Isys.Format
import Ipu4.Isys.Ioctl
import Ipu4.Lib.Overlay
import Ipu4.Mmu.Table
import Ipu4.Mmu.Walk
import Ipu4.Mmu.Map
import Ipu4.Mmu.Refine
import Ipu4.Dma.Buffers
import Ipu4.Dma.Loops
import Ipu4.Dma.Store
import Ipu4.Dma.Scatter
import Ipu4.Capture.Bufs
import Ipu4.Capture.Stream
import Ipu4.Capture.Queue
import Ipu4.Capture.Outcome
import Ipu4.Capture.Start
import Ipu4.Capture.Ops
import Ipu4.Capture.Wf
import Ipu4.Capture.Ownership
import Ipu4.Capture.Unwind
import Ipu4.Capture.Coherence
import Ipu4.Capture.OpenCount
import Ipu4.FwCom.Layout
import Ipu4.Qemu.Iova
import Ipu4.Qemu.Transfer
import Ipu4.Qemu.Responder
import Ipu4.Qemu.Responses
import Ipu4.Qemu.Sessions
import Ipu4.Capture.Slots
import Ipu4.Dma.Tlb
import Ipu4.Dma.Reuse
import Ipu4.Lib.Holding
import Ipu4.Mmu.Lifetime
import Ipu4.Capture.Calls
import Ipu4.Capture.Context
import Ipu4.Capture.Messages
import Ipu4.Capture.Fifo
import Ipu4.Capture.Interleaved
import Ipu4.Capture.Tied
import Ipu4.Capture.Detach
import Ipu4.Qemu.Consumption
import Ipu4.Mmu.Unmap
import Ipu4.Qemu.Walker
import Ipu4.Qemu.Guest
import Ipu4.Qemu.Mmio
import Ipu4.Qemu.Migration
import Ipu4.Qemu.Csi2
import Ipu4.Isys.Power
import Ipu4.Lib.Dict
import Ipu4.Mmiotrace.Compare
import Ipu4.Mmiotrace.Report
import Ipu4.Mmiotrace.Baseline
import Ipu4.Qemu.Pattern
import Ipu4.Qemu.Frames
import Ipu4.Capture.Flush
import Ipu4.Isys.Sizes
import Ipu4.Lib.Logged
import Ipu4.Cpd.File
import Ipu4.Cpd.Reads
import Ipu4.Cpd.PkgDir
import Ipu4.Lib.Objects
import Ipu4.Probe.Steps
import Ipu4.Probe.Unwind
import Ipu4.Buttress.Ipc
import Ipu4.Buttress.Tsc
import Ipu4.Capture.Dump
import Ipu4.Lib.Areas
import Ipu4.FwCom.Prepare
import Ipu4.FwCom.IsysCfg
import Ipu4.FwCom.Open
import Ipu4.Capture.Sequence
import Ipu4.Qemu.Latches
import Ipu4.Isys.Crop
import Ipu4.Isys.Routes
import Ipu4.Mmiotrace.Rows
import Ipu4.Dma.Regions
import Ipu4.Dma.RoundTrip
import Ipu4.Mmu.Tables
import Ipu4.Dma.Rollback
import Ipu4.Capture.Launch
import Ipu4.Capture.Receivers
import Ipu4.Isys.Timing
import Ipu4.Dma.Pages
import Ipu4.Dma.Mmap
import Ipu4.Lib.Regex
import Ipu4.Lib.Numerals
import Ipu4.Mmiotrace.Parsers
import Ipu4.Qemu.Writer
import Ipu4.Dma.Live
import Ipu4.Qemu.Inside
import Ipu4.Lib.Prog
import Ipu4.Buttress.Regs
import Ipu4.Buttress.Reset
import Ipu4.Buttress.Irq
import Ipu4.Buttress.Auth
import Ipu4.Buttress.Control
import Ipu4.Qemu.Buttress
import Ipu4.Lib.Paged
import Ipu4.Qemu.Stored
import Ipu4.Qemu.Shared
import Ipu4.Isys.Receiver
import Ipu4.Isys.Negotiate
import Ipu4.Lib.Acquire
import Ipu4.Probe.Isys
import Ipu4.Probe.Life
