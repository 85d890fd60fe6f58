import Z486.Clocked.Run
import Z486.Clocked.Bits
import Z486.Clocked.Since
import Z486.Clocked.Pipeline
import Z486.Interrupt.I8259
import Z486.Interrupt.Inta
import Z486.Clocked.Rotation
import Z486.Interrupt.Priority
import Z486.Interrupt.Turns
import Z486.Interrupt.Poll
import Z486.Video.HostPort
import Z486.Memory.MainMemory
import Z486.Memory.Service
import Z486.Memory.Planar
import Z486.Memory.VgaBytes
import Z486.Boot.Loader
import Z486.Boot.Writer
import Z486.Boot.Copy
import Z486.Boot.Complete
import Z486.Clocked.Fifo
import Z486.Ddr3.Arbiter
import Z486.Ddr3.Routing
import Z486.Ddr3.Delivery
import Z486.Sdram.Controller
import Z486.Sdram.Bus
import Z486.Sdram.Reading
import Z486.Sdram.Writing
import Z486.Sdram.Access
import Z486.Sdram.Refresh
import Z486.Clocked.Spacing
import Z486.Sdram.RowTiming
import Z486.Sdram.Device
import Z486.Sdram.Contents
import Z486.Sdram.Fetch
import Z486.Sdram.Store
import Z486.Sdram.Served
import Z486.Sdram.Serves
import Z486.Disk.Floppy
import Z486.Disk.FloppyAfresh
import Z486.Disk.FloppyReset
import Z486.Memory.Mailbox
import Z486.Disk.FloppyBusy
import Z486.Clocked.Gray
import Z486.Disk.Ide
import Z486.Disk.IdePort
import Z486.Disk.IdeReads
import Z486.Video.DotClock
import Z486.Video.DotClockValid
import Z486.Video.DotResync
import Z486.Video.LineFetch
import Z486.Video.LineMailbox
import Z486.Video.LinePixels
import Z486.Video.LineShown
import Z486.Video.Retimed
import Z486.Calendar.Date
import Z486.Calendar.Walk
import Z486.Cmos.Checksum
import Z486.Cmos.Setup
import Z486.Cmos.Daylight
import Z486.Cmos.Events
import Z486.Common.SimpleFifo
import Z486.Clocked.BoundedQueue
import Z486.Common.FifoQueue
import Z486.Disk.FloppyCompletion
import Z486.Clocked.Multiply
import Z486.Disk.FloppyLocation
import Z486.Disk.FloppySectors
import Z486.Disk.FloppyFormat
import Z486.Disk.IdeDelivers
import Z486.Disk.IdeAccess
import Z486.Disk.IdeWidths
import Z486.Dma.I8237
import Z486.Dma.TerminalCount
import Z486.Dma.Grants
import Z486.Dma.Runs
import Z486.Dma.Blocks
import Z486.Dma.Counting
import Z486.Dma.Performs
import Z486.IoBus.Cycles
import Z486.IoBus.Sequence
import Z486.Ps2.Controller
import Z486.Ps2.Frames
import Z486.Ps2.Retry
import Z486.Ps2.Translation
import Z486.Clocked.Countdown
import Z486.Timer.PitCounter
import Z486.Timer.Counts
import Z486.Timer.Periods
import Z486.Timer.Rewrites
import Z486.Timer.Readback
import Z486.Clocked.Accumulator
import Z486.Sound.Dsp
import Z486.Sound.SampleClock
import Z486.Sound.Transfers
import Z486.Sound.Output
import Z486.Sound.Adpcm
import Z486.Sound.AdpcmSigns
import Z486.Sound.Mixer
import Z486.Sound.Compressor
import Z486.Sound.Cdda
import Z486.Clocked.TimeShare
import Z486.Sound.Volume
import Z486.Sound.MixerChip
import Z486.Clocked.SerialLine
import Z486.Common.UartTx
import Z486.Sound.Mpu401
import Z486.Gus.SampleMemory
import Z486.Gus.SampleRuns
import Z486.Gus.Megabyte
import Z486.Gus.ChipClock
import Z486.Gus.IoAccess
import Z486.Gus.BusAccess
import Z486.Video.DotclkCe
import Z486.Video.Scanlines
import Z486.Video.TvFrame
import Z486.Video.TvStore
import Z486.Video.TvPicture
import Z486.Video.TvReplay
import Z486.Video.TvStage
import Z486.Video.TvRaster
import Z486.Video.TvVsync
import Z486.Video.TvMeasure
import Z486.Video.TvConvert
import Z486.Video.DacOutput
import Z486.Video.DacPort
import Z486.Clocked.Pulse
import Z486.Clocked.Pointers
import Z486.Clocked.Reload
import Z486.Video.Raster
import Z486.Video.RasterFrame
import Z486.Video.RasterStart
import Z486.Video.LineAhead
import Z486.Video.FetchAddress
import Z486.Video.FetchFrame
import Z486.Video.NativeVideo
import Z486.Video.NativeSchedule
import Z486.Video.NativeFrame
import Z486.Video.Dots
import Z486.Video.Cells
import Z486.Video.Picture
import Z486.Video.Screen
import Z486.Video.Pixels
import Z486.Video.Chained
import Z486.Sound.Afifo
import Z486.Sound.OplHost
import Z486.Sound.Saa1099
import Z486.Sound.SaaSound
import Z486.Sound.SaaTones
import Z486.Sound.SaaEnvelope
import Z486.Gameport.Joystick
import Z486.Gameport.Axes
import Z486.Gameport.Grip
import Z486.Clocked.ReadModifyWrite
import Z486.Sound.OplPipeline
import Z486.Sound.OplPlays
import Z486.Sound.OplVoice
import Z486.Sound.OplOperators
import Z486.Sound.OplTurns
import Z486.Sound.OplSynth
import Z486.Sound.OplChannels
import Z486.Sound.OplSums
import Z486.Sound.OplSamples
import Z486.Sound.OplRegs
import Z486.Sound.OplTimers
