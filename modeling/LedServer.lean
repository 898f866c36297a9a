import LedServer.AtAlarm
import LedServer.AvrBuffer
import LedServer.AvrClock
import LedServer.AvrDecode
import LedServer.AvrDecodeFlow
import LedServer.AvrDecodeStatements
import LedServer.AvrDisplay
import LedServer.AvrDumps
import LedServer.AvrFont
import LedServer.AvrLink
import LedServer.AvrLinkFlow
import LedServer.AvrLoop
import LedServer.AvrMenu
import LedServer.AvrMode
import LedServer.AvrPicture
import LedServer.AvrPlaylist
import LedServer.AvrQuiet
import LedServer.AvrRing
import LedServer.AvrRingBulk
import LedServer.AvrRingContents
import LedServer.AvrRingFifo
import LedServer.AvrRotor
import LedServer.AvrScreen
import LedServer.AvrSignals
import LedServer.AvrState
import LedServer.AvrTells
import LedServer.AvrTimer
import LedServer.AvrTwi
import LedServer.AvrTwiQueue
import LedServer.BashStatus
import LedServer.BoundedFifo
import LedServer.ClockRun
import LedServer.ClockShown
import LedServer.ClosingTimer
import LedServer.Composed
import LedServer.ComposedChannels
import LedServer.ComposedFlow
import LedServer.Constant
import LedServer.ContentRun
import LedServer.CronTable
import LedServer.CronTicks
import LedServer.DecodeLeftover
import LedServer.DecodePreempted
import LedServer.DecodeStream
import LedServer.DisplayBits
import LedServer.EncodePreempted
import LedServer.FailedTransfer
import LedServer.FlushWindow
import LedServer.FontPending
import LedServer.FontSymbols
import LedServer.FrameReader
import LedServer.GlyphRow
import LedServer.HeartbeatLoss
import LedServer.InfoFlow
import LedServer.InfoGiven
import LedServer.Joined
import LedServer.JoinedColumns
import LedServer.JoinedFlow
import LedServer.LinkRoom
import LedServer.LoopTimers
import LedServer.Machine
import LedServer.McuGrammar
import LedServer.McuHandle
import LedServer.McuMessage
import LedServer.MenuCursor
import LedServer.MenuMode
import LedServer.MenuPanel
import LedServer.MenuSelect
import LedServer.MenuTag
import LedServer.MenuWish
import LedServer.Message
import LedServer.ModeConnected
import LedServer.PiContent
import LedServer.PiFont
import LedServer.PiHandle
import LedServer.PiHandleStep
import LedServer.PiLedArray
import LedServer.PiLoops
import LedServer.PiPopen
import LedServer.PiSplitInfo
import LedServer.PiStop
import LedServer.PictureReading
import LedServer.PictureRun
import LedServer.PlaylistBase
import LedServer.PopenLines
import LedServer.PortProgram
import LedServer.RegisterQueue
import LedServer.ReplyHold
import LedServer.RotorKnobs
import LedServer.RotorMirror
import LedServer.ScrollingText
import LedServer.Separated
import LedServer.SessionReset
import LedServer.SpiStream
import LedServer.StreamMachine
import LedServer.SuspendDrain
import LedServer.TimerPreempted
import LedServer.TopInfo
import LedServer.TwiPreempted
import LedServer.TwiSuccess
import LedServer.TwiTransaction
import LedServer.VerifySteps
import LedServer.WaitLoop
import LedServer.Whole
import LedServer.WindowScan
