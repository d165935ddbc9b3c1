import RetroPark.Audio.Backlog
import RetroPark.Cores.LibretroShim.HwRenderGL
import RetroPark.Cores.LibretroShim.LibretroShim
import RetroPark.Cores.LibretroShim.Callbacks
import RetroPark.Cores.LibretroShim.Blinker
import RetroPark.Cores.LibretroShim.Screen
import RetroPark.Cores.LibretroShim.Contract
import RetroPark.Cores.LibretroShim.OptionJson
import RetroPark.Cores.LibretroShim.OptionStore
import RetroPark.Cores.LibretroShim.PixelConvert
import RetroPark.Cores.LibretroShim.ShimInput
import RetroPark.Cores.LibretroShim.Variables
import RetroPark.Cores.RefCoreRollback
import RetroPark.Cores.RefCoreVk
import RetroPark.Harness.LocalInput
import RetroPark.Net.Crc32.Serial
import RetroPark.Net.Handshake
import RetroPark.Net.Lockstep
import RetroPark.Net.Lockstep.Detection
import RetroPark.Net.Lockstep.Lead
import RetroPark.Net.Lockstep.Leftovers
import RetroPark.Net.Lockstep.LongDelay
import RetroPark.Net.Lockstep.Progress
import RetroPark.Net.Lockstep.Ticks
import RetroPark.Net.NetSession
import RetroPark.Net.Paused
import RetroPark.Net.Restart
import RetroPark.Net.Rollback.Checkpoints
import RetroPark.Net.Rollback.Convergence
import RetroPark.Net.Rollback.Desync
import RetroPark.Net.Rollback.GroundTruth
import RetroPark.Net.Rollback.Leftovers
import RetroPark.Net.Rollback.Peers
import RetroPark.Net.Rollback.Sound
import RetroPark.Net.Rollback.Window
import RetroPark.Net.RollbackPredict.WordScan
import RetroPark.Net.TcpMatch
import RetroPark.Net.TcpTransport
import RetroPark.Net.Wire
import RetroPark.Pad
import RetroPark.Render.D3D11.LostSlots
import RetroPark.Render.FramebufferCopy
import RetroPark.Render.Gl.LastFrame
import RetroPark.Render.Gl.ZeroCopy
import RetroPark.Render.RingThreads
import RetroPark.Render.Vulkan.Readback
import RetroPark.Render.Vulkan.Repeats
import RetroPark.Runtime.ContentFirst
import RetroPark.Runtime.Driven
import RetroPark.Runtime.FailedRewind
import RetroPark.Runtime.Frames
import RetroPark.Runtime.Lifecycle
import RetroPark.Runtime.LiveSurfaces
import RetroPark.Runtime.NewestSnapshot
import RetroPark.Runtime.Reboot
import RetroPark.Runtime.StaleFrames
import RetroPark.Runtime.TimeTravel
import RetroPark.Support.Dialogue
import RetroPark.Support.Duplex
import RetroPark.Support.Duplex.Calls
import RetroPark.Support.LittleEndian
import RetroPark.Support.Machine
import RetroPark.Support.OrderedMap
import RetroPark.Support.Program
import RetroPark.Support.Reader
import RetroPark.Support.Replay
import RetroPark.Support.ShiftRegister
