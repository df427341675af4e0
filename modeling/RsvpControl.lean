import RsvpControl.Core.Bytes
import RsvpControl.Core.Decimal
import RsvpControl.Core.Fields
import RsvpControl.Core.Simulation
import RsvpControl.Core.Substring
import RsvpControl.Core.Machine
import RsvpControl.Core.Heap
import RsvpControl.Core.Ring
import RsvpControl.Core.Files
import RsvpControl.Core.Population
import RsvpControl.Core.Checkpoints
import RsvpControl.Core.Inventory
import RsvpControl.Core.Locking
import RsvpControl.Core.Descriptors
import RsvpControl.Core.Progress
import RsvpControl.Core.Delimited
import RsvpControl.Server.Types
import RsvpControl.Server.CommandQueue
import RsvpControl.Server.QueueRefinement
import RsvpControl.Device.Libraries
import RsvpControl.Device.Control
import RsvpControl.Device.LedMirror
import RsvpControl.Device.Automation
import RsvpControl.Music.Playback
import RsvpControl.Music.SinglePlayback
import RsvpControl.Music.Notes
import RsvpControl.Music.Teardown
import RsvpControl.Segment.Countdown
import RsvpControl.Segment.Mirror
import RsvpControl.Segment.Stop
import RsvpControl.Segment.Display
import RsvpControl.Segment.Quiescence
import RsvpControl.Segment.Flags
import RsvpControl.Server.Requests
import RsvpControl.Server.Threads
import RsvpControl.Server.Sessions
import RsvpControl.Server.Ownership
import RsvpControl.Server.Mutex
import RsvpControl.Server.Timeouts
import RsvpControl.Server.Agreement
import RsvpControl.Server.Shutdown
import RsvpControl.Server.Wakeups
import RsvpControl.Server.Lifecycle
import RsvpControl.Server.WebServer
import RsvpControl.Server.Backpressure
import RsvpControl.Server.Camera
import RsvpControl.Server.SingleClient
import RsvpControl.Server.PidFile
import RsvpControl.Server.Starts
import RsvpControl.Server.FailedCommands
import RsvpControl.Server.Controller
import RsvpControl.Server.Protocol
import RsvpControl.Server.Progress
import RsvpControl.Locks.Functions
import RsvpControl.Locks.DeadlockFreedom
import RsvpControl.Rig.Threads
import RsvpControl.Rig.Playback
import RsvpControl.Rig.Countdown
import RsvpControl.Rig.Digits
import RsvpControl.Rig.Rest
import RsvpControl.Wire.Lines
import RsvpControl.Wire.Format
import RsvpControl.Wire.Recognition
import RsvpControl.Wire.Segmentation
import RsvpControl.Wire.Reading
import RsvpControl.Client.Run
import RsvpControl.Client.RoundTrip
import RsvpControl.Client.Console
import RsvpControl.Client.Messages
import RsvpControl.Client.Conversation
import RsvpControl.Client.Turns
import RsvpControl.Client.Deadlock
import RsvpControl.Client.Stream
import RsvpControl.Client.Texts
import RsvpControl.Client.PromptReads
import RsvpControl.Client.Orders
import RsvpControl.Client.Sizes
import RsvpControl.Client.Process
import RsvpControl.Client.Signals
import RsvpControl.Server.Resources
import RsvpControl.Detach.Daemonize
import RsvpControl.Detach.Family
