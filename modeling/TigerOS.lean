import TigerOS.Foundation.Machine
import TigerOS.Foundation.LinkedChain
import TigerOS.Foundation.Range
import TigerOS.Foundation.CString
import TigerOS.Foundation.Strike
import TigerOS.Otfs.Image
import TigerOS.Otfs.Layout
import TigerOS.Otfs.Handle
import TigerOS.Otfs.Api
import TigerOS.Otfs.Chain
import TigerOS.Foundation.Loop
import TigerOS.Otfs.ChainWalk
import TigerOS.Otfs.Content
import TigerOS.Otfs.Extension
import TigerOS.Otfs.Transfer
import TigerOS.Otfs.Effects
import TigerOS.Otfs.Mount
import TigerOS.Otfs.Invariant
import TigerOS.Otfs.Step
import TigerOS.Otfs.Reachable
import TigerOS.Otfs.Remount
import TigerOS.Otfs.FileMap
import TigerOS.Otfs.Accepted
import TigerOS.Otfs.Faults
import TigerOS.Otfs.Isolation
import TigerOS.Otfs.View
import TigerOS.Otfs.FailedOpen
import TigerOS.Otfs.FailedWrite
import TigerOS.Otfs.Struck
import TigerOS.Otfs.WriteFaults
import TigerOS.Otfs.Space
import TigerOS.Otfs.Drive
import TigerOS.Otfs.Volume
import TigerOS.Otfs.VolumeRefinement
import TigerOS.Foundation.NamedTree
import TigerOS.Foundation.Ascending
import TigerOS.Path.Normalize
import TigerOS.Path.NormalForm
import TigerOS.Path.Canonical
import TigerOS.Path.Laws
import TigerOS.Dir.Tree
import TigerOS.Dir.Shape
import TigerOS.Dir.Growth
import TigerOS.Dir.Paths
import TigerOS.Dir.Make
import TigerOS.Dir.Refinement
import TigerOS.Dir.WorkingDirectory
import TigerOS.Dir.RelativeSteps
import TigerOS.Dir.PartialMake
import TigerOS.Dir.Listings
import TigerOS.Shell.PathState
import TigerOS.Shell.Store
import TigerOS.Shell.Contents
import TigerOS.Shell.Listing
import TigerOS.Shell.FailedWrite
import TigerOS.Shell.Counting
import TigerOS.Shell.Words
import TigerOS.Shell.Isolation
import TigerOS.Shell.Pipes
import TigerOS.Foundation.Bitmap
import TigerOS.Mm.PageAlloc
import TigerOS.Mm.Scan
import TigerOS.Mm.ManagedRange
import TigerOS.Mm.Accounting
import TigerOS.Mm.LowestFirst
import TigerOS.Shell.Parser
import TigerOS.Shell.Tokens
import TigerOS.Shell.Parsing
import TigerOS.Shell.Grammar
import TigerOS.Shell.Exec
import TigerOS.Shell.Redirection
import TigerOS.Foundation.Ring
import TigerOS.Foundation.Recent
import TigerOS.Foundation.Lookup
import TigerOS.Foundation.Isolation
import TigerOS.Shell.LineParser
import TigerOS.Console.Output
import TigerOS.Shell.LineIo
import TigerOS.Shell.LineInput
import TigerOS.Shell.Run
import TigerOS.Wm.Window
import TigerOS.Wm.Scene
import TigerOS.Gfx.Framebuffer
import TigerOS.Gfx.Drawing
import TigerOS.Gfx.Painting
import TigerOS.Wm.Render
import TigerOS.Wm.Stack
import TigerOS.Wm.Layers
import TigerOS.Input.Keyboard
import TigerOS.Input.KeyboardQueue
import TigerOS.Input.Decoder
import TigerOS.Tty.Session
import TigerOS.Tty.Contexts
import TigerOS.Tty.WorkingDirectory
import TigerOS.Tty.Desktop
import TigerOS.Tty.Routing
import TigerOS.Tty.FailedAttach
import TigerOS.Tty.History
import TigerOS.Tty.LineEditor
import TigerOS.Tty.Typing
import TigerOS.Wm.Geometry
import TigerOS.Wm.Decomposition
import TigerOS.Wm.Visibility
import TigerOS.Input.Mouse
import TigerOS.Wm.Drag
import TigerOS.Wm.DragSteps
import TigerOS.Wm.DragSafety
import TigerOS.Wm.StackFocus
import TigerOS.Apps.AppWindow
import TigerOS.Apps.EventRouting
import TigerOS.Apps.FailedOpen
import TigerOS.Foundation.Fifo
import TigerOS.Input.Queues
import TigerOS.Foundation.Climb
import TigerOS.Foundation.Pieces
import TigerOS.Foundation.Turns
import TigerOS.Foundation.CircularScan
import TigerOS.Foundation.Progression
import TigerOS.Sched.Clock
import TigerOS.Sched.Task
import TigerOS.Sched.RoundRobin
import TigerOS.Sched.Fairness
import TigerOS.Foundation.Assembly
import TigerOS.Trap.Handle
import TigerOS.Trap.Vector
import TigerOS.Wm.DragPath
import TigerOS.Tty.Clicks
import TigerOS.Gfx.TestPattern
import TigerOS.Wm.Frames
import TigerOS.Shell.Printing
