import VT7.Adapter.ChangedAttributes
import VT7.Adapter.ClearedScrollback
import VT7.Adapter.CopiedAreas
import VT7.Adapter.CopiedPages
import VT7.Adapter.CopiedRows
import VT7.Adapter.CursorMoves
import VT7.Adapter.CursorRestore
import VT7.Adapter.Dispatched
import VT7.Adapter.EmptyCopies
import VT7.Adapter.FeedForms
import VT7.Adapter.FontBuffer
import VT7.Adapter.GraphicsOptions
import VT7.Adapter.Invocations
import VT7.Adapter.InvokedStrings
import VT7.Adapter.LineFeeds
import VT7.Adapter.MacroBuffer
import VT7.Adapter.MacroDefinition
import VT7.Adapter.MacroText
import VT7.Adapter.Macros
import VT7.Adapter.MarginBoxes
import VT7.Adapter.Margins
import VT7.Adapter.PageScrolls
import VT7.Adapter.Pages
import VT7.Adapter.PrintStalls
import VT7.Adapter.PrintedText
import VT7.Adapter.RectAreas
import VT7.Adapter.ScrollForms
import VT7.Adapter.ScrollMargins
import VT7.Adapter.ScrollRects
import VT7.Adapter.ScrolledRenditions
import VT7.Adapter.ScrolledRows
import VT7.Adapter.SoftFonts
import VT7.Adapter.TabReports
import VT7.Adapter.TabStops
import VT7.Adapter.Transfers
import VT7.Adapter.WholeRows
import VT7.Adapter.WrittenRows
import VT7.Buffer.Areas
import VT7.Buffer.CellStrips
import VT7.Buffer.CharColumns
import VT7.Buffer.ClusterPath
import VT7.Buffer.CopyLoop
import VT7.Buffer.FastPath
import VT7.Buffer.FillLoop
import VT7.Buffer.Fills
import VT7.Buffer.FitText
import VT7.Buffer.GlyphMoves
import VT7.Buffer.GlyphRuns
import VT7.Buffer.Glyphs
import VT7.Buffer.Renditions
import VT7.Buffer.Returns
import VT7.Buffer.Rle
import VT7.Buffer.RleEdits
import VT7.Buffer.RleIterator
import VT7.Buffer.RleReplace
import VT7.Buffer.Row
import VT7.Buffer.RowCopy
import VT7.Buffer.RowForms
import VT7.Buffer.RowInit
import VT7.Buffer.RowLayout
import VT7.Buffer.RowReplace
import VT7.Buffer.RowRuns
import VT7.Buffer.RowText
import VT7.Buffer.RowWrite
import VT7.Buffer.Scrollback
import VT7.Buffer.Stalls
import VT7.Buffer.TextBuffer
import VT7.Buffer.TextWrites
import VT7.Buffer.Words
import VT7.Buffer.WrittenText
import VT7.Dotnet.Text
import VT7.Dotnet.Unicode
import VT7.KnownHosts.AddedRemoved
import VT7.KnownHosts.Addition
import VT7.KnownHosts.Endpoints
import VT7.KnownHosts.Evidence
import VT7.KnownHosts.FailedAdd
import VT7.KnownHosts.Frame
import VT7.KnownHosts.Globs
import VT7.KnownHosts.Identity
import VT7.KnownHosts.Keys
import VT7.KnownHosts.Lossless
import VT7.KnownHosts.LostUpdate
import VT7.KnownHosts.Malformed
import VT7.KnownHosts.Matcher
import VT7.KnownHosts.Order
import VT7.KnownHosts.Parser
import VT7.KnownHosts.Policy
import VT7.KnownHosts.Removal
import VT7.KnownHosts.Resolver
import VT7.KnownHosts.Retained
import VT7.KnownHosts.Store
import VT7.KnownHosts.Verdict
import VT7.KnownHosts.Writer
import VT7.KnownHosts.Writers
import VT7.Lib.Arguments
import VT7.Lib.Base64
import VT7.Lib.BitUpdates
import VT7.Lib.Cells
import VT7.Lib.Courier
import VT7.Lib.Filling
import VT7.Lib.Glob
import VT7.Lib.Lanes
import VT7.Lib.Lines
import VT7.Lib.Permits
import VT7.Lib.RingStack
import VT7.Lib.Run
import VT7.Lib.RunLength
import VT7.Lib.Spans
import VT7.Lib.Stops
import VT7.Lib.Tiling
import VT7.Lib.Utf8
import VT7.Lib.Wire
import VT7.Native.ParsedOutput
import VT7.Native.StreamCuts
import VT7.Native.U8u16
import VT7.Native.Utf8Stream
import VT7.Parser.Base64
import VT7.Parser.Chunks
import VT7.Parser.ControlSearch
import VT7.Parser.CsiGrammar
import VT7.Parser.DataStrings
import VT7.Parser.DcsHeaders
import VT7.Parser.Dispatches
import VT7.Parser.Events
import VT7.Parser.Parameters
import VT7.Parser.Reached
import VT7.Parser.StateMachine
import VT7.Renderer.FontFallback
import VT7.Session.Barrier
import VT7.Session.Coordinator
import VT7.Session.Document
import VT7.Session.Gating
import VT7.Session.Outbound
import VT7.Session.Output
import VT7.Session.OverlaySteps
import VT7.Session.Owner
import VT7.Session.Pump
import VT7.Session.PumpDelivery
import VT7.Session.PumpProgress
import VT7.Session.Recognition
import VT7.Session.Recovery
import VT7.Session.Replies
import VT7.Session.ReplyQueue
import VT7.Session.SessionQueues
import VT7.Session.TerminalSession
import VT7.Shim.Agreement
import VT7.Shim.Broker
import VT7.Shim.CommandLine
import VT7.Shim.Environment
import VT7.Shim.Fallback
import VT7.Shim.Frames
import VT7.Shim.Freshness
import VT7.Shim.Grammar
import VT7.Shim.Handshake
import VT7.Shim.Protocol
import VT7.Shim.RunShim
import VT7.Ssh.Deadline
import VT7.Ssh.DeadlineRuns
import VT7.Ssh.Transport
import VT7.Ssh.Verified
import VT7.Types.ColorSpec
import VT7.Types.ExclusiveWalks
import VT7.Types.PasteFilter
import VT7.Types.SgrStack
import VT7.Types.Viewport
