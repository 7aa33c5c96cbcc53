import LibBun.Lib.LittleEndian
import LibBun.Lib.Region
import LibBun.Lib.Codec
import LibBun.Lib.Run
import LibBun.Lib.Places
import LibBun.Lib.BoundedList
import LibBun.Lib.Retry
import LibBun.Lib.Growing
import LibBun.Lib.Protocol
import LibBun.Lib.Text
import LibBun.Lib.Heap
import LibBun.Lib.Files
import LibBun.Host
import LibBun.Structs
import LibBun.Cursor
import LibBun.Frame
import LibBun.Buffer
import LibBun.Session
import LibBun.Tool
import LibBun.Waitpid
import LibBun.Backend
import LibBun.Backend.Libbacktrace
import LibBun.Backend.Libunwind
import LibBun.Backend.Libunwindstack
import LibBun.Handle
import LibBun.Print
import LibBun.Memfd
import LibBun.Program
import LibBun.Grammar
import LibBun.Feed
import LibBun.Race
import LibBun.Calls
import LibBun.Proof.Reader
import LibBun.Proof.Stream
import LibBun.Proof.ReaderRun
import LibBun.Proof.Accept
import LibBun.Proof.Opening
import LibBun.Proof.Emit
import LibBun.Proof.Writer
import LibBun.Proof.Live
import LibBun.Proof.Bounds
import LibBun.Proof.Accounting
import LibBun.Proof.Crash
import LibBun.Proof.RoundTrip
import LibBun.Proof.Copy
import LibBun.Proof.WriteOnce
import LibBun.Proof.Portable
import LibBun.Proof.Refused
import LibBun.Proof.AllOrNothing
import LibBun.Proof.Determined
import LibBun.Proof.Layout
import LibBun.Proof.Lengths
import LibBun.Proof.Widths
import LibBun.Proof.Declared
import LibBun.Proof.Metadata
import LibBun.Proof.Saved
import LibBun.Proof.Registers
import LibBun.Proof.Binding
import LibBun.Proof.Sizes
import LibBun.Proof.Waitpid
import LibBun.Proof.Tracing
import LibBun.Proof.Shown
import LibBun.Proof.Stale
import LibBun.Proof.Feed
import LibBun.Proof.Journal
import LibBun.Proof.Refinement
import LibBun.Proof.Delivery
import LibBun.Proof.Race
import LibBun.Proof.Broadcast
import LibBun.Proof.Until
import LibBun.Proof.Frames
import LibBun.Proof.Report
import LibBun.Proof.Handle
import LibBun.Proof.Print
import LibBun.Proof.Memfd
import LibBun.Proof.Program
