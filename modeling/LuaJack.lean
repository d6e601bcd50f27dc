import LuaJack.Ringbuffer.Decode
import LuaJack.Ringbuffer.Narrowing
import LuaJack.Rbuf.Wakeup
import LuaJack.Rbuf.Readiness
import LuaJack.Rbuf.Interchange
import LuaJack.Evt.Wakeup
import LuaJack.Object.Active
import LuaJack.Object.Descriptors
import LuaJack.Object.Exit
import LuaJack.Callback.Translation
import LuaJack.Callback.InOrder
import LuaJack.Callback.Refusal
import LuaJack.Callback.Loading
import LuaJack.Midi.RoundTrip
import LuaJack.Buffer.Retrieval
import LuaJack.RealTime.Height
import LuaJack.RealTime.Cleanup
import LuaJack.Buffer.Cursor
import LuaJack.Buffer.Space
import LuaJack.Buffer.Arguments
import LuaJack.Object.Xmove
import LuaJack.Thread.Lifetime
import LuaJack.Thread.Wakeup
import LuaJack.RealTime.Samples
import LuaJack.Midi.Status
import LuaJack.Midi.Ranges
import LuaJack.RealTime.Statistics
import LuaJack.Recognition
import LuaJack.Transport.RoundTrip
import LuaJack.Errors.ExitStatus
import LuaJack.Getopt.History
import LuaJack.RedBlack.Tree
import LuaJack.RedBlack.Balance
import LuaJack.RedBlack.Mend
import LuaJack.RedBlack.Refill
import LuaJack.RedBlack.Macros
import LuaJack.Contents
import LuaJack.RedBlack.Layout
import LuaJack.RedBlack.Steps
import LuaJack.RedBlack.InsertColor
import LuaJack.RedBlack.Lookup
import LuaJack.RedBlack.Insert
import LuaJack.RedBlack.RemoveColor
import LuaJack.RedBlack.Remove
import LuaJack.Database.Nodes
import LuaJack.Database.Runs
import LuaJack.SimpleQueue
import LuaJack.Database.Ports
import LuaJack.Database.Objects
import LuaJack.Database.Teardown
import LuaJack.Database.Life
import LuaJack.Atomic.Simulation
import LuaJack.Errors.Overrun
import LuaJack.RealTime.Outside
import LuaJack.RealTime.Alone
