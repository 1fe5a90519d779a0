import VDebugger.Repl.RoundTrip
import VDebugger.Handlers.Tokens
import VDebugger.DwarfInfo.Lines
import VDebugger.Machine.Overlay
import VDebugger.Breakpoint.Pair
import VDebugger.Breakpoint.Reenable
import VDebugger.Next.Cleanup
import VDebugger.Command.Rewind
import VDebugger.Breakpoint.Transparency
import VDebugger.Finish.Inserted
import VDebugger.Finish.Caller
import VDebugger.Command.Absent
import VDebugger.Breakpoint.Failure
import VDebugger.LocExpr
import VDebugger.LocExpr.Bounds
import VDebugger.LocExpr.Straight
import VDebugger.LocExpr.Termination
import VDebugger.Var.Tokens
import VDebugger.Handlers.Looks
import VDebugger.Handlers.Atomic
import VDebugger.Detach
import VDebugger.Next.Boundary
import VDebugger.Handlers.Session
import VDebugger.LocExpr.Passes
import VDebugger.LocExpr.Shifts
import VDebugger.LocExpr.Deref
import VDebugger.LocExpr.RegisterOps
import VDebugger.LocExpr.Traps
import VDebugger.LocExpr.Locations
import VDebugger.DwarfInfo.Search
import VDebugger.DwarfInfo.SourceLine
import VDebugger.Handlers.Step
import VDebugger.Var.Implicit
import VDebugger.Var.Integers
import VDebugger.DwarfInfo.Cursor
import VDebugger.DwarfInfo.SubProg
import VDebugger.Var.Walk
import VDebugger.Var.Scope
import VDebugger.Var.Members
import VDebugger.Var.Offsets
import VDebugger.Var.Constants
import VDebugger.Machine.Terminated
import VDebugger.Var.Buffer
import VDebugger.Var.Struct
import VDebugger.Breakpoint.Map
import VDebugger.Var.Children
import VDebugger.Cmdline.Bounds
import VDebugger.Cmdline.Refine
import VDebugger.Repl.Delivered
import VDebugger.Repl.Oversized
import VDebugger.Handlers.Buffer
import VDebugger.Handlers.Numerals
import VDebugger.Handlers.Register
import VDebugger.Handlers.Grammar
import VDebugger.Handlers.WriteRead
import VDebugger.Machine.Cycles
import VDebugger.Var.Recursion
import VDebugger.Var.Capacity
import VDebugger.Handlers.Mappings
import VDebugger.Handlers.Terminal
import VDebugger.Machine.Contract
import VDebugger.Ptrace.Protocol
import VDebugger.Command.Order
import VDebugger.Machine.Output
import VDebugger.Var.Params
import VDebugger.Handlers.Backtrace
import VDebugger.Handlers.Inspect
import VDebugger.Handlers.Protocol
import VDebugger.Machine.Handles
import VDebugger.Var.Lifetimes
import VDebugger.Var.Found
import VDebugger.Command.Alongside
import VDebugger.Handlers.Erased
import VDebugger.Handlers.SourceStop
import VDebugger.Var.Shown
import VDebugger.Breakpoint.Agreement
import VDebugger.Handlers.LoadAddress
