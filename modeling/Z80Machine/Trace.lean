import Z80Machine.Config
import Z80Machine.Log

/-! The instruction trace: a log record for each instruction, up to a limit at which it turns itself off. -/

namespace Z80Machine

structure Trace where
  enabled : Bool
  maxEntries : Nat
  emitted : Nat := 0
  deriving DecidableEq, Repr

namespace Trace

def ofConfig (c : TraceConfig) : Trace where
  enabled := c.enabled
  maxEntries := c.maxEntries

def record (t : Trace) (i : Instruction) (before : Registers) : Logged Trace :=
  if !t.enabled then { value := t }
  else if t.maxEntries ≤ t.emitted then
    { value := { t with enabled := false }, events := [.traceStopped t.emitted] }
  else { value := { t with emitted := t.emitted + 1 }, events := [.executed i before] }

end Trace

end Z80Machine
