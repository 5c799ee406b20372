/-! Severities of log records, and the gate that lets through those up to one of them. -/

namespace Z80Machine

inductive Level where
  | error
  | warn
  | info
  | debug
  | trace
  deriving DecidableEq, Repr

namespace Level

def rank : Level → Nat
  | error => 1
  | warn => 2
  | info => 3
  | debug => 4
  | trace => 5

def text : Level → String
  | error => "ERROR"
  | warn => "WARN"
  | info => "INFO"
  | debug => "DEBUG"
  | trace => "TRACE"

def ofText? (s : String) : Option Level :=
  [error, warn, info, debug, trace].find? fun level => level.text == s

end Level

inductive Gate where
  | off
  | upTo (level : Level)
  deriving DecidableEq, Repr

namespace Gate

def rank : Gate → Nat
  | off => 0
  | upTo level => level.rank

def text : Gate → String
  | off => "OFF"
  | upTo level => level.text

def admits (g : Gate) (level : Level) : Bool :=
  level.rank ≤ g.rank

def max (g g' : Gate) : Gate :=
  if g.rank < g'.rank then g' else g

end Gate

end Z80Machine
