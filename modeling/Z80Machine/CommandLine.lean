import Z80Machine.Config.Error
import Z80Machine.Settings
import Z80Machine.Text.Number

/-! The command line: the program to run, and options that stand above the settings. -/

namespace Z80Machine

inductive Switch where
  | config
  | entry
  | frames
  | clock
  | loadAddress
  | crc32
  | realtime
  | noIdle
  | trace
  | logLevel
  deriving DecidableEq, Repr

namespace Switch

def all : List Switch :=
  [config, entry, frames, clock, loadAddress, crc32, realtime, noIdle, trace, logLevel]

def text : Switch → String
  | config => "config"
  | entry => "entry"
  | frames => "frames"
  | clock => "clock"
  | loadAddress => "load-address"
  | crc32 => "crc32"
  | realtime => "realtime"
  | noIdle => "no-idle"
  | trace => "trace"
  | logLevel => "log-level"

def takesValue : Switch → Bool
  | realtime => false
  | noIdle => false
  | _ => true

def ofText? (s : String) : Option Switch :=
  all.find? fun o => o.text == s

end Switch

structure Options where
  program : Option String := none
  config : Option String := none
  entry : Option String := none
  frames : Option Nat := none
  clock : Option ClockMode := none
  loadAddress : Option UInt16 := none
  crc32 : Option UInt32 := none
  realtime : Bool := false
  noIdle : Bool := false
  trace : Option Nat := none
  logLevel : Option String := none
  deriving DecidableEq, Repr

inductive UsageError where
  | unknown (argument : String)
  | extra (argument : String)
  | repeated (switch : Switch)
  | valueMissing (switch : Switch)
  | valueUnexpected (switch : Switch)
  | valueInvalid (switch : Switch) (text : String)
  | programMissing
  deriving DecidableEq, Repr

inductive Stop where
  | help
  | version
  | usage (error : UsageError)
  deriving DecidableEq, Repr

namespace UsageError

def message : UsageError → String
  | unknown argument => "unknown argument " ++ Text.quoted argument
  | extra argument => "unexpected argument " ++ Text.quoted argument
  | repeated switch => "--" ++ switch.text ++ " is given twice"
  | valueMissing switch => "--" ++ switch.text ++ " needs a value"
  | valueUnexpected switch => "--" ++ switch.text ++ " takes no value"
  | valueInvalid switch text => "invalid value " ++ Text.quoted text ++ " for --" ++ switch.text
  | programMissing => "no program is given"

end UsageError

namespace CommandLine

def address (s : String) : Except Text.NumberError UInt16 := do
  return UInt16.ofNat (← Text.readHex UInt16.size s.toList)

def checksum (s : String) : Except Text.NumberError UInt32 := do
  return UInt32.ofNat (← Text.readHex UInt32.size s.toList)

def complaint (what text : String) (e : Text.NumberError) : String :=
  "invalid " ++ what ++ " " ++ Text.quoted text ++ ": " ++ e.message

def count? (s : String) : Option Nat :=
  (Text.readNumber 10 UInt64.size s.toList).toOption

end CommandLine

namespace Options

def set? (o : Options) (value : String) : Switch → Option Options
  | .config => if value.isEmpty then none else some { o with config := some value }
  | .entry => some { o with entry := some value }
  | .frames => (CommandLine.count? value).map fun n => { o with frames := some n }
  | .clock => (ClockMode.parse value).toOption.map fun mode => { o with clock := some mode }
  | .loadAddress => (CommandLine.address value).toOption.map fun a => { o with loadAddress := some a }
  | .crc32 => (CommandLine.checksum value).toOption.map fun c => { o with crc32 := some c }
  | .realtime => some { o with realtime := true }
  | .noIdle => some { o with noIdle := true }
  | .trace => (CommandLine.count? value).map fun n => { o with trace := some n }
  | .logLevel => some { o with logLevel := some value }

def apply (o : Options) (s : Settings) : Settings :=
  { cpu := { s.cpu with
      clockMode := o.clock.getD s.cpu.clockMode
      idle := { s.cpu.idle with enabled := s.cpu.idle.enabled && !o.noIdle }
      trace := match o.trace with
        | some maxEntries => { enabled := true, maxEntries }
        | none => s.cpu.trace }
    board := { s.board with loadAddress := o.loadAddress.getD s.board.loadAddress }
    run := { frames := o.frames.getD s.run.frames, realtime := s.run.realtime || o.realtime } }

end Options

namespace CommandLine

inductive Argument where
  | divider
  | long (name : String) (value : Option String)
  | short (letter : Char)
  | operand
  deriving DecidableEq, Repr

def Argument.ofText (s : String) : Argument :=
  match s.toList with
  | ['-', '-'] => .divider
  | '-' :: '-' :: rest =>
    match Text.cut? '=' rest with
    | some (name, value) => .long (String.ofList name) (some (String.ofList value))
    | none => .long (String.ofList rest) none
  | '-' :: c :: _ => .short c
  | _ => .operand

structure Progress where
  options : Options := {}
  seen : List Switch := []

namespace Progress

def operand (p : Progress) (s : String) : Except Stop Progress :=
  if p.options.program.isSome then .error (.usage (.extra s))
  else if s.isEmpty then .error (.usage .programMissing)
  else .ok { p with options := { p.options with program := some s } }

def switch (p : Progress) (o : Switch) (value : String) : Except Stop Progress :=
  if o ∈ p.seen then .error (.usage (.repeated o))
  else match p.options.set? value o with
    | some options => .ok { options, seen := o :: p.seen }
    | none => .error (.usage (.valueInvalid o value))

end Progress

def arguments (p : Progress) : List String → Except Stop Progress
  | [] => .ok p
  | arg :: rest =>
    match Argument.ofText arg with
    | .divider => rest.foldlM Progress.operand p
    | .operand => do arguments (← p.operand arg) rest
    | .short 'h' => .error .help
    | .short 'V' => .error .version
    | .short _ => .error (.usage (.unknown arg))
    | .long "help" none => .error .help
    | .long "version" none => .error .version
    | .long name value =>
      match Switch.ofText? name with
      | none => .error (.usage (.unknown arg))
      | some o =>
        match o.takesValue, value with
        | true, some text => do arguments (← p.switch o text) rest
        | false, some _ => .error (.usage (.valueUnexpected o))
        | false, none => do arguments (← p.switch o "") rest
        | true, none =>
          match rest with
          | [] => .error (.usage (.valueMissing o))
          | text :: rest =>
            if Argument.ofText text = .operand then do arguments (← p.switch o text) rest
            else .error (.usage (.valueMissing o))

def parse (args : List String) : Except Stop (String × Options) := do
  let p ← arguments {} args
  match p.options.program with
  | some program => return (program, p.options)
  | none => .error (.usage .programMissing)

end CommandLine

end Z80Machine
