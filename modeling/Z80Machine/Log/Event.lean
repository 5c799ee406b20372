import Z80Machine.Clock.Mode
import Z80Machine.Instruction.Text
import Z80Machine.Log.Level

/-! Everything that is worth a log record, with its severity, its target and its wording. -/

namespace Z80Machine

inductive Release where
  | reset
  | interruptRequested
  | interruptServiced
  | halt
  | memoryEdited
  | portsEdited
  | clockChanged
  | disabled
  | thresholdChanged
  deriving DecidableEq, Repr

def Release.text : Release → String
  | reset => "reset"
  | interruptRequested => "interrupt requested"
  | interruptServiced => "interrupt serviced"
  | halt => "halt"
  | memoryEdited => "host memory access"
  | portsEdited => "host port access"
  | clockChanged => "clock mode changed"
  | disabled => "detection disabled"
  | thresholdChanged => "threshold changed"

inductive Event where
  | initialized (mode : ClockMode)
  | cpuReset
  | noProgress (steps : Nat) (pc : UInt16)
  | maskableDropped
  | clockSet (mode : ClockMode)
  | loopFound (start : UInt16) (length cycles : Nat)
  | loopReleased (start : UInt16) (why : Release)
  | burstDone (start : UInt16)
  | executed (instruction : Instruction) (before : Registers)
  | traceStopped (entries : Nat)
  | writeDropped
  | unknownOpcode (lead : Option UInt8) (opcode : UInt8) (address : UInt16)
  | pushWrapped (pc : UInt16)
  | popWrapped (pc : UInt16)
  | windowInverted (first past : UInt16)
  | imageStored (size : Nat) (address : UInt16) (crc : UInt32)
  | romWrite (addr : UInt16) (byte : UInt8)
  | unmappedRead (port : UInt8)
  | computerReady (mode : ClockMode) (frameRate : UInt32) (romSize : Nat)
  | peripheralAttached (name : String)
  | frameDone (count : Nat) (cycles : Nat)
  | computerReset
  | settingsAbsent
  | settingsRead (path : String)
  | entryChosen (name : String)
  | programRead (path : String) (size : Nat) (address : UInt16) (crc : UInt32)
  | pacingLost
  deriving Repr

namespace Event

def level : Event → Level
  | initialized _ => .debug
  | cpuReset => .debug
  | noProgress _ _ => .warn
  | maskableDropped => .trace
  | clockSet _ => .info
  | loopFound _ _ _ => .debug
  | loopReleased _ _ => .debug
  | burstDone _ => .trace
  | executed _ _ => .trace
  | traceStopped _ => .info
  | writeDropped => .warn
  | unknownOpcode _ _ _ => .warn
  | pushWrapped _ => .warn
  | popWrapped _ => .warn
  | windowInverted _ _ => .warn
  | imageStored _ _ _ => .debug
  | romWrite _ _ => .debug
  | unmappedRead _ => .trace
  | computerReady _ _ _ => .info
  | peripheralAttached _ => .debug
  | frameDone _ _ => .trace
  | computerReset => .info
  | settingsAbsent => .debug
  | settingsRead _ => .info
  | entryChosen _ => .debug
  | programRead _ _ _ _ => .info
  | pacingLost => .debug

def target : Event → String
  | windowInverted _ _ => "memory"
  | imageStored _ _ _ => "memory"
  | romWrite _ _ => "memory"
  | unmappedRead _ => "io"
  | computerReady _ _ _ => "machine"
  | peripheralAttached _ => "machine"
  | frameDone _ _ => "machine"
  | computerReset => "machine"
  | settingsAbsent => "frontend"
  | settingsRead _ => "frontend"
  | entryChosen _ => "frontend"
  | programRead _ _ _ _ => "frontend"
  | pacingLost => "frontend"
  | _ => "cpu"

def column (width : Nat) (text : String) : String :=
  text ++ String.ofList (List.replicate (width - text.length) ' ')

def executedText (i : Instruction) (r : Registers) : String :=
  Hex.word i.address ++ "  " ++ column 11 (" ".intercalate (i.raw.map Hex.byte)) ++ "  " ++
  column 18 i.op.text ++
  " AF=" ++ Hex.word r.af ++ " BC=" ++ Hex.word r.bc ++ " DE=" ++ Hex.word r.de ++ " HL=" ++ Hex.word r.hl ++
  " IX=" ++ Hex.word r.ix ++ " IY=" ++ Hex.word r.iy ++ " SP=" ++ Hex.word r.sp ++ " R=" ++ Hex.byte r.r

def text : Event → String
  | initialized mode => "initialized at " ++ mode.text
  | cpuReset => "reset"
  | noProgress steps pc =>
    "execution made no progress after " ++ toString steps ++ " steps at PC=" ++ Hex.word pc ++ ", giving up"
  | maskableDropped => "maskable request behind pending NMI dropped"
  | clockSet mode => "clock mode set to " ++ mode.text ++ " (" ++ toString mode.hertz ++ " Hz)"
  | loopFound start length cycles =>
    "idle loop detected at " ++ Hex.word start ++ ": " ++ toString length ++ " instructions, " ++
    toString cycles ++ " T per iteration"
  | loopReleased start why => "idle loop at " ++ Hex.word start ++ " released: " ++ why.text
  | burstDone start => "idle burst at " ++ Hex.word start ++ " done, re-verifying"
  | executed instruction before => executedText instruction before
  | traceStopped entries => "instruction trace stopped after " ++ toString entries ++ " entries"
  | writeDropped => "write to immediate operand dropped"
  | unknownOpcode lead opcode address =>
    let lead := match lead with
      | some b => Hex.byte b ++ " "
      | none => ""
    "unimplemented opcode " ++ lead ++ Hex.byte opcode ++ " at " ++ Hex.word address ++ ", treated as NOP"
  | pushWrapped pc => "stack pointer wrapped below 0000 on push at PC=" ++ Hex.word pc
  | popWrapped pc => "stack pointer wrapped past FFFF on pop at PC=" ++ Hex.word pc
  | windowInverted first past =>
    "video window " ++ Hex.word first ++ ".." ++ Hex.word past ++ " is inverted, using an empty window"
  | imageStored size address crc =>
    "loaded " ++ toString size ++ " bytes at " ++ Hex.word address ++ " (crc32 " ++ Hex.doubleWord crc ++ ")"
  | romWrite addr byte => "write of " ++ Hex.byte byte ++ " to ROM at " ++ Hex.word addr ++ " ignored"
  | unmappedRead port => "read from unmapped port " ++ Hex.byte port
  | computerReady mode frameRate romSize =>
    "Z80 system at " ++ mode.text ++ ", " ++ toString frameRate.toNat ++ " Hz video, ROM " ++
    toString romSize ++ " bytes"
  | peripheralAttached name => "attached peripheral " ++ name
  | frameDone count cycles => "frame " ++ toString count ++ ": " ++ toString cycles ++ " T"
  | computerReset => "reset"
  | settingsAbsent => "no settings file, using defaults"
  | settingsRead path => "settings loaded from " ++ path
  | entryChosen name => "using archive entry " ++ name
  | programRead path size address crc =>
    "loaded " ++ path ++ " (" ++ toString size ++ " bytes at " ++ Hex.word address ++ ", crc32 " ++
    Hex.doubleWord crc ++ ")"
  | pacingLost => "frame pacing fell behind, resyncing"

def line (e : Event) : String :=
  e.level.text ++ " " ++ e.target ++ ": " ++ e.text

end Event

end Z80Machine
