import Z80Machine.Session

/-! The program: reads its arguments, runs a session on the files and the clock of the system, and prints. -/

namespace Z80Machine.Program

def usageText : String :=
  "Usage: quartz [OPTIONS] <PROGRAM>\n\n" ++
  "Run a Z80 program headless and report what it did.\n\n" ++
  "  --config <FILE>           settings file\n" ++
  "  --entry <NAME>            archive entry to load when PROGRAM is a ZIP archive\n" ++
  "  --frames <N>              frames to run\n" ++
  "  --clock <MODE>            CPU clock: 4mhz or 8mhz\n" ++
  "  --load-address <HEX>      load address\n" ++
  "  --crc32 <HEX>             fail unless the program has this checksum\n" ++
  "  --realtime                hold each frame to the video refresh period\n" ++
  "  --no-idle                 run idle loops instruction by instruction\n" ++
  "  --trace <N>               trace up to N instructions\n" ++
  "  --log-level <FILTER>      log filter, such as info or warn,cpu=debug\n" ++
  "  -h, --help                print this help\n" ++
  "  -V, --version             print the version"

def printLog (filter : Filter) (started : Nat) (events : Array Event) : IO Unit := do
  let seconds := Summary.seconds ((← IO.monoNanosNow) - started)
  for e in events do
    if (filter.levelFor e.target).admits e.level then
      let time := Decimal.fixed 3 seconds
      let time := String.ofList (List.replicate (9 - time.length) ' ') ++ time
      IO.eprintln ("[" ++ time ++ "s " ++ Event.column 5 e.level.text ++ " " ++ e.target ++ "] " ++ e.text)

def afterFrame (filter : Filter) (started : Nat) (due : IO.Ref Nat) (realtime : Bool) (c : Computer Meter) :
    IO (Computer Meter) := do
  let (events, log) := c.cpu.log.drain
  printLog filter started events
  if !realtime then return { c with cpu := { c.cpu with log } }
  let period := 1000000000 / max c.config.frameRate.toNat 1
  let next := (← due.get) + period
  let now ← IO.monoNanosNow
  if now < next then
    due.set next
    IO.sleep (UInt32.ofNat ((next - now) / 1000000))
    return { c with cpu := { c.cpu with log } }
  else if 4 * period < now - next then
    due.set now
    return { c with cpu := { c.cpu with log := log.add .pacingLost } }
  else
    due.set next
    return { c with cpu := { c.cpu with log } }

def readFile (path : String) : IO (Except String Opened) := do
  try
    let bytes ← IO.FS.readBinFile path
    return .ok (.file bytes.toList)
  catch
    | .inappropriateType none _ _ => return .ok .directory
    | e => return .error (toString e)

def isPresent (path : String) : IO Bool := do
  try
    let _ ← IO.FS.Handle.mk path .read
    return true
  catch
    | .noFileOrDirectory .. => return false
    | .inappropriateType .. => return false
    | _ => return true

def settingsDirectory : IO (Option String) := do
  match ← IO.getEnv "XDG_CONFIG_HOME" with
  | some path => if path.startsWith "/" then return some path
  | none => pure ()
  return (← IO.getEnv "HOME").map (· ++ "/.config")

def runSession (program : String) (o : Options) : IO UInt32 := do
  let text := Session.filterText o.logLevel (← IO.getEnv "RUST_LOG")
  match Filter.ofText? text with
  | none =>
    IO.eprintln ("Error: " ++ (Failure.logFilter text).message)
    return 1
  | some filter =>
    let started ← IO.monoNanosNow
    let due ← IO.mkRef started
    let host : Host IO := {
      read := readFile
      present := isPresent
      now := do
        let now ← IO.monoNanosNow
        due.set now
        return now
      afterFrame := afterFrame filter started due }
    let ending ← Session.run host ((← settingsDirectory).map Session.usualPath) filter program o
    printLog filter started ending.log.events
    match ending.result with
    | .ok summary =>
      IO.println summary.text
      return 0
    | .error failure =>
      IO.eprintln ("Error: " ++ failure.message)
      return 1

def start (args : List String) : IO UInt32 := do
  match CommandLine.parse args with
  | .ok (program, options) => runSession program options
  | .error .help =>
    IO.println usageText
    return 0
  | .error .version =>
    IO.println "quartz 0.1.0"
    return 0
  | .error (.usage e) =>
    IO.eprintln ("error: " ++ e.message ++ "\n\n" ++ usageText)
    return 2

end Z80Machine.Program

def main (args : List String) : IO UInt32 :=
  Z80Machine.Program.start args
