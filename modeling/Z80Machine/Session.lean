import Z80Machine.Archive
import Z80Machine.CommandLine
import Z80Machine.FileTree
import Z80Machine.Log.Filter
import Z80Machine.Summary

/-! A session: settings and a program are read, a machine is built, the program runs for some frames, and a summary is
made. What the session needs from outside it asks a host for. -/

namespace Z80Machine

structure Host (m : Type → Type) where
  read : String → m (Except String Opened)
  present : String → m Bool
  now : m Nat
  afterFrame : Bool → Computer Meter → m (Computer Meter)

def Host.ofFiles (files : List (String × List UInt8)) : Host Id where
  read path :=
    match FileTree.opened? { files } path with
    | some found => .ok found
    | none => .error "no such file"
  present path := (FileTree.opened? { files } path).isSome
  now := (0 : Nat)
  afterFrame _ c := c

inductive Failure where
  | logFilter (text : String)
  | file (path reason : String)
  | program (reason : String)
  | settings (path : String) (error : Settings.DocumentError)
  | archive (error : ArchiveError)
  | missing (what : Archive.Missing)
  | image (error : ImageError)
  | config (error : ConfigError)

def Failure.message : Failure → String
  | logFilter text => Filter.complaint text
  | file path reason => "I/O error on " ++ path ++ ": " ++ reason
  | program reason => "I/O error: " ++ reason
  | settings path error => "invalid settings in " ++ path ++ ": " ++ error.message
  | archive error => "invalid ZIP archive: " ++ error.message
  | missing what => what.message
  | image error => error.message
  | config error => error.message

namespace Session

abbrev Step (m : Type → Type) :=
  ExceptT Failure (StateT Log m)

variable {m : Type → Type} [Monad m]

def note (e : Event) : Step m Unit :=
  modify fun log => log.add e

def orFail {α ε : Type} (failure : ε → Failure) : Except ε α → Step m α
  | .ok a => pure a
  | .error e => throw (failure e)

def usualPath (directory : String) : String :=
  directory ++ "/quartz/settings.toml"

def bytesOf : Opened → Except String (List UInt8)
  | .file bytes => .ok bytes
  | .directory => .error "it is a directory"

def readSettings (host : Host m) (path : String) : Step m Settings := do
  let found ← host.read path
  let bytes ← orFail (.file path) (found.bind bytesOf)
  match String.fromUTF8? ⟨bytes.toArray⟩ with
  | none => throw (.file path "stream did not contain valid UTF-8")
  | some text =>
    let settings ← orFail (.settings path) (Settings.ofText text)
    note (.settingsRead path)
    return settings

def findSettings (host : Host m) (chosen usual : Option String) : Step m Settings := do
  match chosen, usual with
  | some path, _ => readSettings host path
  | none, some path =>
    if ← host.present path then readSettings host path
    else do
      note .settingsAbsent
      return {}
  | none, none => do
    note .settingsAbsent
    return {}

def chooseEntry (file : Array UInt8) (name : Option String) : Step m Archive.Entry := do
  let entries ← orFail .archive (Archive.entries file)
  match name with
  | some name => orFail .missing (Archive.named entries name)
  | none =>
    let found ← orFail .archive (Archive.firstFile? file entries)
    orFail .missing (found.elim (.error .files) .ok)

def readEntry (path : String) (file : Array UInt8) (name : Option String) : Step m (List UInt8) := do
  let entry ← chooseEntry file name
  let bytes ← orFail .archive (entry.bytes file)
  note (.entryChosen entry.name)
  if Crc32.ofBytes bytes = entry.crc then return bytes else throw (.file path "Invalid checksum")

def readProgram (host : Host m) (path : String) (entry : Option String) (address : UInt16) : Step m Image := do
  let found ← host.read path
  let bytes ←
    if Path.isArchive path then do
      match ← orFail (.file path) found with
      | .file bytes => readEntry path bytes.toArray entry
      | .directory => throw (.archive .unreadable)
    else orFail .program (found.bind bytesOf)
  let image ← orFail .image (Image.ofBytes bytes address)
  note (.programRead path image.size address image.crc)
  return image

def build (settings : Settings) : Step m (Computer Meter) := do
  let computer ← orFail .config (Computer.ofConfig settings.board settings.cpu (← get))
  set computer.cpu.log
  return computer

def frames (host : Host m) (realtime : Bool) (n : Nat) (c : Computer Meter) : m (Computer Meter) :=
  c.runPaced (host.afterFrame realtime) n

def perform (host : Host m) (usual : Option String) (program : String) (o : Options) : Step m Summary := do
  let settings := o.apply (← findSettings host o.config usual)
  let image ← readProgram host program o.entry settings.board.loadAddress
  match o.crc32 with
  | some expected => orFail .image (image.verify expected)
  | none => pure ()
  let computer := (← build settings).load image
  let started : Nat ← liftM host.now
  let after : Computer Meter ← liftM (frames host settings.run.realtime settings.run.frames computer)
  let ended : Nat ← liftM host.now
  set after.cpu.log
  return .ofRun settings.run.frames (ended - started) computer after

structure Ending where
  result : Except Failure Summary
  log : Log

def filterText (chosen environment : Option String) : String :=
  (chosen <|> environment).getD "info"

def run (host : Host m) (usual : Option String) (filter : Filter) (program : String) (o : Options) : m Ending := do
  let (result, log) ← ((perform host usual program o).run).run { gate := filter.maxGate }
  return { result, log }

end Session

end Z80Machine
