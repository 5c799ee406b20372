import Z80Machine.Archive.Extra

/-! The directory of a ZIP archive, and its end. The end is searched from behind. It says where the directory starts;
something may stand in front of the archive, and then everything lies further behind than the end says. -/

namespace Z80Machine.Archive

def entryMark : List UInt8 :=
  [0x50, 0x4B, 0x01, 0x02]

def endMark : List UInt8 :=
  [0x50, 0x4B, 0x05, 0x06]

def wideEndMark : List UInt8 :=
  [0x50, 0x4B, 0x06, 0x06]

def locatorMark : List UInt8 :=
  [0x50, 0x4B, 0x06, 0x07]

structure Directory where
  disk : Nat
  directoryDisk : Nat
  entries : Nat
  first : Nat
  shift : Nat
  deriving DecidableEq, Repr

def Directory.start (d : Directory) : Nat :=
  d.first + d.shift

structure Ending where
  place : Nat
  disk : Nat
  directoryDisk : Nat
  entries : Nat
  total : Nat
  first : Nat
  deriving DecidableEq, Repr

def Ending.at? (file : Array UInt8) (place : Nat) : Option Ending := do
  if !marked file place endMark then none
  let comment ← number? file (place + 20) 2
  if place + 22 + comment > file.size then none
  return {
    place
    disk := ← number? file (place + 4) 2
    directoryDisk := ← number? file (place + 6) 2
    entries := ← number? file (place + 8) 2
    total := ← number? file (place + 10) 2
    first := ← number? file (place + 16) 4 }

def Ending.directory? (e : Ending) (file : Array UInt8) : Option Directory := do
  let shift ←
    if e.total = 0 then some (e.place - e.first)
    else (List.range (e.place - e.first)).find? fun k => marked file (e.first + k) entryMark
  return { e with shift }

structure WideEnding where
  place : Nat
  size : Nat
  madeBy : Nat
  needed : Nat
  disk : Nat
  directoryDisk : Nat
  entries : Nat
  total : Nat
  first : Nat
  deriving DecidableEq, Repr

def WideEnding.at? (file : Array UInt8) (place : Nat) : Option WideEnding := do
  if !marked file place wideEndMark then none
  return {
    place
    size := ← number? file (place + 4) 8
    madeBy := ← number? file (place + 12) 2
    needed := ← number? file (place + 14) 2
    disk := ← number? file (place + 16) 4
    directoryDisk := ← number? file (place + 20) 4
    entries := ← number? file (place + 24) 8
    total := ← number? file (place + 32) 8
    first := ← number? file (place + 48) 8 }

structure Locator where
  place : Nat
  directoryDisk : Nat
  wideEnd : Nat
  disks : Nat
  deriving DecidableEq, Repr

def Locator.before? (file : Array UInt8) (e : Ending) : Option Locator := do
  if e.place < 20 then none
  let place := e.place - 20
  if !marked file place locatorMark then none
  return {
    place
    directoryDisk := ← number? file (place + 4) 4
    wideEnd := ← number? file (place + 8) 8
    disks := ← number? file (place + 16) 4 }

def Locator.suits (l : Locator) (w : WideEnding) : Bool :=
  w.directoryDisk == l.directoryDisk && 44 ≤ w.size && w.place + 12 + w.size == l.place &&
  w.first + 46 * w.total ≤ w.place

def Locator.directory? (l : Locator) (file : Array UInt8) : Option Directory := do
  if l.disks > 1 then none
  let w ← (List.range (l.place - l.wideEnd)).findSome? fun k =>
    (WideEnding.at? file (l.wideEnd + k)).filter l.suits
  if w.entries > w.total || w.needed > w.madeBy then none
  return { w with entries := w.total, shift := w.place - l.wideEnd }

def directoryAt? (file : Array UInt8) (place : Nat) : Option Directory := do
  let e ← Ending.at? file place
  let locator := if e.total = 0xFFFF ∨ e.first = 0xFFFFFFFF then Locator.before? file e else none
  match locator with
  | some l => l.directory? file
  | none => e.directory? file

def sealedMethod : Nat :=
  99

def Directory.entryAt? (d : Directory) (file : Array UInt8) (place : Nat) : Option (Entry × Nat) := do
  if !marked file place entryMark then none
  let flags ← number? file (place + 8) 2
  let wide := flags.testBit 11
  let extra := place + 46 + (← number? file (place + 28) 2)
  let comment := extra + (← number? file (place + 30) 2)
  let past := comment + (← number? file (place + 32) 2)
  if past > file.size then none
  let bytes (first past : Nat) : List UInt8 := (file.extract first past).toList
  let entry : Entry := {
    name := textOf wide (bytes (place + 46) extra)
    rawName := bytes (place + 46) extra
    comment := textOf wide (bytes comment past)
    encrypted := flags.testBit 0
    method := ← number? file (place + 10) 2
    crc := UInt32.ofNat (← number? file (place + 16) 4)
    size := ← number? file (place + 20) 4
    fullSize := ← number? file (place + 24) 4
    header := ← number? file (place + 42) 4 }
  let entry ← entry.amended? (bytes extra comment)
  if entry.method = sealedMethod ∧ !entry.sealed then none
  if entry.header + d.shift ≥ UInt64.size then none
  return ({ entry with header := entry.header + d.shift }, past)

def Directory.entriesAt? (d : Directory) (file : Array UInt8) : Nat → Nat → Option (List Entry)
  | 0, _ => some []
  | n + 1, place => do
    let (entry, past) ← d.entryAt? file place
    return entry :: (← d.entriesAt? file n past)

/-- Of entries with one name the last counts, at the place of the first. -/
def addEntry (entries : List Entry) (e : Entry) : List Entry :=
  if entries.any fun d => d.name == e.name then entries.map fun d => if d.name == e.name then e else d
  else entries ++ [e]

def Directory.entries? (d : Directory) (file : Array UInt8) : Option (List Entry) := do
  if d.disk != d.directoryDisk then none
  return (← d.entriesAt? file d.entries d.start).foldl addEntry []

def entries? (file : Array UInt8) : Option (List Entry) :=
  (List.range (file.size - 21)).reverse.findSome? fun place => do
    (← directoryAt? file place).entries? file

end Z80Machine.Archive
