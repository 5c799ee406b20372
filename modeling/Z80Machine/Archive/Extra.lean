import Z80Machine.Archive.Entry
import Z80Machine.Crc32

/-! Extra fields of an entry. Each has a kind and a size, and some amend what the entry says otherwise. They may break
off: then what they said before holds. -/

namespace Z80Machine.Archive

inductive ExtraFault where
  | brokenOff
  | unsound
  deriving DecidableEq, Repr

structure Amending where
  rest : List UInt8
  entry : Entry

abbrev Extra :=
  ExceptT ExtraFault (StateM Amending)

namespace Extra

def bytes (n : Nat) : Extra (List UInt8) := do
  let a ← get
  if a.rest.length < n then throw .brokenOff
  set { a with rest := a.rest.drop n }
  return a.rest.take n

def number (width : Nat) : Extra Nat :=
  ofBytes <$> bytes width

def skip (n : Nat) : Extra Unit :=
  discard (bytes n)

def check (sound : Bool) : Extra Unit :=
  if sound then pure () else throw .unsound

def entry : Extra Entry :=
  Amending.entry <$> get

def amend (f : Entry → Entry) : Extra Unit :=
  modify fun a => { a with entry := f a.entry }

def elsewhere : Nat :=
  0xFFFFFFFF

def wideNumber (given : Bool) (put : Nat → Entry → Entry) : Extra Nat := do
  if !given then return 0
  amend (put (← number 8))
  return 8

def wideNumbers (size : Nat) : Extra Unit := do
  let e ← entry
  let given (n : Nat) : Bool := size ≥ 24 || n == elsewhere
  let full ← wideNumber (given e.fullSize) fun n e => { e with fullSize := n }
  let packed ← wideNumber (given e.size) fun n e => { e with size := n }
  let header ← wideNumber (given e.header) fun n e => { e with header := n }
  check (full + packed + header ≤ size)
  skip (size - (full + packed + header))

def preciseTimes (size : Nat) : Extra Unit := do
  check (size == 32)
  skip 4
  check ((← number 2) == 1)
  check ((← number 2) == 24)
  skip 24

/-- Times of four bytes, as flags say. One time alone is that of the last change, whatever the flags say. -/
def times (size : Nat) : Extra Unit := do
  let flags ← number 1
  let count := ((List.range 8).filter flags.testBit).length
  check (size == 5 || size == 1 + 4 * count)
  if size == 5 || flags.testBit 0 then skip 4
  if size > 5 && flags.testBit 1 then skip 4
  if size > 5 && flags.testBit 2 then skip 4

def wideText (size : Nat) (other : List UInt8) : Extra (List UInt8 × String) := do
  skip 1
  let crc ← number 4
  check (5 ≤ size)
  let written ← bytes (size - 5)
  check (crc == (Crc32.ofBytes other).toNat)
  match String.fromUTF8? ⟨written.toArray⟩ with
  | some text => return (written, text)
  | none => throw .unsound

def wideName (size : Nat) : Extra Unit := do
  let (rawName, name) ← wideText size (← entry).rawName
  amend fun e => { e with rawName, name }

def wideComment (size : Nat) : Extra Unit := do
  let (_, comment) ← wideText size (← entry).comment.toUTF8.toList
  amend fun e => { e with comment }

def encryption (size : Nat) : Extra Unit := do
  check (size == 7)
  let version ← number 2
  let maker ← number 2
  let strength ← number 1
  let method ← number 2
  check (maker == 0x4541)
  check (version == 1 || version == 2)
  check (1 ≤ strength && strength ≤ 3)
  amend fun e => { e with sealed := true, method }

def field (kind size : Nat) : Extra Unit :=
  match kind with
  | 0x0001 => wideNumbers size
  | 0x000A => preciseTimes size
  | 0x5455 => times size
  | 0x6375 => wideComment size
  | 0x7075 => wideName size
  | 0x9901 => encryption size
  | _ => skip size

def fields : Nat → Extra Unit
  | 0 => pure ()
  | n + 1 => do
    if (← get).rest.length < 2 then return
    field (← number 2) (← number 2)
    fields n

end Extra

def Entry.amended? (e : Entry) (extra : List UInt8) : Option Entry :=
  match (Extra.fields extra.length).run.run { rest := extra, entry := e } with
  | (.error .unsound, _) => none
  | (_, a) => some a.entry

end Z80Machine.Archive
