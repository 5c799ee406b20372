import Z80Machine.Archive.Directory
import Z80Machine.Text.Quoted

/-! ZIP archives whose entries are stored as they are. A directory at the end names the entries, and each entry has a
header of its own in front of its data, which is looked at when the entry is opened. -/

namespace Z80Machine

inductive ArchiveError where
  | unreadable
  | noDirectory
  | brokenEntry
  | encrypted
  | compressed
  deriving DecidableEq, Repr

def ArchiveError.message : ArchiveError → String
  | unreadable => "it cannot be read"
  | noDirectory => "no sound directory is found"
  | brokenEntry => "an entry is damaged"
  | encrypted => "the entry is encrypted"
  | compressed => "the entry is compressed in a way that is not known"

inductive Archive.Missing where
  | entry (name : String)
  | files
  deriving DecidableEq, Repr

def Archive.Missing.message : Missing → String
  | entry name => "ZIP archive has no entry named " ++ Text.quoted name
  | files => "ZIP archive contains no files"

namespace Archive

def entries (file : Array UInt8) : Except ArchiveError (List Entry) :=
  match entries? file with
  | some found => .ok found
  | none => .error .noDirectory

def knownMethods : List Nat :=
  [0, 8, 9, 12, 14, 93, 95]

def Entry.opened (e : Entry) (file : Array UInt8) : Except ArchiveError Nat :=
  if e.encrypted || e.sealed then .error .encrypted
  else if !knownMethods.contains e.method then .error .compressed
  else
    match e.dataStart? file with
    | some first => .ok first
    | none => .error .brokenEntry

def Entry.bytes (e : Entry) (file : Array UInt8) : Except ArchiveError (List UInt8) := do
  let first ← e.opened file
  if e.method != 0 then .error .compressed
  else .ok (file.extract first (first + e.size)).toList

def named (entries : List Entry) (name : String) : Except Missing Entry :=
  match entries.find? fun e => e.name == name with
  | some e => .ok e
  | none => .error (.entry name)

def firstFile? (file : Array UInt8) : List Entry → Except ArchiveError (Option Entry)
  | [] => .ok none
  | e :: rest => do
    let _ ← e.opened file
    if e.isDirectory then firstFile? file rest else .ok (some e)

end Archive

end Z80Machine
