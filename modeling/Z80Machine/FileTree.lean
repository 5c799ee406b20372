import Z80Machine.Path

/-! A tree of files, and where a path leads in it. -/

namespace Z80Machine

inductive Opened where
  | file (bytes : List UInt8)
  | directory
  deriving DecidableEq, Repr

structure FileTree where
  files : List (String × List UInt8) := []

namespace FileTree

def isDirectory (t : FileTree) (place : List (List Char)) : Bool :=
  place.isEmpty || t.files.any fun (path, _) => place.isPrefixOf (Path.names path).dropLast

/-- Where steps lead from a place. Every step starts from a directory, and none leads out of the tree. -/
def walk? (t : FileTree) : List (List Char) → List (List Char) → Option (List (List Char))
  | here, [] => some here
  | here, step :: rest =>
    if !t.isDirectory here then none
    else
      match step with
      | [] => t.walk? here rest
      | ['.'] => t.walk? here rest
      | ['.', '.'] => if here.isEmpty then none else t.walk? here.dropLast rest
      | name => t.walk? (here ++ [name]) rest

def opened? (t : FileTree) (path : String) : Option Opened := do
  if path.isEmpty || Path.isAbsolute path then none
  let place ← t.walk? [] (Path.steps path)
  match t.files.find? fun (path, _) => Path.names path == place with
  | some (_, bytes) => return .file bytes
  | none => if t.isDirectory place then return .directory else none

end FileTree

end Z80Machine
