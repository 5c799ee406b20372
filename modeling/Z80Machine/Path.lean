import Z80Machine.Text.Blank
import Z80Machine.Text.Fields

/-! Paths, as steps between slashes. An empty step and a single dot lead nowhere else, and two dots lead back. -/

namespace Z80Machine.Path

def steps (path : String) : List (List Char) :=
  Text.fields (· == '/') path.toList

def isAbsolute (path : String) : Bool :=
  path.toList.head? == some '/'

def names (path : String) : List (List Char) :=
  (steps path).filter fun step => step != [] && step != ['.']

def extension? (path : String) : Option (List Char) := do
  let name ← (names path).getLast?
  match Text.cut? '.' name.reverse with
  | some (behind, _ :: _) => return behind.reverse
  | _ => none

def isArchive (path : String) : Bool :=
  match extension? path with
  | some cs => Text.lower (String.ofList cs) == "zip"
  | none => false

end Z80Machine.Path
