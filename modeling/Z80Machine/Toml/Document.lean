import Z80Machine.Toml.Scalar
import Z80Machine.Toml.Table

/-! TOML documents: values with lists and tables in them, and lines that define tables and give them values. -/

namespace Z80Machine.Toml

open Settings

def depthLimit : Nat :=
  80

abbrev Reader (α : Type) :=
  List Char → Option (α × List Char)

def items (item : Reader Value) : Nat → Reader (List Value)
  | 0, _ => none
  | fuel + 1, cs => do
    match ← skipLines (cs.length + 1) cs with
    | ']' :: rest => return ([], rest)
    | cs =>
      let (v, rest) ← item cs
      match ← skipLines (rest.length + 1) rest with
      | ',' :: rest =>
        let (vs, rest) ← items item fuel rest
        return (v :: vs, rest)
      | ']' :: rest => return ([v], rest)
      | _ => none

def pair (item : Reader Value) : Reader (List String × Value) := fun cs => do
  let (path, rest) ← path? (depthLimit - 1) cs
  match rest with
  | '=' :: rest =>
    let (v, rest) ← item (skipBlanks rest)
    return ((path, v), rest)
  | _ => none

def pairs (item : Reader Value) : Nat → Reader (List (List String × Value))
  | 0, _ => none
  | fuel + 1, cs => do
    let (p, rest) ← pair item cs
    match skipBlanks rest with
    | ',' :: rest =>
      let (ps, rest) ← pairs item fuel rest
      return (p :: ps, rest)
    | '\x7d' :: rest => return ([p], rest)
    | _ => none

def Fields.addPair (fs : Fields) (p : List String × Value) : Option Fields := do
  fs.insert? p.1.dropLast (← p.1.getLast?) p.2

def value : Nat → Reader Value
  | 0, cs => scalar? cs
  | depth + 1, cs =>
    match cs with
    | '[' :: rest => (items (value depth) (rest.length + 1) rest).map fun (vs, rest) => (.list vs, rest)
    | '\x7b' :: rest =>
      match skipBlanks rest with
      | '\x7d' :: rest => some (.table [], rest)
      | rest => do
        let (ps, rest) ← pairs (value depth) (rest.length + 1) rest
        let fs ← ps.foldlM Fields.addPair []
        return (Fields.value fs, rest)
    | cs => scalar? cs

inductive Header where
  | table (path : List String)
  | element (path : List String)

def header? : Reader Header
  | '[' :: rest => do
    let (path, rest) ← path? (depthLimit - 1) rest
    match rest with
    | ']' :: ']' :: rest => return (.element path, rest)
    | _ => none
  | cs => do
    let (path, rest) ← path? (depthLimit - 1) cs
    match rest with
    | ']' :: rest => return (.table path, rest)
    | _ => none

def Fields.start? (fs : Fields) : Header → Option Fields
  | .table path => do
    let last ← path.getLast?
    fs.update? (Fields.define? last) path.dropLast
  | .element path => do
    let last ← path.getLast?
    fs.update? (Fields.append? last) path.dropLast

def Header.path : Header → List String
  | table path => path
  | element path => path

def document : Nat → List String → Fields → List Char → Option Fields
  | 0, _, _, _ => none
  | fuel + 1, here, fs, cs =>
    match skipBlanks cs with
    | [] => some fs
    | '[' :: rest => do
      let (header, rest) ← header? rest
      document fuel header.path (← fs.start? header) (← lineEnd? rest)
    | c :: rest =>
      if c == '#' || c == '\n' || c == '\r' then do document fuel here fs (← lineEnd? (c :: rest))
      else do
        let (p, rest) ← pair (value (depthLimit - 1)) (c :: rest)
        let fs ← fs.update? (Fields.addPair · p) here
        document fuel here fs (← lineEnd? rest)

def parse? (s : String) : Option Value :=
  let cs := match s.toList with
    | '\uFEFF' :: rest => rest
    | cs => cs
  (document (cs.length + 1) [] [] cs).map Fields.value

end Z80Machine.Toml
