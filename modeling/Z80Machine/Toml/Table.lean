import Z80Machine.Settings.Value

/-! Tables under construction. A table that stands by itself, under a header or in braces, is defined once and for
all; one that only lies on the way to another may still be defined or grow. -/

namespace Z80Machine.Toml

open Settings

inductive Origin where
  | header
  | passed
  | dotted
  deriving DecidableEq

inductive Node where
  | leaf (value : Value)
  | table (origin : Origin) (fields : List (String × Node))
  | tables (earlier : List (List (String × Node))) (latest : List (String × Node))

abbrev Fields :=
  List (String × Node)

namespace Fields

def get? (fs : Fields) (key : String) : Option Node :=
  (fs.find? fun f => f.1 == key).map Prod.snd

def add (fs : Fields) (key : String) (node : Node) : Fields :=
  fs ++ [(key, node)]

def replace (fs : Fields) (key : String) (node : Node) : Fields :=
  fs.map fun f => if f.1 == key then (key, node) else f

/-- Adds a value under a path of keys with dots and a last key. Tables with headers of their own do not grow that way,
and the last table on the path must itself have come about by dots. -/
def insert? : List String → String → Value → Fields → Option Fields
  | [], key, value, fs =>
    match fs.get? key with
    | none => some (fs.add key (.leaf value))
    | some _ => none
  | first :: path, key, value, fs =>
    match fs.get? first with
    | none => do return fs.add first (.table .dotted (← insert? path key value []))
    | some (.table .dotted inner) => do return fs.replace first (.table .dotted (← insert? path key value inner))
    | some (.table .passed inner) =>
      if path.isEmpty then none
      else do return fs.replace first (.table .passed (← insert? path key value inner))
    | some (.tables earlier latest) =>
      if path.isEmpty then none
      else do return fs.replace first (.tables earlier (← insert? path key value latest))
    | some _ => none

/-- Changes the table at the path of a header. Missing tables on the way come to be, and of tables in double brackets
the latest counts. -/
def update? (f : Fields → Option Fields) : List String → Fields → Option Fields
  | [], fs => f fs
  | first :: path, fs =>
    match fs.get? first with
    | none => do return fs.add first (.table .passed (← update? f path []))
    | some (.table origin inner) => do return fs.replace first (.table origin (← update? f path inner))
    | some (.tables earlier latest) => do return fs.replace first (.tables earlier (← update? f path latest))
    | some (.leaf _) => none

def define? (key : String) (fs : Fields) : Option Fields :=
  match fs.get? key with
  | none => some (fs.add key (.table .header []))
  | some (.table .passed inner) => some (fs.replace key (.table .header inner))
  | some _ => none

def append? (key : String) (fs : Fields) : Option Fields :=
  match fs.get? key with
  | none => some (fs.add key (.tables [] []))
  | some (.tables earlier latest) => some (fs.replace key (.tables (earlier ++ [latest]) []))
  | some _ => none

end Fields

mutual

def Node.value : Node → Value
  | .leaf value => value
  | .table _ fields => .table (fieldValues fields)
  | .tables earlier latest => .list (tableValues earlier ++ [.table (fieldValues latest)])

def fieldValues : List (String × Node) → List (String × Value)
  | [] => []
  | (key, node) :: rest => (key, node.value) :: fieldValues rest

def tableValues : List (List (String × Node)) → List Value
  | [] => []
  | fields :: rest => .table (fieldValues fields) :: tableValues rest

end

def Fields.value (fs : Fields) : Value :=
  .table (fieldValues fs)

end Z80Machine.Toml
