import Z80Machine.Text.Hex

/-! The pieces of a TOML document below its values: blanks, comments, line ends, and quoted text. Every reader takes
what it reads off the front and returns the rest. -/

namespace Z80Machine.Toml

def isBlank (c : Char) : Bool :=
  c == ' ' || c == '\t'

def isPrinting (c : Char) : Bool :=
  c == '\t' || (0x20 ≤ c.toNat && c != '\x7F')

def skipBlanks (cs : List Char) : List Char :=
  cs.dropWhile isBlank

def newline? : List Char → Option (List Char)
  | '\n' :: rest => some rest
  | '\r' :: '\n' :: rest => some rest
  | _ => none

def skipComment : List Char → List Char
  | '#' :: rest => rest.dropWhile isPrinting
  | cs => cs

def lineEnd? (cs : List Char) : Option (List Char) :=
  match skipComment (skipBlanks cs) with
  | [] => some []
  | cs => newline? cs

def skipLines : Nat → List Char → Option (List Char)
  | 0, _ => none
  | fuel + 1, cs =>
    match skipBlanks cs with
    | '#' :: rest => do skipLines fuel (← newline? (rest.dropWhile isPrinting))
    | '\n' :: rest => skipLines fuel rest
    | '\r' :: rest => do skipLines fuel (← newline? ('\r' :: rest))
    | cs => some cs

def coded? (digits : List Char) : Option Char := do
  let n ← digits.foldlM (fun n c => do return 16 * n + (← Hex.digitValue? c)) 0
  if n.isValidChar then return Char.ofNat n else none

def escaped? : Char → Option Char
  | 'b' => some '\x08'
  | 't' => some '\t'
  | 'n' => some '\n'
  | 'f' => some '\x0c'
  | 'r' => some '\r'
  | '"' => some '"'
  | '\\' => some '\\'
  | _ => none

def basicBody : List Char → Option (List Char × List Char)
  | '"' :: rest => some ([], rest)
  | '\\' :: 'u' :: a :: b :: c :: d :: rest => do
    let x ← coded? [a, b, c, d]
    (basicBody rest).map fun (text, rest) => (x :: text, rest)
  | '\\' :: 'U' :: a :: b :: c :: d :: e :: f :: g :: h :: rest => do
    let x ← coded? [a, b, c, d, e, f, g, h]
    (basicBody rest).map fun (text, rest) => (x :: text, rest)
  | '\\' :: c :: rest => do
    let x ← escaped? c
    (basicBody rest).map fun (text, rest) => (x :: text, rest)
  | c :: rest =>
    if isPrinting c then (basicBody rest).map fun (text, rest) => (c :: text, rest) else none
  | [] => none

inductive Joint where
  | plain
  | ending
  | skipping
  deriving DecidableEq

def basicLines : Joint → List Char → Option (List Char × List Char)
  | .ending, c :: rest =>
    if isBlank c then basicLines .ending rest
    else match c, rest with
      | '\n', rest => basicLines .skipping rest
      | '\r', '\n' :: rest => basicLines .skipping rest
      | _, _ => none
  | .skipping, ' ' :: rest => basicLines .skipping rest
  | .skipping, '\t' :: rest => basicLines .skipping rest
  | .skipping, '\n' :: rest => basicLines .skipping rest
  | .skipping, '\r' :: '\n' :: rest => basicLines .skipping rest
  | _, '"' :: '"' :: '"' :: '"' :: '"' :: rest => some (['"', '"'], rest)
  | _, '"' :: '"' :: '"' :: '"' :: rest => some (['"'], rest)
  | _, '"' :: '"' :: '"' :: rest => some ([], rest)
  | _, '\r' :: '\n' :: rest => (basicLines .plain rest).map fun (text, rest) => ('\n' :: text, rest)
  | _, '\\' :: 'u' :: a :: b :: c :: d :: rest => do
    let x ← coded? [a, b, c, d]
    (basicLines .plain rest).map fun (text, rest) => (x :: text, rest)
  | _, '\\' :: 'U' :: a :: b :: c :: d :: e :: f :: g :: h :: rest => do
    let x ← coded? [a, b, c, d, e, f, g, h]
    (basicLines .plain rest).map fun (text, rest) => (x :: text, rest)
  | _, '\\' :: c :: rest =>
    match escaped? c with
    | some x => (basicLines .plain rest).map fun (text, rest) => (x :: text, rest)
    | none => basicLines .ending (c :: rest)
  | _, c :: rest =>
    if isPrinting c || c == '\n' then (basicLines .plain rest).map fun (text, rest) => (c :: text, rest) else none
  | _, [] => none

def literalBody : List Char → Option (List Char × List Char)
  | '\'' :: rest => some ([], rest)
  | c :: rest =>
    if isPrinting c then (literalBody rest).map fun (text, rest) => (c :: text, rest) else none
  | [] => none

def literalLines : List Char → Option (List Char × List Char)
  | '\'' :: '\'' :: '\'' :: '\'' :: '\'' :: rest => some (['\'', '\''], rest)
  | '\'' :: '\'' :: '\'' :: '\'' :: rest => some (['\''], rest)
  | '\'' :: '\'' :: '\'' :: rest => some ([], rest)
  | '\r' :: '\n' :: rest => (literalLines rest).map fun (text, rest) => ('\n' :: text, rest)
  | c :: rest =>
    if isPrinting c || c == '\n' then (literalLines rest).map fun (text, rest) => (c :: text, rest) else none
  | [] => none

def dropNewline (cs : List Char) : List Char :=
  (newline? cs).getD cs

def string? : List Char → Option (List Char × List Char)
  | '"' :: '"' :: '"' :: rest => basicLines .plain (dropNewline rest)
  | '"' :: rest => basicBody rest
  | '\'' :: '\'' :: '\'' :: rest => literalLines (dropNewline rest)
  | '\'' :: rest => literalBody rest
  | _ => none

def isBareKey (c : Char) : Bool :=
  c.isAlphanum || c == '_' || c == '-'

def key? : List Char → Option (String × List Char)
  | '"' :: rest => (basicBody rest).map fun (text, rest) => (String.ofList text, rest)
  | '\'' :: rest => (literalBody rest).map fun (text, rest) => (String.ofList text, rest)
  | cs =>
    match cs.takeWhile isBareKey with
    | [] => none
    | text => some (String.ofList text, cs.dropWhile isBareKey)

def path? : Nat → List Char → Option (List String × List Char)
  | 0, _ => none
  | limit + 1, cs => do
    let (key, rest) ← key? (skipBlanks cs)
    match skipBlanks rest with
    | '.' :: rest => (path? limit rest).map fun (keys, rest) => (key :: keys, rest)
    | rest => return ([key], rest)

end Z80Machine.Toml
