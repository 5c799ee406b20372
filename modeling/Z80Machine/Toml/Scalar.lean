import Z80Machine.Decimal.Nearest
import Z80Machine.Settings.Value
import Z80Machine.Text.Number
import Z80Machine.Toml.Text

/-! Single values of a TOML document: truth values, numbers and dates. -/

namespace Z80Machine.Toml

open Settings

def word? : List Char → List Char → Option (List Char)
  | [], rest => some rest
  | c :: word, d :: rest => if c = d then word? word rest else none
  | _ :: _, [] => none

def isDigit (base : Nat) (c : Char) : Bool :=
  (Text.digit? base c).isSome

def moreDigits (base : Nat) : List Char → List Char × List Char
  | '_' :: c :: rest =>
    if isDigit base c then
      let (digits, rest) := moreDigits base rest
      (c :: digits, rest)
    else ([], '_' :: c :: rest)
  | c :: rest =>
    if isDigit base c then
      let (digits, rest) := moreDigits base rest
      (c :: digits, rest)
    else ([], c :: rest)
  | [] => ([], [])

def digits? (base : Nat) : List Char → Option (List Char × List Char)
  | c :: rest =>
    if isDigit base c then
      let (digits, rest) := moreDigits base rest
      some (c :: digits, rest)
    else none
  | [] => none

def valueOf (base : Nat) (digits : List Char) : Nat :=
  digits.foldl (fun n c => base * n + (Text.digit? base c).getD 0) 0

def sign : List Char → Bool × List Char
  | '-' :: rest => (true, rest)
  | '+' :: rest => (false, rest)
  | cs => (false, cs)

def wholeDigits? : List Char → Option (List Char × List Char)
  | '0' :: rest => some (['0'], rest)
  | cs => digits? 10 cs

def bounded (n : Int) : Option Value :=
  if -0x8000000000000000 ≤ n && n < 0x8000000000000000 then some (.integer n) else none

def based? (base : Nat) (cs : List Char) : Option (Value × List Char) := do
  let (digits, rest) ← digits? base cs
  return (← bounded (valueOf base digits), rest)

def integer? : List Char → Option (Value × List Char)
  | '0' :: 'x' :: rest => based? 16 rest
  | '0' :: 'o' :: rest => based? 8 rest
  | '0' :: 'b' :: rest => based? 2 rest
  | cs => do
    let (negative, cs) := sign cs
    let (digits, rest) ← wholeDigits? cs
    let size : Int := valueOf 10 digits
    return (← bounded (if negative then -size else size), rest)

def places? : List Char → Option (List Char × List Char)
  | '.' :: rest => digits? 10 rest
  | cs => some ([], cs)

def tens? : List Char → Option (Int × List Char)
  | c :: rest =>
    if c == 'e' || c == 'E' then do
      let (negative, rest) := sign rest
      let (digits, rest) ← digits? 10 rest
      let size : Int := valueOf 10 digits
      return (if negative then -size else size, rest)
    else some (0, c :: rest)
  | [] => some (0, [])

def special? (cs : List Char) : Option (Double × List Char) :=
  match word? ['i', 'n', 'f'] cs with
  | some rest => some (.infinity, rest)
  | none => (word? ['n', 'a', 'n'] cs).map fun rest => (.nan, rest)

def float? (cs : List Char) : Option (Value × List Char) := do
  let (negative, cs) := sign cs
  let signed (x : Double) : Double := if negative then x.neg else x
  match special? cs with
  | some (x, rest) => return (.float (signed x), rest)
  | none =>
    let (whole, behind) ← wholeDigits? cs
    let (places, rest) ← places? behind
    let (tens, rest) ← tens? rest
    if rest.length = behind.length then none
    let x := Decimal.ofDigits (valueOf 10 (whole ++ places)) (tens - places.length)
    if x.isInf && !negative then none else return (.float (signed (.ofFloat x)), rest)

def field? (width low high : Nat) (cs : List Char) : Option (Nat × List Char) :=
  let digits := cs.take width
  let n := valueOf 10 digits
  if digits.length = width && digits.all (isDigit 10) && low ≤ n && n ≤ high then some (n, cs.drop width)
  else none

def daysIn (year month : Nat) : Nat :=
  if month = 2 then (if year % 4 = 0 && (year % 100 != 0 || year % 400 = 0) then 29 else 28)
  else if month = 4 || month = 6 || month = 9 || month = 11 then 30
  else 31

def day? (cs : List Char) : Option (List Char) := do
  let (year, rest) ← field? 4 0 9999 cs
  let (month, rest) ← field? 2 1 12 (← word? ['-'] rest)
  let (_, rest) ← field? 2 1 (daysIn year month) (← word? ['-'] rest)
  return rest

def fraction : List Char → List Char
  | '.' :: c :: rest => if isDigit 10 c then rest.dropWhile (isDigit 10) else '.' :: c :: rest
  | cs => cs

def time? (cs : List Char) : Option (List Char) := do
  let (_, rest) ← field? 2 0 23 cs
  let (_, rest) ← field? 2 0 59 (← word? [':'] rest)
  let (_, rest) ← field? 2 0 60 (← word? [':'] rest)
  return fraction rest

def zone? : List Char → Option (List Char)
  | [] => some []
  | c :: rest =>
    if c == 'Z' || c == 'z' then some rest
    else if c == '+' || c == '-' then do
      let (_, rest) ← field? 2 0 23 rest
      let (_, rest) ← field? 2 0 59 (← word? [':'] rest)
      return rest
    else some (c :: rest)

def date? (cs : List Char) : Option (Value × List Char) :=
  match day? cs with
  | none => (time? cs).map fun rest => (.date, rest)
  | some rest =>
    match rest with
    | c :: behind =>
      if c == 'T' || c == 't' || c == ' ' then
        match time? behind with
        | some rest => (zone? rest).map fun rest => (.date, rest)
        | none => some (.date, c :: behind)
      else some (.date, c :: behind)
    | [] => some (.date, [])

def scalar? (cs : List Char) : Option (Value × List Char) :=
  match cs with
  | '"' :: _ => (string? cs).map fun (text, rest) => (.string (String.ofList text), rest)
  | '\'' :: _ => (string? cs).map fun (text, rest) => (.string (String.ofList text), rest)
  | 't' :: _ => (word? ['t', 'r', 'u', 'e'] cs).map fun rest => (.boolean true, rest)
  | 'f' :: _ => (word? ['f', 'a', 'l', 's', 'e'] cs).map fun rest => (.boolean false, rest)
  | _ => date? cs <|> float? cs <|> integer? cs

end Z80Machine.Toml
