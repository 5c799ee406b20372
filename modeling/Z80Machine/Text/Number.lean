import Z80Machine.Text.Fields
import Z80Machine.Text.Hex

/-! Reading unsigned numbers below a limit, as people write them. -/

namespace Z80Machine.Text

inductive NumberError where
  | empty
  | invalidDigit
  | tooLarge
  deriving DecidableEq, Repr

def NumberError.message : NumberError → String
  | empty => "cannot parse integer from empty string"
  | invalidDigit => "invalid digit found in string"
  | tooLarge => "number too large to fit in target type"

def digit? (base : Nat) (c : Char) : Option Nat :=
  (Hex.digitValue? c).filter (· < base)

def readDigits (base limit : Nat) : Nat → List Char → Except NumberError Nat
  | n, [] => .ok n
  | n, c :: rest =>
    match digit? base c with
    | none => .error .invalidDigit
    | some d => if base * n + d < limit then readDigits base limit (base * n + d) rest else .error .tooLarge

def readNumber (base limit : Nat) : List Char → Except NumberError Nat
  | [] => .error .empty
  | ['+'] => .error .invalidDigit
  | '+' :: digits => readDigits base limit 0 digits
  | digits => readDigits base limit 0 digits

def dropMarks (mark : Char) : List Char → List Char
  | '0' :: c :: rest => if c = mark then dropMarks mark rest else '0' :: c :: rest
  | cs => cs

def readHex (limit : Nat) (cs : List Char) : Except NumberError Nat :=
  readNumber 16 limit (dropMarks 'X' (dropMarks 'x' cs))

def readHexBytes (s : String) : Except NumberError (List UInt8) :=
  let pieces := (fields (fun c => c == ' ' || c == ',') s.toList).filter (!·.isEmpty)
  pieces.mapM fun piece => do return UInt8.ofNat (← readHex 256 piece)

end Z80Machine.Text
