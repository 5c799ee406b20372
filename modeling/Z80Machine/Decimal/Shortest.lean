import Z80Machine.Decimal.Binary

/-! The shortest decimal text that reads back as the same double, always positional. Of two shortest ones it is the
nearer, and of two equally near the larger. -/

namespace Z80Machine.Decimal

/-- Four times the bounds between which every real reads back as `mantissa * 2 ^ exponent`, in units of
`2 ^ exponent`. Below a power of two the numbers lie twice as close. -/
def bounds (mantissa : Nat) (exponent : Int) : Nat × Nat :=
  if mantissa = 1 <<< 52 ∧ exponent > -1074 then (4 * mantissa - 1, 4 * mantissa + 2)
  else (4 * mantissa - 2, 4 * mantissa + 2)

def readsBack (mantissa : Nat) (exponent : Int) (digits : Nat) (place : Int) : Bool :=
  let (num2, den2) := power 2 exponent
  let (num10, den10) := power 10 place
  let (low, high) := bounds mantissa exponent
  let here := 4 * digits * num10 * den2
  let low := low * num2 * den10
  let high := high * num2 * den10
  if mantissa % 2 = 0 then low ≤ here && here ≤ high else low < here && here < high

def leadingPlace (mantissa : Nat) (exponent : Int) : Int :=
  let (num, den) := power 2 exponent
  let whole := mantissa * num / den
  if 0 < whole then (toString whole).length - 1
  else
    let shift := (List.range 400).find? fun k => den ≤ mantissa * num * Nat.pow 10 k
    Int.negOfNat (shift.getD 400)

def candidate? (mantissa : Nat) (exponent : Int) (place : Int) : Option Nat :=
  let (num2, den2) := power 2 exponent
  let (num10, den10) := power 10 place
  let num := mantissa * num2 * den10
  let den := den2 * num10
  let below := num / den
  let above := below + 1
  let fits := fun digits => readsBack mantissa exponent digits place
  match fits below, fits above with
  | true, true => some (if 2 * (num % den) < den then below else above)
  | true, false => some below
  | false, true => some above
  | false, false => none

/-- The shortest digits and the place of the last of them. The search begins one place above the first digit, since
a power of ten just above the number may read back. -/
def shortestDigits (mantissa : Nat) (exponent : Int) : Nat × Int :=
  let lead := leadingPlace mantissa exponent
  let tries := (List.range 18).findSome? fun (k : Nat) =>
    let place := lead + 1 - (k : Int)
    (candidate? mantissa exponent place).map fun digits => (digits, place)
  tries.getD (0, 0)

def positional (digits : Nat) (place : Int) : String :=
  if 0 ≤ place then toString digits ++ String.ofList (List.replicate place.toNat '0')
  else
    let places := (-place).toNat
    let text := toString digits
    let text := String.ofList (List.replicate (places + 1 - text.length) '0') ++ text
    (text.take (text.length - places)).toString ++ "." ++ (text.drop (text.length - places)).toString

def shortestSize (mantissa : Nat) (exponent : Int) : String :=
  if mantissa = 0 then "0"
  else
    let (digits, place) := shortestDigits mantissa exponent
    positional digits place

def shortest (x : Float) : String :=
  (Parts.ofBits x.toBits).text shortestSize

end Z80Machine.Decimal
