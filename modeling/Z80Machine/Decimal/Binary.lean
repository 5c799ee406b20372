/-! A double as sign, mantissa and power of two, and quotients rounded to the nearest integer. -/

namespace Z80Machine.Decimal

inductive Parts where
  | nan
  | infinite (negative : Bool)
  | finite (negative : Bool) (mantissa : Nat) (exponent : Int)
  deriving DecidableEq, Repr

def Parts.ofBits (bits : UInt64) : Parts :=
  let negative := bits.toNat >>> 63 == 1
  let fraction := bits.toNat % (1 <<< 52)
  match (bits.toNat >>> 52) % 2048 with
  | 0 => .finite negative fraction (-1074)
  | 2047 => if fraction = 0 then .infinite negative else .nan
  | e => .finite negative ((1 <<< 52) + fraction) ((e : Int) - 1075)

def Parts.text (p : Parts) (size : Nat → Int → String) : String :=
  match p with
  | nan => "NaN"
  | infinite negative => if negative then "-inf" else "inf"
  | finite negative mantissa exponent => (if negative then "-" else "") ++ size mantissa exponent

def power (base : Nat) (e : Int) : Nat × Nat :=
  if 0 ≤ e then (Nat.pow base e.toNat, 1) else (1, Nat.pow base (-e).toNat)

def roundDiv (num den : Nat) : Nat :=
  let q := num / den
  let twice := 2 * (num % den)
  if twice < den then q
  else if den < twice then q + 1
  else q + q % 2

end Z80Machine.Decimal
