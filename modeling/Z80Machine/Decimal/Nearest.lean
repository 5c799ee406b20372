import Z80Machine.Decimal.Binary

/-! The double nearest to a decimal number, the even one of two equally near. -/

namespace Z80Machine.Decimal

/-- The exponent of the double below which a quotient lies: its mantissa then has 53 bits, or fewer at the bottom of
the range. -/
def exponentFor (num den : Nat) : Int :=
  let e := (num.log2 : Int) - (den.log2 : Int) - 52
  let (up, down) := power 2 e
  let e := if num * down < (den * up) <<< 52 then e - 1 else e
  max e (-1074)

def infinity : Nat := 0x7FF0000000000000

def nearestBits (num den : Nat) : Nat :=
  let e := exponentFor num den
  let (up, down) := power 2 e
  let mantissa := roundDiv (num * down) (den * up)
  min (((e + 1074).toNat <<< 52) + mantissa) infinity

def ofDigits (digits : Nat) (place : Int) : Float :=
  let size := (toString digits).length + place
  if digits = 0 || size < -400 then 0.0
  else if 400 < size then Float.ofBits (UInt64.ofNat infinity)
  else
    let (num, den) := power 10 place
    Float.ofBits (UInt64.ofNat (nearestBits (digits * num) den))

end Z80Machine.Decimal
