import Z80Machine.Decimal.Binary

/-! Decimal text with a fixed number of places. The exact value is rounded to nearest, a half to the even neighbour. -/

namespace Z80Machine.Decimal

def padded (width n : Nat) : String :=
  let digits := toString n
  String.ofList (List.replicate (width - digits.length) '0') ++ digits

def fixedSize (places mantissa : Nat) (exponent : Int) : String :=
  let (num, den) := power 2 exponent
  let unit := Nat.pow 10 places
  let scaled := roundDiv (mantissa * num * unit) den
  if places = 0 then toString scaled
  else toString (scaled / unit) ++ "." ++ padded places (scaled % unit)

def fixed (places : Nat) (x : Float) : String :=
  (Parts.ofBits x.toBits).text (fixedSize places)

end Z80Machine.Decimal
