import Z80Machine.Execute.Operand

/-! One round of a block instruction: a byte is moved or compared, the pointers advance, and the counter goes down.
The result says whether a repeating form has rounds left. -/

namespace Z80Machine.Block

/-- (DE) takes (HL). The two copied flags come from bits 3 and 1 of the byte plus A. -/
def load (dir : Direction) (r : Registers) : Dialogue (Registers × Bool) := do
  let byte ← Dialogue.readByte r.hl
  Dialogue.writeByte r.de byte
  let count := r.bc - 1
  let seen := byte + r.a
  let flags := { r.flags with
    y := Byte.bit seen 1, h := false, x := Byte.bit seen 3, pv := count != 0, n := false }
  let r := ((r.setHl (dir.advance r.hl)).setDe (dir.advance r.de)).setBc count
  return (r.setFlags flags, count != 0)

/-- A is compared with (HL). The two copied flags come from bits 3 and 1 of the difference less the half carry. -/
def compare (dir : Direction) (r : Registers) : Dialogue (Registers × Bool) := do
  let byte ← Dialogue.readByte r.hl
  let count := r.bc - 1
  let difference := r.a - byte
  let half := r.a % 16 < byte % 16
  let seen := difference - (if half then 1 else 0)
  let flags : Flags := {
    s := Byte.bit difference 7, z := difference == 0, y := Byte.bit seen 1, h := half,
    x := Byte.bit seen 3, pv := count != 0, n := true, c := r.flags.c }
  let r := (r.setHl (dir.advance r.hl)).setBc count
  return (r.setFlags flags, count != 0 && difference != 0)

def portFlags (b : UInt8) (carry : Bool) : Flags :=
  { Flags.ofResult b with n := true, c := carry }

def input (dir : Direction) (r : Registers) : Dialogue (Registers × Bool) := do
  let byte ← Dialogue.inputByte r.c
  Dialogue.writeByte r.hl byte
  let b := r.b - 1
  let flags := portFlags b r.flags.c
  let r := { r with b }.setHl (dir.advance r.hl)
  return (r.setFlags flags, b != 0)

def output (dir : Direction) (r : Registers) : Dialogue (Registers × Bool) := do
  let b := r.b - 1
  let byte ← Dialogue.readByte r.hl
  Dialogue.outputByte r.c byte
  let flags := portFlags b r.flags.c
  let r := { r with b }.setHl (dir.advance r.hl)
  return (r.setFlags flags, b != 0)

def round (op : BlockOp) (dir : Direction) (r : Registers) : Dialogue (Registers × Bool) :=
  match op with
  | .load => load dir r
  | .compare => compare dir r
  | .input => input dir r
  | .output => output dir r

end Z80Machine.Block
