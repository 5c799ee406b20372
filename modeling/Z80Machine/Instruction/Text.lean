import Z80Machine.Instruction
import Z80Machine.Text.Hex

/-! The assembly text of an operation. Constants carry a dollar sign, offsets a sign. -/

namespace Z80Machine

def Register.text : Register → String
  | a => "A"
  | b => "B"
  | c => "C"
  | d => "D"
  | e => "E"
  | h => "H"
  | l => "L"
  | ixh => "IXH"
  | ixl => "IXL"
  | iyh => "IYH"
  | iyl => "IYL"

def Register.ofText? (s : String) : Option Register :=
  [a, b, c, d, e, h, l, ixh, ixl, iyh, iyl].find? fun r => r.text == s

def Pair.text : Pair → String
  | af => "AF"
  | bc => "BC"
  | de => "DE"
  | hl => "HL"
  | sp => "SP"
  | ix => "IX"
  | iy => "IY"

def Pair.ofText? (s : String) : Option Pair :=
  [af, bc, de, hl, sp, ix, iy].find? fun p => p.text == s

def Condition.text : Condition → String
  | nz => "NZ"
  | z => "Z"
  | nc => "NC"
  | c => "C"
  | po => "PO"
  | pe => "PE"
  | p => "P"
  | m => "M"

def Condition.ofText? (s : String) : Option Condition :=
  [nz, z, nc, c, po, pe, p, m].find? fun cond => cond.text == s

def offsetText (offset : UInt8) : String :=
  if offset < 128 then "+" ++ toString offset.toNat else "-" ++ toString (256 - offset.toNat)

def displacementText (offset : UInt8) : String :=
  if offset < 128 then "+$" ++ Hex.byte offset else "-$" ++ Hex.byte (0 - offset)

def Operand.text : Operand → String
  | reg r => r.text
  | imm value => "$" ++ Hex.byte value
  | indirect pair => "(" ++ pair.text ++ ")"
  | indexed mode offset => "(" ++ mode.pair.text ++ displacementText offset ++ ")"
  | absolute addr => "($" ++ Hex.word addr ++ ")"

def AluOp.text : AluOp → String
  | add => "ADD A,"
  | adc => "ADC A,"
  | sub => "SUB "
  | sbc => "SBC A,"
  | and => "AND "
  | xor => "XOR "
  | or => "OR "
  | cp => "CP "

def ShiftOp.text : ShiftOp → String
  | rlc => "RLC"
  | rrc => "RRC"
  | rl => "RL"
  | rr => "RR"
  | sla => "SLA"
  | sra => "SRA"
  | sll => "SLL"
  | srl => "SRL"

def RotateOp.text : RotateOp → String
  | rlc => "RLCA"
  | rrc => "RRCA"
  | rl => "RLA"
  | rr => "RRA"

def Direction.text : Direction → String
  | up => "I"
  | down => "D"

def BlockOp.text (op : BlockOp) (dir : Direction) (repeating : Bool) : String :=
  let stem := match op with
    | load => "LD"
    | compare => "CP"
    | input => "IN"
    | output => if repeating then "OT" else "OUT"
  stem ++ dir.text ++ if repeating then "R" else ""

def conditionText (cond : Option Condition) : String :=
  match cond with
  | some cc => " " ++ cc.text ++ ","
  | none => " "

def copyText (copy : Option Register) : String :=
  match copy with
  | some r => "," ++ r.text
  | none => ""

def Op.text : Op → String
  | nop => "NOP"
  | halt => "HALT"
  | di => "DI"
  | ei => "EI"
  | im mode => "IM " ++ toString mode.toNat
  | load dst src => "LD " ++ dst.text ++ "," ++ src.text
  | loadPair dst value => "LD " ++ dst.text ++ ",$" ++ Hex.word value
  | fetchPair dst addr => "LD " ++ dst.text ++ ",($" ++ Hex.word addr ++ ")"
  | storePair addr src => "LD ($" ++ Hex.word addr ++ ")," ++ src.text
  | loadSp src => "LD SP," ++ src.text
  | loadAI => "LD A,I"
  | loadAR => "LD A,R"
  | loadIA => "LD I,A"
  | loadRA => "LD R,A"
  | exAf => "EX AF,AF'"
  | exDeHl => "EX DE,HL"
  | exx => "EXX"
  | exSp pair => "EX (SP)," ++ pair.text
  | alu op src => op.text ++ src.text
  | inc target => "INC " ++ target.text
  | dec target => "DEC " ++ target.text
  | incPair pair => "INC " ++ pair.text
  | decPair pair => "DEC " ++ pair.text
  | addPair dst src => "ADD " ++ dst.text ++ "," ++ src.text
  | adcHl src => "ADC HL," ++ src.text
  | sbcHl src => "SBC HL," ++ src.text
  | rotateA op => op.text
  | daa => "DAA"
  | cpl => "CPL"
  | scf => "SCF"
  | ccf => "CCF"
  | neg => "NEG"
  | rld => "RLD"
  | rrd => "RRD"
  | shift op target copy => op.text ++ " " ++ target.text ++ copyText copy
  | bit n target => "BIT " ++ toString n.val ++ "," ++ target.text
  | res n target copy => "RES " ++ toString n.val ++ "," ++ target.text ++ copyText copy
  | set n target copy => "SET " ++ toString n.val ++ "," ++ target.text ++ copyText copy
  | jp cond addr => "JP" ++ conditionText cond ++ "$" ++ Hex.word addr
  | jpPair pair => "JP (" ++ pair.text ++ ")"
  | jr cond offset => "JR" ++ conditionText cond ++ offsetText offset
  | djnz offset => "DJNZ " ++ offsetText offset
  | call cond addr => "CALL" ++ conditionText cond ++ "$" ++ Hex.word addr
  | ret (some cc) => "RET " ++ cc.text
  | ret none => "RET"
  | retn => "RETN"
  | reti => "RETI"
  | rst vector => "RST $" ++ Hex.byte vector
  | push pair => "PUSH " ++ pair.text
  | pop pair => "POP " ++ pair.text
  | inA port => "IN A,($" ++ Hex.byte port ++ ")"
  | outA port => "OUT ($" ++ Hex.byte port ++ "),A"
  | inC (some r) => "IN " ++ r.text ++ ",(C)"
  | inC none => "IN (C)"
  | outC (some r) => "OUT (C)," ++ r.text
  | outC none => "OUT (C),0"
  | block op dir repeating => op.text dir repeating
  | unknown (some lead) opcode => "?? " ++ Hex.byte lead ++ " " ++ Hex.byte opcode
  | unknown none opcode => "?? " ++ Hex.byte opcode

end Z80Machine
