import Z80Machine.Instruction.Text
import Z80Machine.Proofs.Cutting

/-! Assembly text read back. An operation is a mnemonic and arguments, its text is these words in a line, and the words
leave no choice of the operation. -/

namespace Z80Machine

/-! Hexadecimal constants -/

namespace Hex

def byte? (cs : List Char) : Option UInt8 :=
  match parseBytes? cs with
  | some [b] => some b
  | _ => none

def word? (cs : List Char) : Option UInt16 :=
  match parseBytes? cs with
  | some [high, low] => some (Word.ofBytes high low)
  | _ => none

lemma toList_byte (b : UInt8) : (byte b).toList = [upperDigit (b.toNat / 16), upperDigit (b.toNat % 16)] :=
  String.toList_ofList

lemma nibbles_lt (b : UInt8) : b.toNat / 16 < 16 ∧ b.toNat % 16 < 16 :=
  ⟨Nat.div_lt_of_lt_mul b.toNat_lt, Nat.mod_lt _ (by decide)⟩

lemma parseBytes_upperDigits (b : UInt8) (cs : List Char) :
    parseBytes? (upperDigit (b.toNat / 16) :: upperDigit (b.toNat % 16) :: cs) = (parseBytes? cs).map (b :: ·) := by
  have hdigit : ∀ n < 16, digitValue? (upperDigit n) = some n := by decide
  have hhigh := hdigit (b.toNat / 16) (nibbles_lt b).1
  have hlow := hdigit (b.toNat % 16) (nibbles_lt b).2
  have hbyte : UInt8.ofNat (16 * (b.toNat / 16) + b.toNat % 16) = b := by
    rw [Nat.div_add_mod, UInt8.ofNat_toNat]
  simp only [parseBytes?, hhigh, hlow, Option.pure_def, Option.bind_eq_bind, Option.bind_some, hbyte]
  cases parseBytes? cs <;> rfl

lemma byte_digits (b : UInt8) : byte? [upperDigit (b.toNat / 16), upperDigit (b.toNat % 16)] = some b := by
  rw [byte?, parseBytes_upperDigits]
  rfl

lemma byte_of_word (w : UInt16) :
    byte? [upperDigit ((Word.high w).toNat / 16), upperDigit ((Word.high w).toNat % 16),
      upperDigit ((Word.low w).toNat / 16), upperDigit ((Word.low w).toNat % 16)] = none := by
  rw [byte?, parseBytes_upperDigits, parseBytes_upperDigits]
  rfl

lemma word_digits (w : UInt16) :
    word? [upperDigit ((Word.high w).toNat / 16), upperDigit ((Word.high w).toNat % 16),
      upperDigit ((Word.low w).toNat / 16), upperDigit ((Word.low w).toNat % 16)] = some w := by
  rw [word?, parseBytes_upperDigits, parseBytes_upperDigits]
  exact congrArg some (Word.ofBytes_high_low w)

end Hex

/-! Arguments -/

lemma Register.ofText_text (r : Register) : ofText? r.text = some r := by
  cases r <;> rfl

lemma Pair.ofText_text (p : Pair) : ofText? p.text = some p := by
  cases p <;> rfl

lemma Condition.ofText_text (cc : Condition) : ofText? cc.text = some cc := by
  cases cc <;> rfl

def ShiftOp.ofText? (s : String) : Option ShiftOp :=
  [rlc, rrc, rl, rr, sla, sra, sll, srl].find? fun op => op.text == s

def IndexMode.ofText? (s : String) : Option IndexMode :=
  [hl, ix, iy].find? fun mode => mode.pair.text == s

def Operand.ofText? (s : String) : Option Operand :=
  match s.toList with
  | '$' :: ds => (Hex.byte? ds).map imm
  | ['(', p, q, ')'] => (Pair.ofText? (String.ofList [p, q])).map indirect
  | ['(', '$', d₁, d₂, d₃, d₄, ')'] => (Hex.word? [d₁, d₂, d₃, d₄]).map absolute
  | ['(', p, q, '+', '$', d₁, d₂, ')'] => do
    return indexed (← IndexMode.ofText? (String.ofList [p, q])) (← Hex.byte? [d₁, d₂])
  | ['(', p, q, '-', '$', d₁, d₂, ')'] => do
    return indexed (← IndexMode.ofText? (String.ofList [p, q])) (0 - (← Hex.byte? [d₁, d₂]))
  | _ => (Register.ofText? s).map reg

lemma Operand.ofText_text (o : Operand) : ofText? o.text = some o := by
  cases o with
  | reg r => cases r <;> rfl
  | imm value => simp [ofText?, text, Hex.toList_byte, Hex.byte_digits]
  | indirect pair => cases pair <;> rfl
  | absolute addr => simp [ofText?, text, Hex.word, Hex.toList_byte, Hex.word_digits]
  | indexed mode offset =>
    have hmodes : IndexMode.ofText? "HL" = some .hl ∧ IndexMode.ofText? "IX" = some .ix ∧
        IndexMode.ofText? "IY" = some .iy := ⟨rfl, rfl, rfl⟩
    rw [text, displacementText]
    split
    · cases mode <;> simp [ofText?, Pair.text, IndexMode.pair, hmodes, Hex.toList_byte, Hex.byte_digits]
    · have hback : -(0 - offset) = offset := by simp
      generalize 0 - offset = b at hback ⊢
      cases mode <;> simp [ofText?, Pair.text, IndexMode.pair, hmodes, Hex.toList_byte, Hex.byte_digits, hback]

namespace Assembly

def constant? (s : String) : Option UInt16 :=
  match s.toList with
  | '$' :: ds => Hex.word? ds
  | _ => none

def port? (s : String) : Option UInt8 :=
  match s.toList with
  | ['(', '$', d₁, d₂, ')'] => Hex.byte? [d₁, d₂]
  | _ => none

def decimal (cs : List Char) : Nat :=
  Nat.ofDigitChars 10 cs 0

def bitIndex (s : String) : Fin 8 :=
  ⟨decimal s.toList % 8, Nat.mod_lt _ (by decide)⟩

def offset? (s : String) : Option UInt8 :=
  match s.toList with
  | '+' :: ds => some (UInt8.ofNat (decimal ds))
  | '-' :: ds => some (UInt8.ofNat (256 - decimal ds))
  | _ => none

lemma constant_text (w : UInt16) : constant? ("$" ++ Hex.word w) = some w := by
  simp [constant?, Hex.word, Hex.toList_byte, Hex.word_digits]

lemma port_text (b : UInt8) : port? ("($" ++ Hex.byte b ++ ")") = some b := by
  simp [port?, Hex.toList_byte, Hex.byte_digits]

lemma decimal_text (n : Nat) : decimal (toString n).toList = n := by
  rw [Nat.toString_eq_repr, Nat.toList_repr, decimal, Nat.ofDigitChars_ten_toDigits]

lemma bitIndex_text (n : Fin 8) : bitIndex (toString n.val) = n := by
  apply Fin.ext
  change decimal (toString n.val).toList % 8 = n.val
  rw [decimal_text, Nat.mod_eq_of_lt n.isLt]

lemma offset_text (b : UInt8) : offset? (offsetText b) = some b := by
  have hb : 256 - (256 - b.toNat) = b.toNat := Nat.sub_sub_self (Nat.le_of_lt b.toNat_lt)
  rw [offsetText]
  split
  · simp [offset?, -Nat.toString_eq_repr, decimal_text]
  · simp [offset?, -Nat.toString_eq_repr, decimal_text, hb]

end Assembly

/-! No argument has a comma in it -/

lemma Register.no_comma (r : Register) : ',' ∉ r.text.toList := by
  cases r <;> simp [text]

lemma Pair.no_comma (p : Pair) : ',' ∉ p.text.toList := by
  cases p <;> simp [text]

lemma Condition.no_comma (cc : Condition) : ',' ∉ cc.text.toList := by
  cases cc <;> simp [text]

lemma Hex.no_comma (b : UInt8) : ',' ∉ (byte b).toList := by
  have hdigit : ∀ n < 16, ',' ≠ upperDigit n := by decide
  have hhigh := hdigit (b.toNat / 16) (nibbles_lt b).1
  have hlow := hdigit (b.toNat % 16) (nibbles_lt b).2
  simp [toList_byte, hhigh, hlow]

lemma Assembly.decimal_no_comma (n : Nat) : ',' ∉ Nat.toDigits 10 n := fun hmem =>
  absurd (Nat.isDigit_of_mem_toDigits (by decide) (by decide) hmem) (by decide)

lemma Assembly.offset_no_comma (b : UInt8) : ',' ∉ (offsetText b).toList := by
  rw [offsetText]
  split
  all_goals simp [decimal_no_comma]

lemma Operand.no_comma (o : Operand) : ',' ∉ o.text.toList := by
  have hdisplacement (b : UInt8) : ',' ∉ (displacementText b).toList := by
    rw [displacementText]
    split
    all_goals simp only [String.toList_append, List.mem_append, Hex.no_comma, or_false]
    all_goals decide
  cases o with
  | reg r => exact r.no_comma
  | imm value => simp [text, Hex.no_comma]
  | indirect pair => simp [text, Pair.no_comma]
  | indexed mode offset => simp [text, Pair.no_comma, hdisplacement]
  | absolute addr => simp [text, Hex.word, Hex.no_comma]

/-! Lines -/

namespace Assembly

def line (mnemonic : String) : List String → String
  | [] => mnemonic
  | arguments => mnemonic ++ " " ++ ",".intercalate arguments

def cutLine (s : String) : String × List String :=
  match Text.cut? ' ' s.toList with
  | none => (s, [])
  | some (mnemonic, rest) => (String.ofList mnemonic, (rest.splitOn ',').map String.ofList)

lemma cutLine_line {mnemonic : String} {arguments : List String} (hm : ' ' ∉ mnemonic.toList)
    (ha : ∀ a ∈ arguments, ',' ∉ a.toList) : cutLine (line mnemonic arguments) = (mnemonic, arguments) := by
  have hback : (String.ofList ∘ String.toList) = id := funext fun _ => String.ofList_toList
  rcases arguments with _ | ⟨a, arguments⟩
  · rw [line, cutLine, Text.cut_eq_none.mpr hm]
  · have hline : (line mnemonic (a :: arguments)).toList =
        mnemonic.toList ++ ' ' :: [','].intercalate ((a :: arguments).map String.toList) := by
      rw [line, String.toList_append, String.toList_append, String.toList_intercalate, List.append_assoc]
      · rfl
      · exact List.cons_ne_nil _ _
    have hpieces : ([','].intercalate ((a :: arguments).map String.toList)).splitOn ',' =
        (a :: arguments).map String.toList :=
      List.splitOn_intercalate ',' (by simpa using ha) (List.cons_ne_nil _ _)
    rw [cutLine, hline, Text.cut_append hm]
    simp only [hpieces, List.map_map, hback, List.map_id, String.ofList_toList]

end Assembly

/-! Words -/

def AluOp.words : AluOp → String × List String
  | add => ("ADD", ["A"])
  | adc => ("ADC", ["A"])
  | sub => ("SUB", [])
  | sbc => ("SBC", ["A"])
  | and => ("AND", [])
  | xor => ("XOR", [])
  | or => ("OR", [])
  | cp => ("CP", [])

namespace Op

open Assembly

def words : Op → String × List String
  | nop => ("NOP", [])
  | halt => ("HALT", [])
  | di => ("DI", [])
  | ei => ("EI", [])
  | im mode => ("IM", [toString mode.toNat])
  | load dst src => ("LD", [dst.text, src.text])
  | loadPair dst value => ("LD", [dst.text, "$" ++ Hex.word value])
  | fetchPair dst addr => ("LD", [dst.text, (Operand.absolute addr).text])
  | storePair addr src => ("LD", [(Operand.absolute addr).text, src.text])
  | loadSp src => ("LD", ["SP", src.text])
  | loadAI => ("LD", ["A", "I"])
  | loadAR => ("LD", ["A", "R"])
  | loadIA => ("LD", ["I", "A"])
  | loadRA => ("LD", ["R", "A"])
  | exAf => ("EX", ["AF", "AF'"])
  | exDeHl => ("EX", ["DE", "HL"])
  | exx => ("EXX", [])
  | exSp pair => ("EX", ["(SP)", pair.text])
  | alu op src => (op.words.1, op.words.2 ++ [src.text])
  | inc target => ("INC", [target.text])
  | dec target => ("DEC", [target.text])
  | incPair pair => ("INC", [pair.text])
  | decPair pair => ("DEC", [pair.text])
  | addPair dst src => ("ADD", [dst.text, src.text])
  | adcHl src => ("ADC", ["HL", src.text])
  | sbcHl src => ("SBC", ["HL", src.text])
  | rotateA op => (op.text, [])
  | daa => ("DAA", [])
  | cpl => ("CPL", [])
  | scf => ("SCF", [])
  | ccf => ("CCF", [])
  | neg => ("NEG", [])
  | rld => ("RLD", [])
  | rrd => ("RRD", [])
  | shift op target copy => (op.text, target.text :: copy.toList.map Register.text)
  | bit n target => ("BIT", [toString n.val, target.text])
  | res n target copy => ("RES", toString n.val :: target.text :: copy.toList.map Register.text)
  | set n target copy => ("SET", toString n.val :: target.text :: copy.toList.map Register.text)
  | jp cond addr => ("JP", cond.toList.map Condition.text ++ ["$" ++ Hex.word addr])
  | jpPair pair => ("JP", [(Operand.indirect pair).text])
  | jr cond offset => ("JR", cond.toList.map Condition.text ++ [offsetText offset])
  | djnz offset => ("DJNZ", [offsetText offset])
  | call cond addr => ("CALL", cond.toList.map Condition.text ++ ["$" ++ Hex.word addr])
  | ret cond => ("RET", cond.toList.map Condition.text)
  | retn => ("RETN", [])
  | reti => ("RETI", [])
  | rst vector => ("RST", [(Operand.imm vector).text])
  | push pair => ("PUSH", [pair.text])
  | pop pair => ("POP", [pair.text])
  | inA port => ("IN", ["A", "($" ++ Hex.byte port ++ ")"])
  | outA port => ("OUT", ["($" ++ Hex.byte port ++ ")", "A"])
  | inC (some r) => ("IN", [r.text, "(C)"])
  | inC none => ("IN", ["(C)"])
  | outC (some r) => ("OUT", ["(C)", r.text])
  | outC none => ("OUT", ["(C)", "0"])
  | block op dir repeating => (op.text dir repeating, [])
  | unknown (some lead) opcode => ("??", [Hex.byte lead ++ " " ++ Hex.byte opcode])
  | unknown none opcode => ("??", [Hex.byte opcode])

lemma text_eq_line (op : Op) : op.text = line op.words.1 op.words.2 := by
  apply String.toList_inj.mp
  cases op with
  | alu op => cases op <;> simp [text, words, AluOp.text, AluOp.words, line]
  | shift op target copy | res n target copy | set n target copy => cases copy <;> simp [text, words, copyText, line]
  | jp cond | jr cond | call cond => cases cond <;> simp [text, words, conditionText, line]
  | ret cond => cases cond <;> simp [text, words, line]
  | inC reg | outC reg => cases reg <;> simp [text, words, line]
  | unknown lead => cases lead <;> simp [text, words, line]
  | _ => simp [text, words, Operand.text, line]

lemma mnemonic_unbroken (op : Op) : ' ' ∉ op.words.1.toList := by
  cases op with
  | alu op => cases op <;> simp [words, AluOp.words]
  | rotateA op => cases op <;> simp [words, RotateOp.text]
  | shift op => cases op <;> simp [words, ShiftOp.text]
  | inC reg | outC reg => cases reg <;> simp [words]
  | block op dir repeating => cases op <;> cases dir <;> cases repeating <;> decide
  | unknown lead => cases lead <;> simp [words]
  | _ => simp [words]

lemma arguments_unbroken (op : Op) : ∀ a ∈ op.words.2, ',' ∉ a.toList := by
  cases op with
  | alu op => cases op <;> simp [words, AluOp.words, Operand.no_comma]
  | jp cond | call cond => cases cond <;> simp [words, Condition.no_comma, Hex.word, Hex.no_comma]
  | jr cond => cases cond <;> simp [words, Condition.no_comma, offset_no_comma]
  | inC reg | outC reg => cases reg <;> simp [words, Register.no_comma]
  | unknown lead => cases lead <;> simp [words, Hex.no_comma]
  | _ =>
    simp [words, Register.no_comma, Pair.no_comma, Condition.no_comma, Operand.no_comma, Hex.word, Hex.no_comma,
      decimal_no_comma, offset_no_comma]

/-! Operations -/

def bare : List Op :=
  [nop, halt, di, ei, exx, rotateA .rlc, rotateA .rrc, rotateA .rl, rotateA .rr, daa, cpl, scf, ccf, neg, rld, rrd,
    ret none, retn, reti] ++
  [BlockOp.load, .compare, .input, .output].flatMap fun op => [Direction.up, .down].flatMap fun dir =>
    [block op dir false, block op dir true]

-- Pairs are never named like byte operands, so that one of the two readings fails wherever both are tried.
def unary? (mnemonic x : String) : Option Op :=
  match mnemonic with
  | "IM" => some (im (UInt8.ofNat (decimal x.toList)))
  | "SUB" => (Operand.ofText? x).map (alu .sub)
  | "AND" => (Operand.ofText? x).map (alu .and)
  | "XOR" => (Operand.ofText? x).map (alu .xor)
  | "OR" => (Operand.ofText? x).map (alu .or)
  | "CP" => (Operand.ofText? x).map (alu .cp)
  | "INC" => ((Operand.ofText? x).map inc).or ((Pair.ofText? x).map incPair)
  | "DEC" => ((Operand.ofText? x).map dec).or ((Pair.ofText? x).map decPair)
  | "JP" =>
    match Operand.ofText? x with
    | some (.indirect pair) => some (jpPair pair)
    | _ => (constant? x).map (jp none)
  | "JR" => (offset? x).map (jr none)
  | "DJNZ" => (offset? x).map djnz
  | "CALL" => (constant? x).map (call none)
  | "RET" => (Condition.ofText? x).map (ret ∘ some)
  | "RST" =>
    match Operand.ofText? x with
    | some (.imm vector) => some (rst vector)
    | _ => none
  | "PUSH" => (Pair.ofText? x).map push
  | "POP" => (Pair.ofText? x).map pop
  | "IN" => some (inC none)
  | "??" =>
    match x.toList with
    | [d₁, d₂, ' ', d₃, d₄] => do return unknown (some (← Hex.byte? [d₁, d₂])) (← Hex.byte? [d₃, d₄])
    | ds => (Hex.byte? ds).map (unknown none)
  | _ => do return shift (← ShiftOp.ofText? mnemonic) (← Operand.ofText? x) none

def load? (x y : String) : Option Op :=
  match Operand.ofText? x, Operand.ofText? y with
  | some dst, some src => some (load dst src)
  | some (.absolute addr), none => (Pair.ofText? y).map (storePair addr)
  | none, some (.absolute addr) => (Pair.ofText? x).map fun dst => fetchPair dst addr
  | some _, none => some (if y = "I" then loadAI else loadAR)
  | none, some _ => some (if x = "I" then loadIA else loadRA)
  | none, none =>
    match constant? y with
    | some value => (Pair.ofText? x).map fun dst => loadPair dst value
    | none => (Pair.ofText? y).map loadSp

def binary? (mnemonic x y : String) : Option Op :=
  match mnemonic with
  | "LD" => load? x y
  | "EX" =>
    match Pair.ofText? x with
    | some .af => some exAf
    | some _ => some exDeHl
    | none => (Pair.ofText? y).map exSp
  | "ADD" =>
    match Pair.ofText? x with
    | some dst => (Pair.ofText? y).map (addPair dst)
    | none => (Operand.ofText? y).map (alu .add)
  | "ADC" =>
    match Pair.ofText? x with
    | some _ => (Pair.ofText? y).map adcHl
    | none => (Operand.ofText? y).map (alu .adc)
  | "SBC" =>
    match Pair.ofText? x with
    | some _ => (Pair.ofText? y).map sbcHl
    | none => (Operand.ofText? y).map (alu .sbc)
  | "BIT" => (Operand.ofText? y).map (bit (bitIndex x))
  | "RES" => (Operand.ofText? y).map fun target => res (bitIndex x) target none
  | "SET" => (Operand.ofText? y).map fun target => set (bitIndex x) target none
  | "JP" => do return jp (some (← Condition.ofText? x)) (← constant? y)
  | "JR" => do return jr (some (← Condition.ofText? x)) (← offset? y)
  | "CALL" => do return call (some (← Condition.ofText? x)) (← constant? y)
  | "IN" => ((port? y).map inA).or ((Register.ofText? x).map (inC ∘ some))
  | "OUT" => ((port? x).map outA).or (some (outC (Register.ofText? y)))
  | _ => do return shift (← ShiftOp.ofText? mnemonic) (← Operand.ofText? x) (some (← Register.ofText? y))

def ternary? (mnemonic x y z : String) : Option Op := do
  let target ← Operand.ofText? y
  let copy ← Register.ofText? z
  if mnemonic = "RES" then return res (bitIndex x) target (some copy)
  else return set (bitIndex x) target (some copy)

def ofWords? : String × List String → Option Op
  | (mnemonic, []) => bare.find? fun op => op.text == mnemonic
  | (mnemonic, [x]) => unary? mnemonic x
  | (mnemonic, [x, y]) => binary? mnemonic x y
  | (mnemonic, [x, y, z]) => ternary? mnemonic x y z
  | _ => none

lemma ofWords_words (op : Op) : ofWords? op.words = some op := by
  have hpair (p : Pair) : Operand.ofText? p.text = none := by cases p <;> rfl
  have hconstant (w : UInt16) : Operand.ofText? ("$" ++ Hex.word w) = none := by
    simp [Operand.ofText?, Hex.word, Hex.toList_byte, Hex.byte_of_word]
  cases op with
  | alu op src =>
    cases op <;> simp [words, AluOp.words, ofWords?, unary?, binary?, Operand.ofText_text, Pair.ofText?, Pair.text]
  | rotateA op => cases op <;> rfl
  | block op dir repeating => cases op <;> cases dir <;> cases repeating <;> rfl
  | load dst src => simp [words, ofWords?, binary?, load?, Operand.ofText_text]
  | loadPair dst value => simp [words, ofWords?, binary?, load?, hpair, hconstant, constant_text, Pair.ofText_text]
  | fetchPair dst addr => simp [words, ofWords?, binary?, load?, hpair, Operand.ofText_text, Pair.ofText_text]
  | storePair addr src => simp [words, ofWords?, binary?, load?, hpair, Operand.ofText_text, Pair.ofText_text]
  | loadSp src => cases src <;> rfl
  | exSp pair => cases pair <;> rfl
  | incPair pair | decPair pair => cases pair <;> rfl
  | push pair | pop pair => cases pair <;> rfl
  | addPair dst src => simp [words, ofWords?, binary?, Pair.ofText_text]
  | adcHl src | sbcHl src => cases src <;> rfl
  | inc target | dec target => simp [words, ofWords?, unary?, Operand.ofText_text]
  | im mode => simp [words, ofWords?, unary?, -Nat.toString_eq_repr, decimal_text]
  | shift op target copy =>
    cases copy <;> cases op <;>
      simp [words, ofWords?, unary?, binary?, ShiftOp.text, ShiftOp.ofText?, Operand.ofText_text, Register.ofText_text]
  | bit n target => simp [words, ofWords?, binary?, -Nat.toString_eq_repr, bitIndex_text, Operand.ofText_text]
  | res n target copy | set n target copy =>
    cases copy <;>
      simp [words, ofWords?, binary?, ternary?, -Nat.toString_eq_repr, bitIndex_text, Operand.ofText_text,
        Register.ofText_text]
  | jp cond addr | call cond addr =>
    cases cond <;> simp [words, ofWords?, unary?, binary?, hconstant, constant_text, Condition.ofText_text]
  | jpPair pair => cases pair <;> rfl
  | jr cond offset => cases cond <;> simp [words, ofWords?, unary?, binary?, offset_text, Condition.ofText_text]
  | djnz offset => simp [words, ofWords?, unary?, offset_text]
  | ret cond =>
    rcases cond with _ | cc
    · rfl
    · cases cc <;> rfl
  | rst vector => simp [words, ofWords?, unary?, Operand.ofText_text]
  | inA port => simp [words, ofWords?, binary?, port_text]
  | outA port => simp [words, ofWords?, binary?, port_text]
  | inC reg | outC reg =>
    rcases reg with _ | r
    · rfl
    · cases r <;> rfl
  | unknown lead opcode => cases lead <;> simp [words, ofWords?, unary?, Hex.toList_byte, Hex.byte_digits]
  | _ => rfl

lemma ofWords_cutLine (op : Op) : ofWords? (cutLine op.text) = some op := by
  rw [text_eq_line, cutLine_line op.mnemonic_unbroken op.arguments_unbroken, ofWords_words]

def ofText? (s : String) : Option Op :=
  (ofWords? (cutLine s)).filter fun op => op.text == s

theorem ofText_iff_text {s : String} {op : Op} : ofText? s = some op ↔ op.text = s := by
  rw [ofText?, Option.filter_eq_some_iff, beq_iff_eq]
  refine and_iff_right_of_imp ?_
  rintro rfl
  exact op.ofWords_cutLine

example : ofText? "RLC A" = some (shift .rlc (.reg .a) none) ∧ ofText? "RLCA" = some (rotateA .rlc) ∧
    ofText? "LD A,(IX-$02)" = some (load (.reg .a) (.indexed .ix 0xFE)) := by decide

lemma text_injective : Function.Injective text := fun op op' htext => by
  have hread : ofText? op.text = some op := ofText_iff_text.mpr rfl
  rw [htext, ofText_iff_text.mpr rfl] at hread
  exact (Option.some.inj hread).symm

end Op

end Z80Machine
