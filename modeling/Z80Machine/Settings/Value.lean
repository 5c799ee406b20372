import Z80Machine.Double

/-! Values of a settings document, and how records are read from them. Absent fields keep their defaults, unknown ones
are ignored, and a value of the wrong kind or out of range spoils the whole document. -/

namespace Z80Machine.Settings

inductive Value where
  | null
  | boolean (b : Bool)
  | integer (n : Int)
  | float (x : Double)
  | string (s : String)
  | date
  | list (items : List Value)
  | table (fields : List (String × Value))
  deriving Inhabited

namespace Value

def boolean? : Value → Option Bool
  | boolean b => some b
  | _ => none

def unsigned? (bits : Nat) : Value → Option Nat
  | integer n => if 0 ≤ n && n.toNat < 1 <<< bits then some n.toNat else none
  | _ => none

def float? : Value → Option Double
  | float x => some x
  | integer n => some (.ofFloat (Float.ofInt n))
  | _ => none

def isVoid : Value → Bool
  | null => true
  | list [] => true
  | table [] => true
  | _ => false

def name? : Value → Option String
  | string s => some s
  | table [(s, v)] => if v.isVoid then some s else none
  | _ => none

def field? (v : Value) (position : Nat) (name : String) : Option (Option Value) :=
  match v with
  | table fields => some ((fields.find? fun f => f.1 == name).map Prod.snd)
  | list items => some items[position]?
  | date => some none
  | _ => none

def fieldOr {α : Type} (v : Value) (position : Nat) (name : String) (default : α) (read : Value → Option α) :
    Option α := do
  match ← v.field? position name with
  | some w => read w
  | none => return default

end Value

end Z80Machine.Settings
