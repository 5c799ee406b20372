import Z80Machine.Log.Level
import Z80Machine.Text.Blank
import Z80Machine.Text.Fields
import Z80Machine.Text.Quoted

/-! Log filters: a gate for everything, and others for targets by the start of their names. Of several that fit a
target the longest counts, and of equals the last. -/

namespace Z80Machine

namespace Gate

def all : List Gate :=
  [.off, .upTo .error, .upTo .warn, .upTo .info, .upTo .debug, .upTo .trace]

def ofText? (cs : List Char) : Option Gate :=
  all.find? fun g => Text.lower g.text == Text.lower (String.ofList cs)

end Gate

structure Filter where
  fallback : Gate := .upTo .info
  targets : List (List Char × Gate) := []
  deriving DecidableEq, Repr

namespace Filter

def longest : List (List Char × Gate) → Option (List Char × Gate)
  | [] => none
  | t :: rest =>
    match longest rest with
    | none => some t
    | some u => some (if u.1.length < t.1.length then t else u)

def levelFor (f : Filter) (target : String) : Gate :=
  let fitting := f.targets.filter fun t => t.1.isPrefixOf target.toList
  ((longest fitting).map Prod.snd).getD f.fallback

def maxGate (f : Filter) : Gate :=
  f.targets.foldl (fun g t => g.max t.2) f.fallback

def add? (f : Filter) (part : List Char) : Option Filter :=
  match Text.cut? '=' part with
  | some (target, level) => do
    let gate ← Gate.ofText? (Text.trimList level)
    return { f with targets := f.targets ++ [(Text.trimList target, gate)] }
  | none => do return { f with fallback := ← Gate.ofText? part }

def ofText? (s : String) : Option Filter :=
  let parts := (Text.fields (· == ',') s.toList).map Text.trimList
  (parts.filter (!·.isEmpty)).foldlM add? {}

def complaint (s : String) : String :=
  "invalid log filter " ++ Text.quoted s

end Filter

end Z80Machine
