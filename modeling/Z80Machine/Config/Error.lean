import Z80Machine.Config
import Z80Machine.Decimal.Shortest
import Z80Machine.Text.Blank
import Z80Machine.Text.Quoted

/-! Reading clock modes as people write them, and the wording of configuration errors. -/

namespace Z80Machine

def ConfigError.message : ConfigError → String
  | unknownClockMode text => "unknown clock mode " ++ Text.quoted text ++ " (expected 4mhz or 8mhz)"
  | invalidSpeedMultiplier multiplier =>
    "speed multiplier must be finite and positive, got " ++ Decimal.shortest multiplier
  | zeroChunk => "chunk size must be at least one cycle"

def ClockMode.parse (text : String) : Except ConfigError ClockMode :=
  match Text.lower (Text.trim text) with
  | "4" => .ok .standard
  | "4mhz" => .ok .standard
  | "standard" => .ok .standard
  | "normal" => .ok .standard
  | "8" => .ok .high
  | "8mhz" => .ok .high
  | "high" => .ok .high
  | "fast" => .ok .high
  | _ => .error (.unknownClockMode text)

end Z80Machine
