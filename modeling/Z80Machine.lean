import Z80Machine.Main
import Z80Machine.TestVector.Opcodes
import Z80Machine.TestVector.Reading
import Z80Machine.Proofs.Genuine
import Z80Machine.Proofs.Transparency
import Z80Machine.Proofs.Latch
import Z80Machine.Proofs.Waking
import Z80Machine.Proofs.Handler
import Z80Machine.Proofs.FlipFlops
import Z80Machine.Proofs.Contention
import Z80Machine.Proofs.Replay
import Z80Machine.Proofs.Frames
import Z80Machine.Proofs.Protection
import Z80Machine.Proofs.Twins
import Z80Machine.Proofs.Reset
import Z80Machine.Proofs.Refresh
import Z80Machine.Proofs.Polling
import Z80Machine.Proofs.Draining
import Z80Machine.Proofs.Copying
import Z80Machine.Proofs.Searching
import Z80Machine.Proofs.Streaming
import Z80Machine.Proofs.Renaming
import Z80Machine.Proofs.Prefixes
import Z80Machine.Proofs.Substitution
import Z80Machine.Proofs.Decoding
import Z80Machine.Proofs.Footprint
import Z80Machine.Proofs.Displacement
import Z80Machine.Proofs.Nearly
import Z80Machine.Proofs.Chains
import Z80Machine.Proofs.LongSums
import Z80Machine.Proofs.Branches
import Z80Machine.Proofs.PackedDecimal
import Z80Machine.Proofs.TwosComplement
import Z80Machine.Proofs.WordSums
import Z80Machine.Proofs.ByteArithmetic
import Z80Machine.Proofs.LongShifts
import Z80Machine.Proofs.Nesting
import Z80Machine.Proofs.Detection
import Z80Machine.Proofs.Checksum
import Z80Machine.Proofs.Deeds
import Z80Machine.Proofs.Staleness
import Z80Machine.Proofs.Widths
import Z80Machine.Proofs.Window
import Z80Machine.Proofs.Checked
import Z80Machine.Proofs.Assembly
import Z80Machine.Proofs.Cutting
import Z80Machine.Proofs.Disassembly
import Z80Machine.Proofs.Filtering
import Z80Machine.Proofs.Hexadecimal
import Z80Machine.Proofs.Loading
import Z80Machine.Proofs.Disassembly
import Z80Machine.Proofs.Harmless
import Z80Machine.Proofs.Naming
