import Telemetry.Proofs.Bytes.Digits
import Telemetry.Proofs.Decode.Findings

namespace Telemetry.Decode

open Bytes (Cursor bigEndian)
open Layout (Arena BitField Window Field totalBits frame frameArena build_frameArena)

end Telemetry.Decode
