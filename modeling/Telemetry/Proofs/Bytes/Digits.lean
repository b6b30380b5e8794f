import Mathlib.Data.List.Induction
import Telemetry.Bytes.Bits

namespace Telemetry.Bytes

end Telemetry.Bytes
