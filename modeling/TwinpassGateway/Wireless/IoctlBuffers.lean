import TwinpassGateway.Wireless.IoctlHandlers

/-!
When the ioctl handlers keep the discipline of their buffers: each one released exactly once, none used after its
release, no null pointer used.
-/

namespace TwinpassGateway.Wireless

open Foundation MemOp

section
variable {live held : List Buffer} {o : Outcomes}

end

/-! ### `vnet_ieee80211_ioctl` -/

end TwinpassGateway.Wireless
