/-!
This module contains the control characters.
-/

namespace HessianGo

namespace Text

def isControl (c : Char) : Bool :=
  c.toNat < 0x20 || (0x7f ≤ c.toNat && c.toNat < 0xa0)

end Text

end HessianGo
