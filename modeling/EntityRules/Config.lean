/-!
# `EntityRules.Config`: the settings of the engine

Three settings: which struct stands for users, how long an ownership path may
be, and whether guards and checks of a known kind other than boolean are
refused.
-/

set_option autoImplicit false

namespace EntityRules

/-- The settings of the engine. -/
structure Config where
  /-- The struct that every ownership path must end at. -/
  userStruct : String := "User"
  /-- The greatest number of hops of an ownership path. -/
  maxPathDepth : Nat := 32
  /-- Whether a guard or check known to be no boolean is refused. -/
  requireBoolean : Bool := true
deriving DecidableEq, Repr

end EntityRules
