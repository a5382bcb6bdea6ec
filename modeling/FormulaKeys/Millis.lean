/-!
Durations in whole milliseconds, below 2 ^ 32.
-/

set_option autoImplicit false

namespace FormulaKeys

abbrev Millis := UInt32

def Millis.decimal (time : Millis) : String := time.toNat.repr

end FormulaKeys
