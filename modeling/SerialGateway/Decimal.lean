/-!
# Decimal text

What this module delivers: the decimal form of an integer, with a minus sign in
front of a negative one and no leading zeros (`decimal`).
-/

set_option autoImplicit false

namespace SerialGateway

/-- The decimal form of an integer. -/
def decimal : Int → String
  | .ofNat n => Nat.repr n
  | .negSucc n => "-" ++ Nat.repr (n + 1)

end SerialGateway
