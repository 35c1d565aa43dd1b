import ShieldedPayments.Keys.Basic

/-!
# Keys in logs

How keys are shown where secrets must not appear: the private parts are left out.
-/

namespace ShieldedPayments

variable {F G : Type} [ScalarField F] [PointGroup F G]

/-- A named key with its public spend key byte by byte and nothing secret. -/
def describeKey (name : String) (publicSpend : G) : String :=
  let shown := ", ".intercalate ((PointGroup.encode publicSpend).map fun x => toString x.toNat)
  name ++ " \x7b public_spend: CompressedRistretto: [" ++ shown ++ "], .. \x7d"

/-- A private key, with nothing of it shown (`PrivateKey::fmt`). -/
def PrivateKey.describe (_ : PrivateKey F) : String :=
  "PrivateKey(..)"

/-- A viewing key without its secret (`ViewingKey::fmt`). -/
def ViewingKey.describe (key : ViewingKey F G) : String :=
  describeKey "ViewingKey" key.publicSpend

/-- A one-time-address key without its secret (`OtaKey::fmt`). -/
def OtaKey.describe (key : OtaKey F G) : String :=
  describeKey "OtaKey" key.publicSpend

end ShieldedPayments
