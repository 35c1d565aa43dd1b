import ShieldedPayments.Group.Basic
import ShieldedPayments.Fault

/-!
# Pedersen commitments

Commitments over the bases of the roles: `commitAt` hides one value, `commitAll` combines all five
parts, and `commitSelected` any selection of them. A coin's serial number is the base of spend keys
divided by the sum of the spend key and the coin's derivator.
-/

namespace ShieldedPayments.Pedersen

variable {F G : Type} [ScalarField F] [PointGroup F G]

/-- The commitment to `value` under the base of a role, blinded by `rand`
(`PedersenGens::commit_at_index`). -/
def commitAt (role : Role) (value rand : F) : G :=
  value • (pedersen : PedersenBases G).base role + rand • (pedersen : PedersenBases G).blinding

/-- The combination of the bases of all roles (`PedersenGens::commit_all`). -/
def commitAll (spendKey value derivator shard blinding : F) : G :=
  let bases : PedersenBases G := pedersen
  combination
    [(spendKey, bases.spendKey), (value, bases.value), (derivator, bases.derivator),
      (shard, bases.shard), (blinding, bases.blinding)]

/-- The combination of the bases with the given numbers (`PedersenGens::multi_commit`). -/
def commitSelected (values : List F) (numbers : List Nat) : Outcome G := do
  ensure (values.length == numbers.length) (.invalidInput "commitment values and indices differ")
  let bases ← numbers.mapM fun n => do
    let role ← require (Role.ofNat? n) (.invalidInput "generator index out of range")
    return (pedersen : PedersenBases G).base role
  return combination (values.zip bases)

/-- The serial number of a coin with the given derivator under the given spend key
(`derive_serial_number`). -/
def serialNumber (spendKey derivator : F) : G :=
  baseMultiple (spendKey + derivator)⁻¹

end ShieldedPayments.Pedersen
