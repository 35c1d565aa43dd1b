import ShieldedPayments.Bytes

/-!
# Hexadecimal text

Two lower-case digits per byte.
-/

namespace ShieldedPayments.Text.Hex

/-- The digit for a number below sixteen. -/
def digit (n : Nat) : Char :=
  if n < 10 then Char.ofNat (48 + n) else Char.ofNat (87 + n)

/-- The number of a lower-case digit. -/
def digitValue? (c : Char) : Option Nat :=
  if '0' ≤ c ∧ c ≤ '9' then some (c.toNat - 48)
  else if 'a' ≤ c ∧ c ≤ 'f' then some (c.toNat - 87)
  else none

/-- The text of a byte string. -/
def encode (b : Bytes) : String :=
  String.ofList (b.flatMap fun x => [digit (x.toNat / 16), digit (x.toNat % 16)])

/-- The bytes of a list of digits. -/
def ofDigits? : List Char → Option Bytes
  | [] => some []
  | [_] => none
  | high :: low :: rest => do
    let h ← digitValue? high
    let l ← digitValue? low
    let tail ← ofDigits? rest
    return (16 * h + l).toUInt8 :: tail

/-- The byte string with the given text. -/
def decode? (s : String) : Option Bytes :=
  ofDigits? s.toList

end ShieldedPayments.Text.Hex
