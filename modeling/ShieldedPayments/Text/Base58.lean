import ShieldedPayments.Hash.Sha2

/-!
# Base 58 text with a checksum

A byte string is followed by the first four bytes of its double SHA-256 digest, read as a number,
most significant byte first, and written in base 58. Each zero byte at the front of the string is
written as one more leading zero digit.
-/

namespace ShieldedPayments.Text.Base58

/-- The digits in the order of their values. -/
def alphabet : List Char :=
  "123456789ABCDEFGHJKLMNPQRSTUVWXYZabcdefghijkmnopqrstuvwxyz".toList

/-- The digits of a number in a base of at least two, most significant first; zero has none. -/
def digits (base : Nat) (hbase : 2 ≤ base) (n : Nat) : List Nat :=
  if n = 0 then []
  else digits base hbase (n / base) ++ [n % base]
termination_by n
decreasing_by exact Nat.div_lt_self (by omega) hbase

/-- The number with the given digits, most significant first. -/
def ofDigits (base : Nat) (ds : List Nat) : Nat :=
  ds.foldl (fun high d => base * high + d) 0

/-- The text of a byte string, without a checksum. -/
def encode (b : Bytes) : String :=
  let zeros := (b.takeWhile (· == 0)).length
  let ds := List.replicate zeros 0 ++ digits 58 (by decide) b.toNatBE
  String.ofList (ds.map fun d => alphabet.getD d '1')

/-- The byte string with the given text, without a checksum. -/
def decode? (s : String) : Option Bytes := do
  let ds ← s.toList.mapM alphabet.idxOf?
  let zeros := (ds.takeWhile (· == 0)).length
  return List.replicate zeros 0 ++ (digits 256 (by decide) (ofDigits 58 ds)).map Nat.toUInt8

/-- The four bytes that guard a byte string. -/
def checksum (b : Bytes) : Bytes :=
  (Hash.Sha256.digest (Hash.Sha256.digest b)).take 4

/-- The text of a byte string with its checksum. -/
def encodeChecked (b : Bytes) : String :=
  encode (b ++ checksum b)

/-- The byte string with the given text, if its checksum is right. -/
def decodeChecked? (s : String) : Option Bytes := do
  let all ← decode? s
  let payload := all.take (all.length - 4)
  if 4 ≤ all.length ∧ all.drop (all.length - 4) = checksum payload then some payload else none

end ShieldedPayments.Text.Base58
