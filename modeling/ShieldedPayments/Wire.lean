import ShieldedPayments.Group.Basic
import ShieldedPayments.Fault

/-!
# The byte layout of fields

Readers take fields from the front of a byte string; a reader that fails keeps what it had consumed
before. For each field there is a writer with the layout that the reader expects:

* an optional element is a length byte, 0 or 32, and the element;
* a list of points is a count byte and the points, each as an optional element that is present;
* a byte string is preceded by its length in one, two or four bytes.

Counts and lengths are written modulo their width, except that one-byte lengths cut the bytes
themselves to 255.
-/

namespace ShieldedPayments

/-- Computations that consume bytes from the front of a byte string and may fail. -/
abbrev Reader := ExceptT Fault (StateM Bytes)

namespace Reader

/-- Runs a reader on a byte string: its result, and the bytes it left. -/
def runOn {α : Type} (r : Reader α) (b : Bytes) : Outcome α × Bytes :=
  (ExceptT.run r).run b

/-- The result of a reader on a whole byte string, whatever it leaves. -/
def result {α : Type} (r : Reader α) (b : Bytes) : Outcome α :=
  (r.runOn b).1

/-- The bytes not yet consumed (`Reader::rest`). -/
def rest : Reader Bytes :=
  get

/-- One byte (`Reader::read_u8`). -/
def byte : Reader UInt8 := do
  match ← rest with
  | [] => throw (.malformedEncoding "truncated buffer")
  | x :: tail =>
    set tail
    return x

/-- The next `n` bytes; fewer are not consumed (`Reader::read_bytes`). -/
def bytes (n : Nat) : Reader Bytes := do
  let b ← rest
  let taken := b.take n
  if taken.length = n then
    set (b.drop n)
    return taken
  else throw (.malformedEncoding "truncated buffer")

/-- A number of `n` bytes, most significant first (`read_u16_be`, `read_u32_be`, `read_u64_be`). -/
def number (n : Nat) : Reader Nat := do
  return (← bytes n).toNatBE

/-- Refuses bytes that are left over (`Reader::finish`). -/
def finish : Reader Unit := do
  if (← rest).isEmpty then return () else throw (.malformedEncoding "trailing bytes")

/-- A byte string preceded by its length in `width` bytes (`read_len_prefixed`,
`read_len16_prefixed`, `read_len32_prefixed`). -/
def prefixed (width : Nat) : Reader Bytes := do
  bytes (← number width)

/-- The results of reading `n` times. -/
def times {α : Type} (r : Reader α) : (n : Nat) → Reader (List α)
  | 0 => return []
  | n + 1 => do
    let a ← r
    return a :: (← times r n)

/-- As many results as a count byte says. -/
def counted {α : Type} (r : Reader α) : Reader (List α) := do
  times r (← byte).toNat

end Reader

section Elements

variable {F G : Type} [ScalarField F] [PointGroup F G]

/-- The point with this encoding (`point_from_bytes`). -/
def pointOfBytes (b : Bytes) : Outcome G :=
  if b.length = elementSize then
    require (PointGroup.decode b) (.invalidCurveElement "point decompress")
  else .error (.malformedEncoding "point length")

/-- The scalar with this encoding (`scalar_from_bytes`). -/
def scalarOfBytes (b : Bytes) : Outcome F :=
  if b.length = elementSize then
    require (ScalarField.decode b) (.invalidCurveElement "non-canonical scalar")
  else .error (.malformedEncoding "scalar length")

namespace Reader

/-- A point without a length (`Reader::read_point`). -/
def point : Reader G := do
  pointOfBytes (← bytes elementSize)

/-- A scalar without a length (`Reader::read_scalar`). -/
def scalar : Reader F := do
  scalarOfBytes (← bytes elementSize)

/-- An optional element, read by `r` if its length byte is 32. -/
def optional {α : Type} (r : Reader α) (subject : String) : Reader (Option α) := do
  let length := (← byte).toNat
  if length = 0 then return none
  else if length = elementSize then return some (← r)
  else throw (.malformedEncoding subject)

/-- An optional point (`Reader::read_opt_point`). -/
def optPoint : Reader (Option G) :=
  optional point "point field length"

/-- An optional scalar (`Reader::read_opt_scalar`). -/
def optScalar : Reader (Option F) :=
  optional scalar "scalar field length"

/-- A point with a length byte (`Reader::read_prefixed_point`). -/
def prefixedPoint : Reader G := do
  match ← optPoint with
  | some p => return p
  | none => throw (.malformedEncoding "missing point")

/-- A list of points (`Reader::read_point_list`). -/
def points : Reader (List G) :=
  counted prefixedPoint

end Reader

end Elements

namespace Writer

/-- A number in `width` bytes, most significant first. -/
def number (width n : Nat) : Bytes :=
  Bytes.ofNatBE width n

/-- A count byte. -/
def count (n : Nat) : Bytes :=
  [n.toUInt8]

/-- A byte string preceded by its length in `width` bytes (`write_len16_prefixed`,
`write_len32_prefixed`). -/
def prefixed (width : Nat) (b : Bytes) : Bytes :=
  number width b.length ++ b

/-- At most 255 bytes of a byte string, preceded by a length byte (`write_len_prefixed`). -/
def shortPrefixed (b : Bytes) : Bytes :=
  count (b.take 255).length ++ b.take 255

/-- The items of a list after a count byte. -/
def counted {α : Type} (item : α → Bytes) (items : List α) : Bytes :=
  count items.length ++ items.flatMap item

variable {F G : Type} [ScalarField F] [PointGroup F G]

/-- An optional point (`write_opt_point`). -/
def optPoint : Option G → Bytes
  | some p => count elementSize ++ PointGroup.encode p
  | none => count 0

/-- An optional scalar (`write_opt_scalar`). -/
def optScalar : Option F → Bytes
  | some s => count elementSize ++ ScalarField.encode s
  | none => count 0

/-- A list of points (`write_point_list`). -/
def points (ps : List G) : Bytes :=
  counted (fun p => optPoint (some p)) ps

end Writer

/-- A 64-bit number without leading zero bytes, most significant first; zero is empty
(`u64_to_be_trimmed`). -/
def trimmedNumber (v : UInt64) : Bytes :=
  (Bytes.ofNatBE 8 v.toNat).dropWhile (· == 0)

/-- The 64-bit number given by at most eight bytes, most significant first
(`u64_from_be_trimmed`). -/
def numberOfTrimmed (b : Bytes) : Outcome UInt64 :=
  if b.length ≤ 8 then .ok b.toNatBE.toUInt64
  else .error (.malformedEncoding "value exceeds 8 bytes")

end ShieldedPayments
