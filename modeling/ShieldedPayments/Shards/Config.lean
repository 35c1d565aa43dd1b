import ShieldedPayments.Shards.Basic
import ShieldedPayments.Text.Json

/-!
# Shard parameters as JSON

Parameters are read from an object with the members `numShards` and `maxTriesOta`, or from an array
with the two numbers in this order. What is missing takes its default; other members are passed over;
a member given twice, or a number that does not fit, is refused.
-/

namespace ShieldedPayments.ShardParams

open Text.Json

/-- What has been read of the parameters. -/
structure Draft where
  numShards : Option UInt8 := none
  maxTries : Option UInt32 := none

/-- The parameters of a draft, with the defaults for what is missing. -/
def Draft.complete (d : Draft) : ShardParams :=
  let default : ShardParams := {}
  ⟨d.numShards.getD default.numShards, d.maxTries.getD default.maxTries⟩

/-- The number of shards at the front of a text. -/
def readNumShards (s : List Char) : Option (UInt8 × List Char) := do
  let (n, rest) ← readUnsigned s
  if n < UInt8.size then some (n.toUInt8, rest) else none

/-- The bound on the search at the front of a text. -/
def readMaxTries (s : List Char) : Option (UInt32 × List Char) := do
  let (n, rest) ← readUnsigned s
  if n < UInt32.size then some (n.toUInt32, rest) else none

/-- The colon after a member's name. -/
def readColon (s : List Char) : Option (List Char) :=
  match skipBlanks s with
  | ':' :: rest => some rest
  | _ => none

/-- One member of an object, after the opening quote of its name. -/
def readMember (d : Draft) (s : List Char) : Option (Draft × List Char) := do
  let (name, rest) ← readString s
  if name = "numShards" then
    if d.numShards.isSome then none
    else
      let (n, rest) ← readNumShards (← readColon rest)
      return ({ d with numShards := some n }, rest)
  else if name = "maxTriesOta" then
    if d.maxTries.isSome then none
    else
      let (n, rest) ← readMaxTries (← readColon rest)
      return ({ d with maxTries := some n }, rest)
  else
    return (d, ← skipValue (← readColon rest))

/-- The members of an object after the first one, and its closing bracket. -/
def readMembers : (fuel : Nat) → Draft → List Char → Option (Draft × List Char)
  | 0, _, _ => none
  | fuel + 1, d, s =>
    match skipBlanks s with
    | '}' :: rest => some (d, rest)
    | ',' :: rest =>
      match skipBlanks rest with
      | '"' :: rest => do
        let (d, rest) ← readMember d rest
        readMembers fuel d rest
      | _ => none
    | _ => none

/-- An object, after its opening bracket. -/
def readObject (s : List Char) : Option (Draft × List Char) :=
  match skipBlanks s with
  | '}' :: rest => some ({}, rest)
  | '"' :: rest => do
    let (d, rest) ← readMember {} rest
    readMembers (rest.length + 1) d rest
  | _ => none

/-- An array, after its opening bracket. -/
def readArray (s : List Char) : Option (Draft × List Char) :=
  match skipBlanks s with
  | ']' :: rest => some ({}, rest)
  | s => do
    let (n, rest) ← readNumShards s
    match skipBlanks rest with
    | ']' :: rest => return ({ numShards := some n }, rest)
    | ',' :: rest =>
      let (m, rest) ← readMaxTries rest
      match skipBlanks rest with
      | ']' :: rest => return (⟨some n, some m⟩, rest)
      | _ => none
    | _ => none

/-- The parameters in a JSON text, if it is well formed. -/
def parse? (text : String) : Option ShardParams := do
  let (d, rest) ←
    match skipBlanks text.toList with
    | '{' :: rest => readObject rest
    | '[' :: rest => readArray rest
    | _ => none
  if (skipBlanks rest).isEmpty then some d.complete else none

/-- The valid parameters in a JSON text (`PrivacyParams::from_json`). -/
def ofJson (text : String) : Outcome ShardParams := do
  let params ← require (parse? text) (.malformedEncoding "privacy params json")
  params.validate
  return params

/-- The parameters as a JSON object. -/
def toJson (params : ShardParams) : String :=
  "\x7b\"numShards\":" ++ toString params.numShards.toNat ++ ",\"maxTriesOta\":"
    ++ toString params.maxTries.toNat ++ "\x7d"

end ShieldedPayments.ShardParams
