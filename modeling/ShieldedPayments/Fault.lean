/-!
# Faults

Why an operation refuses its input. Nine causes have a fixed wording; the tenth, `undefined`, is
for operations that have no result at all: a remainder by zero shards, or an element beyond the end
of a list. Callers that turn a refusal into a plain "no" do so for the nine worded causes only.

Here and in the other modules of the running program, a docstring that ends its first sentence with
a name in brackets says which function, type or constant of the payment program, or which part of a
function, the definition is.
-/

namespace ShieldedPayments

/-- The cause for which an operation refuses its input (`PrivacyError`). -/
inductive Fault where
  /-- A length is out of range or the bytes end too early. -/
  | malformedEncoding (subject : String)
  /-- Bytes of the right length denote no point or no scalar. -/
  | invalidCurveElement (subject : String)
  /-- A recomputed commitment disagrees with the stored one. -/
  | commitmentMismatch (subject : String)
  /-- Key material is missing, or a ciphertext does not open. -/
  | decryptionFailure (subject : String)
  /-- A coin of the wrong kind. -/
  | typeMismatch (expected found : String)
  /-- The search for a one-time address ran out of indices. -/
  | otaExhausted (tries : UInt32)
  /-- The packed shard digits cannot represent this many shards. -/
  | unsupportedShardConfig (shards : UInt8)
  /-- An identity that a proof must satisfy does not hold. -/
  | proofVerificationFailed (subject : String)
  /-- A precondition on the caller's input does not hold. -/
  | invalidInput (subject : String)
  /-- The operation has no result on this input. -/
  | undefined
  deriving DecidableEq, Repr

namespace Fault

/-- The wording of a fault. -/
def message : Fault → String
  | malformedEncoding subject => "malformed encoding: " ++ subject
  | invalidCurveElement subject => "invalid curve element: " ++ subject
  | commitmentMismatch subject => "commitment mismatch: " ++ subject
  | decryptionFailure subject => "decryption failure: " ++ subject
  | typeMismatch expected found => "type mismatch: expected " ++ expected ++ ", found " ++ found
  | otaExhausted tries => "no one-time address found after " ++ toString tries.toNat ++ " tries"
  | unsupportedShardConfig shards =>
    "unsupported shard configuration: " ++ toString shards.toNat ++ " shards"
  | proofVerificationFailed subject => "proof verification failed: " ++ subject
  | invalidInput subject => "invalid input: " ++ subject
  | undefined => "undefined operation"

end Fault

/-- The result of an operation that may refuse its input. -/
abbrev Outcome (α : Type) := Except Fault α

/-- The value of an optional field, or a fault if it is absent. -/
def require {α : Type} (x : Option α) (fault : Fault) : Outcome α :=
  match x with
  | some a => .ok a
  | none => .error fault

/-- Refuses with the given fault unless the condition holds. -/
def ensure (condition : Bool) (fault : Fault) : Outcome Unit :=
  if condition then .ok () else .error fault

end ShieldedPayments
