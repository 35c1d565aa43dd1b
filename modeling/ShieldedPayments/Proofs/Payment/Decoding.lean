import ShieldedPayments.Payment.Basic
import ShieldedPayments.Proofs.Argument.Decoding
import ShieldedPayments.Proofs.Coin.Decoding

/-!
# Payments are read from buffers

The decoders of payments, as programs that read from a buffer. Each record inside a payment is decoded by
its own program in a buffer of its own.
-/

namespace ShieldedPayments

open ReadProgram

variable {F G : Type} [ScalarField F] [PointGroup F G]

namespace AccountPayment

/-- Reads a range proof behind a length of `width` bytes, which is zero if there is none. -/
def rangeProofProgram (width : Nat) : ReadProgram (Option (RangeProof F G)) := do
  let b ← prefixed width
  if b.isEmpty then return none
  else
    let proof ← .within b RangeProof.program
    return some proof

theorem reader_rangeProofProgram (width : Nat) :
    (rangeProofProgram width : ReadProgram (Option (RangeProof F G))).reader =
      rangeProofReader width := by
  unfold rangeProofProgram rangeProofReader
  simp only [reader_bind, reader_prefixed, reader_ite, reader_pure, reader_within,
    RangeProof.result_program]

/-- Reads a payment. -/
def program : ReadProgram (AccountPayment F G) := do
  if (← .byte) ≠ version then refuse (.malformedEncoding "proof v1 version") nofun
  let ringProofs ← counted (nested 2 RingProof.program)
  let hiddenSerialProofs ← counted (nested 2 HiddenSerialProof.program)
  let serialProofs ← counted (nested 1 SerialProof.program)
  let rangeProof ← rangeProofProgram 2
  let inputs ← counted (nested 1 AccountCoin.program)
  let outputs ← counted (dualPrefixed SealedCoin.program)
  let outputValues ← points
  let outputDerivators ← points
  let outputShards ← points
  let inputKey ← optPoint
  let inputValues ← points
  let inputDerivators ← points
  let inputShard ← optPoint
  let indices ← counted (number 8)
  finish
  return { ringProofs, hiddenSerialProofs, serialProofs, rangeProof, inputs, outputs, outputValues,
           outputDerivators, outputShards, inputKey, inputValues, inputDerivators, inputShard
           ledgerIndices := indices.map Nat.toUInt64 }

theorem result_program (b : Bytes) :
    (program : ReadProgram (AccountPayment F G)).reader.result b = ofBytes b := by
  have hprogram : (program : ReadProgram (AccountPayment F G)).reader = reader := by
    unfold program reader
    simp only [reader_bind, reader_byte, reader_ite, reader_refuse, reader_pure, reader_counted,
      reader_nested, reader_number, reader_dualPrefixed, reader_points, reader_optPoint,
      reader_finish, reader_rangeProofProgram, RingProof.result_program,
      HiddenSerialProof.result_program, SerialProof.result_program, AccountCoin.result_program,
      funext SealedCoin.result_program]
  rw [hprogram, ofBytes]

end AccountPayment

namespace OneTimePayment

/-- Reads a payment. -/
def program : ReadProgram (OneTimePayment F G) := do
  if (← .byte) ≠ version then refuse (.malformedEncoding "proof v2 version") nofun
  let rangeProof ← AccountPayment.rangeProofProgram 4
  let inputs ← counted (nested 4 OneTimeCoin.program)
  let outputs ← counted (nested 4 OneTimeCoin.program)
  finish
  return { rangeProof, inputs, outputs }

theorem result_program (b : Bytes) :
    (program : ReadProgram (OneTimePayment F G)).reader.result b = ofBytes b := by
  have hprogram : (program : ReadProgram (OneTimePayment F G)).reader = reader := by
    unfold program reader
    simp only [reader_bind, reader_byte, reader_ite, reader_refuse, reader_pure, reader_counted,
      reader_nested, reader_finish, AccountPayment.reader_rangeProofProgram,
      OneTimeCoin.result_program]
  rw [hprogram, ofBytes]

end OneTimePayment

namespace Conversion

/-- Reads a conversion. -/
def program : ReadProgram (Conversion F G) := do
  if (← .byte) ≠ version then refuse (.malformedEncoding "conversion proof version") nofun
  let inputs ← counted (nested 4 AccountCoin.program)
  let outputs ← counted (nested 4 OneTimeCoin.program)
  let serialProofs ← counted (nested 1 SerialProof.program)
  finish
  return { inputs, outputs, serialProofs }

theorem result_program (b : Bytes) :
    (program : ReadProgram (Conversion F G)).reader.result b = ofBytes b := by
  have hprogram : (program : ReadProgram (Conversion F G)).reader = reader := by
    unfold program reader
    simp only [reader_bind, reader_byte, reader_ite, reader_refuse, reader_pure, reader_counted,
      reader_nested, reader_finish, AccountCoin.result_program, OneTimeCoin.result_program,
      SerialProof.result_program]
  rw [hprogram, ofBytes]

end Conversion

namespace AnyPayment

/-- The payment with an encoding that is read from a buffer. -/
def decode (b : Bytes) : Outcome (AnyPayment F G) :=
  match b with
  | [] => .error (.malformedEncoding "empty proof")
  | first :: _ =>
    if first = AccountPayment.version then (AccountPayment.program.decode b).map account
    else if first = OneTimePayment.version then (OneTimePayment.program.decode b).map oneTime
    else if first = Conversion.version then (Conversion.program.decode b).map conversion
    else .error (.malformedEncoding "unknown proof version")

theorem decode_eq (b : Bytes) : (decode b : Outcome (AnyPayment F G)) = ofBytes b := by
  cases b with
  | nil => rfl
  | cons first tail =>
    unfold decode ofBytes
    simp only [ReadProgram.decode_eq, AccountPayment.result_program, OneTimePayment.result_program,
      Conversion.result_program]

theorem defined_decode (b : Bytes) : (decode b : Outcome (AnyPayment F G)).Defined := by
  cases b with
  | nil => exact Outcome.defined_error nofun
  | cons first tail =>
    unfold decode
    simp only
    split
    · exact (ReadProgram.defined_decode _ _).map
    split
    · exact (ReadProgram.defined_decode _ _).map
    split
    · exact (ReadProgram.defined_decode _ _).map
    · exact Outcome.defined_error nofun

end AnyPayment

end ShieldedPayments
