import ShieldedPayments.Argument.HiddenSerial
import ShieldedPayments.Argument.Range
import ShieldedPayments.Argument.RingMember
import ShieldedPayments.Argument.Serial
import ShieldedPayments.Proofs.Cursor

/-!
# Arguments are read from buffers

The decoders of all arguments, as programs that read from a buffer. Each denotes the reader of its
argument, so that decoding stays within the buffer.
-/

namespace ShieldedPayments

variable {F G : Type} [ScalarField F] [PointGroup F G]

open ReadProgram

namespace SerialProof

/-- Reads the six elements of a proof from a buffer of their size. -/
def program : ReadProgram (SerialProof F G) :=
  guarded (·.length == size) (.malformedEncoding "serial number no-privacy proof length") nofun do
    let serial ← point
    let publicKey ← point
    let derivator ← scalar
    let keyMask ← point
    let serialMask ← point
    let response ← scalar
    return ⟨⟨serial, publicKey, derivator⟩, keyMask, serialMask, response⟩

theorem result_program (b : Bytes) :
    (program : ReadProgram (SerialProof F G)).reader.result b = ofBytes b :=
  result_guarded _ _ _ b

end SerialProof

namespace HiddenSerialProof

/-- Reads the nine elements of a proof from a buffer of their size. -/
def program : ReadProgram (HiddenSerialProof F G) :=
  guarded (·.length == size) (.malformedEncoding "serial number privacy proof length") nofun do
    let serial ← point
    let derivatorCommitment ← point
    let keyMask ← point
    let derivatorMask ← point
    let serialMask ← point
    let key ← scalar
    let keyBlinding ← scalar
    let derivator ← scalar
    let derivatorBlinding ← scalar
    return {
      serial, derivatorCommitment, keyMask, derivatorMask, serialMask
      response := ⟨key, keyBlinding, derivator, derivatorBlinding⟩ }

theorem result_program (b : Bytes) :
    (program : ReadProgram (HiddenSerialProof F G)).reader.result b = ofBytes b :=
  result_guarded _ _ _ b

end HiddenSerialProof

namespace RingProof

/-- Reads one element for each bit. -/
def perBitProgram {α : Type} (program : ReadProgram α) : ReadProgram (Vector α ringDepth) := do
  let a ← program
  let b ← program
  let c ← program
  return #v[a, b].push c

/-- Reads the elements of a proof from a buffer of their size. -/
def program : ReadProgram (RingProof F G) :=
  guarded (·.length == size) (.malformedEncoding "one-out-of-many proof length") nofun do
    let cl ← perBitProgram point
    let ca ← perBitProgram point
    let cb ← perBitProgram point
    let cd ← perBitProgram point
    let f ← perBitProgram scalar
    let za ← perBitProgram scalar
    let zb ← perBitProgram scalar
    let zd ← scalar
    return { cl, ca, cb, cd, f, za, zb, zd }

theorem result_program (b : Bytes) :
    (program : ReadProgram (RingProof F G)).reader.result b = ofBytes b :=
  result_guarded _ _ _ b

end RingProof

namespace InnerProductProof

/-- Reads the two points of a round. -/
def roundProgram : ReadProgram (G × G) := do
  let l ← point
  let r ← point
  return (l, r)

/-- Reads a proof with a bounded number of rounds. -/
def program : ReadProgram (InnerProductProof F G) := do
  let count := (← .byte).toNat
  if maxRounds < count then refuse (.malformedEncoding "inner product round count") nofun
  let rounds ← times roundProgram count
  let a ← scalar
  let b ← scalar
  let p ← point
  return ⟨rounds, a, b, p⟩

theorem reader_program : (program : ReadProgram (InnerProductProof F G)).reader = reader := by
  have hround : (roundProgram : ReadProgram (G × G)).reader = roundReader := rfl
  unfold program reader
  simp only [reader_bind, reader_byte, reader_ite, reader_refuse, reader_pure, reader_times,
    reader_scalar, reader_point, hround]

end InnerProductProof

namespace RangeProof

/-- Reads the version and the number of commitments. -/
def headProgram : ReadProgram (UInt8 × Nat) := do
  let first ← .byte
  if first ≠ 0 then return (1, first.toNat)
  else
    let version ← .byte
    if version < firstNamedVersion then
      refuse (.malformedEncoding "range proof version prefix") nofun
    return (version, (← .byte).toNat)

/-- Reads a proof. -/
def program : ReadProgram (RangeProof F G) := do
  let (version, count) ← headProgram
  if count = 0 ∨ maxOutputs < count then
    refuse (.malformedEncoding "range proof commitment count") nofun
  let commitments ← times point count
  let a ← point
  let s ← point
  let t1 ← point
  let t2 ← point
  let tauX ← scalar
  let tHat ← scalar
  let mu ← scalar
  let argument ← InnerProductProof.program
  finish
  return { version, commitments, a, s, t1, t2, tauX, tHat, mu, argument }

theorem reader_program : (program : ReadProgram (RangeProof F G)).reader = reader := by
  have hhead : headProgram.reader = headReader := by
    unfold headProgram headReader
    simp only [reader_bind, reader_byte, reader_ite, reader_refuse, reader_pure]
  unfold program reader
  simp only [reader_bind, reader_ite, reader_refuse, reader_pure, reader_times, reader_scalar,
    reader_point, reader_finish, InnerProductProof.reader_program, hhead]

theorem result_program (b : Bytes) :
    (program : ReadProgram (RangeProof F G)).reader.result b = ofBytes b := by
  rw [reader_program, ofBytes]

end RangeProof

end ShieldedPayments
