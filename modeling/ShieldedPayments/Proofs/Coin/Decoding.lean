import ShieldedPayments.Coin.Basic
import ShieldedPayments.Proofs.Coin.AccountCodec
import ShieldedPayments.Proofs.Cursor

/-!
# Coins are read from buffers

The decoders of coins and of what coins contain, as programs that read from a buffer. Behind a length of
one or two bytes, a program looks ahead for the record that a length of one byte would delimit, and that
slice is in range because it was compared with the bytes that are left (`ReadProgram.dualPrefixed`).
-/

namespace ShieldedPayments

namespace ReadProgram

variable {α : Type}

/-- A record that is decoded from a byte string behind a length of one or two bytes. -/
def dualPrefixed (inner : ReadProgram α) : ReadProgram α := do
  match ← .rest with
  | [] => refuse (.malformedEncoding "missing length prefix") nofun
  | first :: tail =>
    let length := first.toNat
    if length = 0 then nested 2 inner
    else if h : 1 + length ≤ (first :: tail).length then
      let record ← .outcome (slice (first :: tail) 1 (1 + length))
        (defined_slice (Nat.le_add_right 1 length) h)
      match ← .attempt record inner with
      | some a =>
        let _ ← .bytes (1 + length)
        return a
      | none => nested 2 inner
    else refuse (.malformedEncoding "length prefix past end") nofun

/-- Looking ahead at a slice and reading past it amounts to taking its bytes off the front. -/
theorem runOn_dualPrefixed_cons (inner : ReadProgram α) (first : UInt8) (tail : Bytes) :
    (dualPrefixed inner).reader.runOn (first :: tail) =
      (Reader.dualPrefixed inner.reader.result).runOn (first :: tail) := by
  rw [Reader.runOn_dualPrefixed, dualPrefixed, reader_bind]
  show ((if first.toNat = 0 then nested 2 inner else _) : ReadProgram α).reader.runOn _ = _
  rw [reader_ite]
  by_cases hzero : first.toNat = 0
  · rw [if_pos hzero, if_pos hzero, reader_nested]
  rw [if_neg hzero, if_neg hzero]
  by_cases hle : first.toNat ≤ tail.length
  · have hcons : 1 + first.toNat ≤ (first :: tail).length := by
      rw [List.length_cons]
      omega
    have hslice : slice (first :: tail) 1 (1 + first.toNat) = .ok (tail.take first.toNat) := by
      rw [slice_eq (Nat.le_add_right _ _) hcons, Nat.add_comm, List.take_succ_cons,
        List.drop_succ_cons, List.drop_zero]
    rw [dif_pos hcons, if_pos (List.length_take_of_le hle), runOn_outcome_bind hslice, runOn_attempt_bind]
    -- Only if the slice can be decoded are its bytes read, which drops them and their length.
    cases inner.reader.result (tail.take first.toNat) with
    | error e => rfl
    | ok a =>
      show (Reader.bytes (1 + first.toNat) >>= fun _ => pure a : Reader α).runOn (first :: tail) = _
      rw [Reader.runOn_bind, Reader.runOn_bytes, if_pos hcons, Nat.add_comm, List.drop_succ_cons]
      rfl
  · rw [dif_neg, if_neg]
    · rfl
    · rw [List.length_take]
      omega
    · rw [List.length_cons]
      omega

theorem reader_dualPrefixed (inner : ReadProgram α) :
    (dualPrefixed inner).reader = Reader.dualPrefixed inner.reader.result := by
  funext b
  show (dualPrefixed inner).reader.runOn b = (Reader.dualPrefixed inner.reader.result).runOn b
  cases b with
  | nil => rfl
  | cons first tail => exact runOn_dualPrefixed_cons inner first tail

end ReadProgram

open ReadProgram

variable {F G : Type} [PointGroup F G]

/-! ## Pairs of points -/

/-- Reads both points of a ciphertext from a buffer of its size. -/
def ElGamalCiphertext.program : ReadProgram (ElGamalCiphertext G) :=
  guarded (·.length == size) (.malformedEncoding "elgamal ciphertext length") nofun do
    let c1 ← prefixedPoint
    let c2 ← prefixedPoint
    return ⟨c1, c2⟩

theorem ElGamalCiphertext.result_program (b : Bytes) :
    (program : ReadProgram (ElGamalCiphertext G)).reader.result b = ofBytes b := by
  rw [program, result_guarded, ofBytes, reader]
  simp only [reader_bind, reader_pure, reader_prefixedPoint]

namespace TxRandom

/-- Reads both points and the index from a buffer of their size. -/
def program : ReadProgram (TxRandom G) :=
  guarded (·.length == size) (.malformedEncoding "tx random length") nofun do
    let otaRandom ← point
    let index ← number 4
    let concealRandom ← point
    return ⟨otaRandom, index.toUInt32, concealRandom⟩

theorem result_program (b : Bytes) :
    (program : ReadProgram (TxRandom G)).reader.result b = ofBytes b :=
  result_guarded _ _ _ b

end TxRandom

/-! ## Ciphertexts -/

variable [ScalarField F]

namespace HybridCiphertext

/-- Cuts a ciphertext into its two parts. -/
def program (G : Type) {F : Type} [ScalarField F] [PointGroup F G] (b : Bytes) :
    ReadProgram HybridCiphertext :=
  if h : minSize ≤ b.length then do
    have hkey : ElGamalCiphertext.size ≤ b.length := (Nat.le_add_right _ _).trans h
    let key ← .outcome (slice b 0 ElGamalCiphertext.size) (defined_slice (Nat.zero_le _) hkey)
    let _ ← .within key (ElGamalCiphertext.program : ReadProgram (ElGamalCiphertext G))
    let message ← .outcome (slice b ElGamalCiphertext.size b.length) (defined_slice hkey le_rfl)
    return ⟨key, message⟩
  else refuse (.malformedEncoding "hybrid ciphertext too short") nofun

theorem reader_program (b : Bytes) : (program G b).reader = liftM (ofBytes G b) := by
  unfold program ofBytes
  by_cases h : minSize ≤ b.length
  · have hkey : ElGamalCiphertext.size ≤ b.length := (Nat.le_add_right _ _).trans h
    rw [dif_pos h, decide_eq_true h]
    simp only [reader_bind, reader_outcome, reader_within, reader_pure,
      ElGamalCiphertext.result_program, slice_zero hkey, slice_length hkey]
    show (liftM (ElGamalCiphertext.ofBytes (b.take ElGamalCiphertext.size)) >>= fun _ => pure _ :
      Reader HybridCiphertext) = liftM (ElGamalCiphertext.ofBytes (b.take _) >>= fun _ => _)
    cases (ElGamalCiphertext.ofBytes (b.take ElGamalCiphertext.size) :
      Outcome (ElGamalCiphertext G)) with
    | error e => rfl
    | ok ct => rfl
  · rw [dif_neg h, decide_eq_false h]
    rfl

end HybridCiphertext

/-! ## Coins -/

theorem defined_numberOfTrimmed (b : Bytes) : (numberOfTrimmed b).Defined := by
  unfold numberOfTrimmed
  split
  · exact Outcome.defined_ok _
  · exact Outcome.defined_error nofun

namespace AccountCoin

/-- Reads the fields of a coin. -/
def program : ReadProgram (AccountCoin F G) :=
  guarded (!·.isEmpty) (.malformedEncoding "empty plain coin") nofun do
    let publicKey ← optPoint
    let commitment ← optPoint
    let derivator ← optScalar
    let serialNumber ← optPoint
    let randomness ← optScalar
    let trimmed ← prefixed 1
    let value ← .outcome (numberOfTrimmed trimmed) (defined_numberOfTrimmed trimmed)
    let info ← prefixed 1
    return { publicKey, commitment, derivator, serialNumber, randomness, value, info }

theorem result_program (b : Bytes) :
    (program : ReadProgram (AccountCoin F G)).reader.result b = ofBytes b := by
  rw [program, result_guarded, ofBytes, reader]
  simp only [reader_bind, reader_pure, reader_outcome, reader_prefixed, reader_optPoint,
    reader_optScalar]

end AccountCoin

namespace SealedCoin

/-- Reads a sealed opening and a coin. -/
def program : ReadProgram (SealedCoin F G) :=
  guarded (!·.isEmpty) (.malformedEncoding "empty coin") nofun do
    let encrypted ← prefixed 1
    let encrypted ← if encrypted.isEmpty then pure none
      else do pure (some (← HybridCiphertext.program G encrypted))
    let details ← dualPrefixed AccountCoin.program
    return { details, encrypted }

theorem result_program (b : Bytes) :
    (program : ReadProgram (SealedCoin F G)).reader.result b = ofBytes b := by
  rw [program, result_guarded, ofBytes, reader]
  simp only [reader_bind, reader_pure, reader_ite, reader_prefixed, reader_dualPrefixed,
    HybridCiphertext.reader_program, funext AccountCoin.result_program]

end SealedCoin

namespace OneTimeCoin

/-- Reads public randomness with a length byte, which is zero if there is none. -/
def txRandomProgram : ReadProgram (Option (TxRandom G)) := do
  let length := (← .byte).toNat
  if length = 0 then return none
  else if length = TxRandom.size then
    let tx ← .within (← .bytes TxRandom.size) TxRandom.program
    return some tx
  else refuse (.malformedEncoding "tx random field length") nofun

/-- Reads the fields of a coin. The asset tag may be missing altogether. -/
def program : ReadProgram (OneTimeCoin F G) := do
  if (← .byte) ≠ version then refuse (.malformedEncoding "coin version") nofun
  let info ← prefixed 1
  let publicKey ← optPoint
  let commitment ← optPoint
  let keyImage ← optPoint
  let sharedRandom ← optScalar
  let sharedConcealRandom ← optScalar
  let txRandom ← txRandomProgram
  let mask ← optScalar
  let amount ← optScalar
  let assetTag ← if (← .rest).isEmpty then pure none else optPoint
  finish
  return { info, publicKey, commitment, keyImage, sharedRandom, sharedConcealRandom, txRandom, mask,
           amount, assetTag }

theorem result_program (b : Bytes) :
    (program : ReadProgram (OneTimeCoin F G)).reader.result b = ofBytes b := by
  have htx : (txRandomProgram : ReadProgram (Option (TxRandom G))).reader = txRandomReader := by
    unfold txRandomProgram txRandomReader
    simp only [reader_bind, reader_byte, reader_bytes, reader_within, reader_pure, reader_ite,
      reader_refuse, TxRandom.result_program]
  have hprogram : (program : ReadProgram (OneTimeCoin F G)).reader = reader := by
    unfold program reader
    simp only [reader_bind, reader_byte, reader_rest, reader_pure, reader_ite, reader_refuse,
      reader_prefixed, reader_optPoint, reader_optScalar, reader_finish, htx]
  rw [hprogram, ofBytes]

end OneTimeCoin

/-! ## Coins of either version -/

namespace InputCoin

/-- The coin with an encoding that is read from a buffer. -/
def decode (b : Bytes) : Outcome (InputCoin F G) :=
  match b with
  | [] => .error (.malformedEncoding "empty coin")
  | first :: _ =>
    if first = OneTimeCoin.version then (OneTimeCoin.program.decode b).map oneTime
    else (AccountCoin.program.decode b).map account

theorem decode_eq (b : Bytes) : (decode b : Outcome (InputCoin F G)) = ofBytes b := by
  cases b with
  | nil => rfl
  | cons first tail =>
    unfold decode ofBytes
    simp only [ReadProgram.decode_eq, OneTimeCoin.result_program, AccountCoin.result_program]

theorem defined_decode (b : Bytes) : (decode b : Outcome (InputCoin F G)).Defined := by
  cases b with
  | nil => exact Outcome.defined_error nofun
  | cons first tail =>
    unfold decode
    simp only
    split
    · exact (ReadProgram.defined_decode _ _).map
    · exact (ReadProgram.defined_decode _ _).map

end InputCoin

namespace OutputCoin

/-- The coin with an encoding that is read from a buffer. -/
def decode (b : Bytes) : Outcome (OutputCoin F G) :=
  match b with
  | [] => .error (.malformedEncoding "empty coin")
  | first :: _ =>
    if first = OneTimeCoin.version then (OneTimeCoin.program.decode b).map oneTime
    else (SealedCoin.program.decode b).map account

theorem decode_eq (b : Bytes) : (decode b : Outcome (OutputCoin F G)) = ofBytes b := by
  cases b with
  | nil => rfl
  | cons first tail =>
    unfold decode ofBytes
    simp only [ReadProgram.decode_eq, OneTimeCoin.result_program, SealedCoin.result_program]

theorem defined_decode (b : Bytes) : (decode b : Outcome (OutputCoin F G)).Defined := by
  cases b with
  | nil => exact Outcome.defined_error nofun
  | cons first tail =>
    unfold decode
    simp only
    split
    · exact (ReadProgram.defined_decode _ _).map
    · exact (ReadProgram.defined_decode _ _).map

end OutputCoin

end ShieldedPayments
