import ShieldedPayments.Proofs.Coin.Authentic
import ShieldedPayments.Proofs.Coin.Decoding

/-!
# Coins are opened by index

The shard of a coin is read off the last byte of a key, an opening and a ciphertext are cut in two, and
public randomness lies in fixed parts of its encoding. Written with an index and with slices, these
operations do what they do over lists, for every coin and every key set: each byte that they ask for is
there.

* `CoinView.shardIdByIndex_eq`: the shard of a coin.
* `OutputCoin.revealByIndex_eq`: opening a coin.
* `InputCoin.recogniseByIndex_eq`, `OutputCoin.recogniseByIndex_eq`: recognising one.
-/

namespace ShieldedPayments

variable {F G : Type} [ScalarField F] [PointGroup F G]

/-! ## Encodings of points -/

section

omit [ScalarField F]

/-- The last byte of the encoding of a point. -/
def lastByteByIndex (p : G) : Outcome UInt8 :=
  elementAt (PointGroup.encode p) (elementSize - 1)

/-- The shard of a coin. -/
def CoinView.shardIdByIndex (view : CoinView F G) (params : ShardParams) : Outcome UInt8 := do
  let publicKey ← require view.publicKey (.invalidInput "coin has no public key")
  params.shardOf (← lastByteByIndex publicKey)

/-- Public randomness with its parts taken as slices of its encoding. The points were decoded when the
slices were read before. -/
def TxRandom.readAgain (tx : TxRandom G) : Outcome (TxRandom G) := do
  let b := tx.toBytes
  let _ ← slice b 0 elementSize
  let index : Bytes ← slice b elementSize (elementSize + 4)
  let _ ← slice b (elementSize + 4) b.length
  return { tx with index := index.toNatBE.toUInt32 }

end

section

variable [PointGroup.Sized F G]

theorem lastByteByIndex_eq (p : G) : lastByteByIndex p = .ok (lastByte p) := by
  have hlength : (PointGroup.encode p).length = elementSize := PointGroup.Sized.length_encode p
  have hlast : elementSize - 1 < (PointGroup.encode p).length := by
    rw [hlength]
    decide
  rw [lastByteByIndex, elementAt_eq hlast, lastByte, List.getLastD_eq_getLast?, List.getLast?_eq_getElem?,
    hlength, List.getElem?_eq_getElem hlast, Option.getD_some]

theorem CoinView.shardIdByIndex_eq (view : CoinView F G) (params : ShardParams) :
    view.shardIdByIndex params = view.shardId params := by
  unfold shardIdByIndex
  simp only [lastByteByIndex_eq, Outcome.ok_bind]
  rfl

theorem TxRandom.readAgain_eq (tx : TxRandom G) : tx.readAgain = .ok tx := by
  have hota : (PointGroup.encode tx.otaRandom).length = elementSize :=
    PointGroup.Sized.length_encode tx.otaRandom
  have hindex : (Bytes.ofNatBE 4 tx.index.toNat).length = 4 := Bytes.length_ofNatBE 4 _
  have hlength : elementSize + 4 ≤ tx.toBytes.length := by
    rw [toBytes, List.length_append, List.length_append, hota, hindex]
    exact Nat.le_add_right _ _
  have hslice : (tx.toBytes.take (elementSize + 4)).drop elementSize =
      Bytes.ofNatBE 4 tx.index.toNat := by
    rw [toBytes, List.append_assoc, List.drop_take, List.drop_left' hota, Nat.add_sub_cancel_left,
      List.take_left' hindex]
  have hlt : tx.index.toNat < 256 ^ 4 := tx.index.toNat_lt
  have hnumber : (Bytes.ofNatBE 4 tx.index.toNat).toNatBE.toUInt32 = tx.index := by
    rw [Bytes.toNatBE_ofNatBE, Nat.mod_eq_of_lt hlt, Nat.toUInt32_eq, UInt32.ofNat_toNat]
  rw [readAgain, slice_zero ((Nat.le_add_right _ _).trans hlength), Outcome.ok_bind,
    slice_eq (Nat.le_add_right _ _) hlength, Outcome.ok_bind, hslice, slice_length hlength,
    Outcome.ok_bind, hnumber]
  rfl

end

omit [ScalarField F] in
theorem CoinView.defined_shardId (view : CoinView F G) {params : ShardParams}
    (hshards : params.numShards ≠ 0) : (view.shardId params).Defined :=
  Outcome.defined_require_bind (by nofun) fun _ => ShardParams.defined_shardOf hshards _

/-! ## Account coins -/

namespace AccountCoin

/-- The commitment that the fields open. -/
def expectedCommitmentByIndex (coin : AccountCoin F G) (params : ShardParams) : Outcome G := do
  let publicKey ← require coin.publicKey (.invalidInput "coin has no public key")
  let derivator ← require coin.derivator (.invalidInput "coin has no serial number derivator")
  let randomness ← require coin.randomness (.invalidInput "coin has no randomness")
  let shard ← coin.view.shardIdByIndex params
  return publicKey + Pedersen.commitAll 0 (ofNat coin.value.toNat) derivator
    (ofNat shard.toNat) randomness

/-- Refuses a coin whose fields do not open its commitment. -/
def verifyCommitmentByIndex (coin : AccountCoin F G) (params : ShardParams) : Outcome Unit := do
  let stored ← require coin.commitment (.commitmentMismatch "coin has no commitment")
  ensure (stored == (← coin.expectedCommitmentByIndex params))
    (.commitmentMismatch "coin v1 commitment")

theorem verifyCommitmentByIndex_eq [PointGroup.Sized F G] (coin : AccountCoin F G)
    (params : ShardParams) : coin.verifyCommitmentByIndex params = coin.verifyCommitment params := by
  unfold verifyCommitmentByIndex expectedCommitmentByIndex
  simp only [CoinView.shardIdByIndex_eq]
  rfl

end AccountCoin

namespace HybridCiphertext

/-- The encrypted message. -/
def decryptByIndex (G : Type) {F : Type} [ScalarField F] [PointGroup F G] (ct : HybridCiphertext)
    (secretKey : F) : Outcome Bytes := do
  ensure (ivSize ≤ ct.encryptedMessage.length) (.decryptionFailure "aes ciphertext too short")
  let encryptedKey : ElGamalCiphertext G ←
    (ElGamalCiphertext.program.decode ct.encryptedKey).mapWorded
      (.decryptionFailure "elgamal ciphertext")
  let keyPoint := encryptedKey.decrypt secretKey
  let iv ← slice ct.encryptedMessage 0 ivSize
  let body ← slice ct.encryptedMessage ivSize ct.encryptedMessage.length
  return Cipher.Counter.apply (PointGroup.encode keyPoint) iv body

theorem decryptByIndex_eq (ct : HybridCiphertext) (secretKey : F) :
    ct.decryptByIndex G secretKey = ct.decrypt G secretKey := by
  unfold decryptByIndex decrypt
  by_cases hle : ivSize ≤ ct.encryptedMessage.length
  · have hkey := Outcome.mapWorded_eq
      (ReadProgram.defined_decode (ElGamalCiphertext.program : ReadProgram (ElGamalCiphertext G))
        ct.encryptedKey) (.decryptionFailure "elgamal ciphertext")
    rw [ReadProgram.decode_eq, ElGamalCiphertext.result_program] at hkey
    simp only [ReadProgram.decode_eq, ElGamalCiphertext.result_program, hkey, slice_zero hle,
      slice_length hle]
    rfl
  · rw [decide_eq_false hle]
    rfl

end HybridCiphertext

namespace SealedCoin

/-- A coin with its randomness and value taken from the bytes of an opening. -/
def withOpeningByIndex (coin : AccountCoin F G) (opening : Bytes) : Outcome (AccountCoin F G) := do
  ensure (elementSize ≤ opening.length) (.decryptionFailure "opening too short")
  let randomness ← (scalarOfBytes (← slice opening 0 elementSize)).mapWorded
    (.decryptionFailure "opening randomness")
  let value ← (numberOfTrimmed (← slice opening elementSize opening.length)).mapWorded
    (.decryptionFailure "opening value")
  return { coin with randomness := some randomness, value }

omit [PointGroup F G] in
theorem withOpeningByIndex_eq (coin : AccountCoin F G) (opening : Bytes) :
    withOpeningByIndex coin opening = withOpening coin opening := by
  unfold withOpeningByIndex withOpening
  by_cases hle : elementSize ≤ opening.length
  · simp only [slice_zero hle, slice_length hle, Outcome.ok_bind,
      Outcome.mapWorded_eq (ReadProgram.defined_scalarOfBytes _),
      Outcome.mapWorded_eq (defined_numberOfTrimmed _)]
  · rw [decide_eq_false hle]
    rfl

/-- The fields of a coin together with what is sealed. -/
def openSealByIndex (coin : SealedCoin F G) (view : F) (params : ShardParams) :
    Outcome (AccountCoin F G) :=
  match coin.encrypted with
  | none => .ok coin.details
  | some ct => do
    let opened ← withOpeningByIndex coin.details (← ct.decryptByIndex G view)
    if opened.commitment.isSome then opened.verifyCommitmentByIndex params
    return opened

/-- Opens a coin; a private key adds the serial number. -/
def revealByIndex (coin : SealedCoin F G) (keys : KeySet F G) (params : ShardParams) :
    Outcome (AccountCoin F G) := do
  let view ← keys.requireDecryption
  let opened ← coin.openSealByIndex view params
  match keys.privateKey with
  | none => return opened
  | some sk =>
    let derivator ← require opened.derivator
      (.decryptionFailure "coin has no serial number derivator")
    return { opened with serialNumber := some (Pedersen.serialNumber sk.secret derivator) }

theorem revealByIndex_eq [PointGroup.Sized F G] (coin : SealedCoin F G) (keys : KeySet F G)
    (params : ShardParams) : coin.revealByIndex keys params = coin.reveal keys params := by
  have hopen (view : F) : coin.openSealByIndex view params = coin.openSeal view params := by
    unfold openSealByIndex openSeal
    cases coin.encrypted with
    | none => rfl
    | some ct =>
      simp only [withOpeningByIndex_eq, HybridCiphertext.decryptByIndex_eq,
        AccountCoin.verifyCommitmentByIndex_eq]
  unfold revealByIndex
  simp only [hopen]
  rfl

end SealedCoin

/-! ## One-time coins -/

namespace OneTimeCoin

/-- A coin with its public randomness read from its encoding again. -/
def readAgain (coin : OneTimeCoin F G) : Outcome (OneTimeCoin F G) :=
  match coin.txRandom with
  | none => .ok coin
  | some tx => do
    return { coin with txRandom := some (← tx.readAgain) }

theorem readAgain_eq [PointGroup.Sized F G] (coin : OneTimeCoin F G) :
    coin.readAgain = .ok coin := by
  obtain ⟨info, publicKey, commitment, keyImage, sharedRandom, sharedConcealRandom, txRandom, mask,
    amount, assetTag, rawAssetTag⟩ := coin
  cases txRandom with
  | none => rfl
  | some tx =>
    unfold readAgain
    simp only [TxRandom.readAgain_eq]
    rfl

end OneTimeCoin

/-! ## Coins of either version -/

namespace InputCoin

/-- Whether a coin belongs to a key set, and what was found out. -/
def recogniseByIndex (coin : InputCoin F G) (keys : KeySet F G) :
    Outcome (Bool × Option G × InputCoin F G) :=
  match coin with
  | account c => return recognise (account c) keys
  | oneTime c => do return recognise (oneTime (← c.readAgain)) keys

theorem recogniseByIndex_eq [PointGroup.Sized F G] (coin : InputCoin F G) (keys : KeySet F G) :
    coin.recogniseByIndex keys = .ok (coin.recognise keys) := by
  cases coin with
  | account c => rfl
  | oneTime c =>
    rw [recogniseByIndex, c.readAgain_eq]
    rfl

end InputCoin

namespace OutputCoin

/-- Whether a coin belongs to a key set, and what was found out. -/
def recogniseByIndex (coin : OutputCoin F G) (keys : KeySet F G) :
    Outcome (Bool × Option G × OutputCoin F G) :=
  match coin with
  | account c => return recognise (account c) keys
  | oneTime c => do return recognise (oneTime (← c.readAgain)) keys

theorem recogniseByIndex_eq [PointGroup.Sized F G] (coin : OutputCoin F G) (keys : KeySet F G) :
    coin.recogniseByIndex keys = .ok (coin.recognise keys) := by
  cases coin with
  | account c => rfl
  | oneTime c =>
    rw [recogniseByIndex, c.readAgain_eq]
    rfl

/-- Opens a coin. -/
def revealByIndex (coin : OutputCoin F G) (keys : KeySet F G) (params : ShardParams) :
    Outcome (InputCoin F G) :=
  match coin with
  | account c => (c.revealByIndex keys params).map .account
  | oneTime c => do return .oneTime (← (← c.readAgain).reveal keys)

theorem revealByIndex_eq [PointGroup.Sized F G] (coin : OutputCoin F G) (keys : KeySet F G)
    (params : ShardParams) : coin.revealByIndex keys params = coin.reveal keys params := by
  cases coin with
  | account c => rw [revealByIndex, c.revealByIndex_eq, reveal]
  | oneTime c =>
    rw [revealByIndex, c.readAgain_eq, Outcome.ok_bind, reveal]
    cases c.reveal keys with
    | error fault => rfl
    | ok opened => rfl

end OutputCoin

end ShieldedPayments
