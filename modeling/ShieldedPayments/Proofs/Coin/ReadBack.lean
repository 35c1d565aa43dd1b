import ShieldedPayments.Proofs.Coin.ConcealedOnce
import ShieldedPayments.Coin.Basic

/-!
# Whatever was done to a coin, its encoding is read back

A coin comes from a sender, from a receiver's destination, from bytes or from nowhere, and is then operated
on (`OneTimeCoin.Arises`). The memo is cut where it is set, and no operation makes it longer, so the
coin fits its encoding (`OneTimeCoin.Arises.fits`) and is read back, but for the raw asset tag, as a
coin of either kind (`OneTimeCoin.read_back_of_arises`).
-/

namespace ShieldedPayments.OneTimeCoin

variable {F G : Type} [ScalarField F] [PointGroup F G]

/-- The coins that operations start from: what a sender makes, what is made for the destination that a
receiver handed over, the coin without any fields, and what was read from bytes. -/
inductive Start : OneTimeCoin F G → Prop
  | sent {params : ShardParams} {request : CoinRequest G} {coin : OneTimeCoin F G}
      (h : Sent params request coin) : Start coin
  | received {amount : UInt64} {receiver : OtaReceiver G} {info : Bytes} {coin : OneTimeCoin F G}
      (h : (payReceiver amount receiver info).Returns coin) : Start coin
  | empty : Start {}
  | read {b : Bytes} {coin : OneTimeCoin F G} (h : ofBytes b = .ok coin) : Start coin

/-- What operations, successful or not, lead to. -/
def Arises (coin : OneTimeCoin F G) : Prop :=
  ∃ (start : OneTimeCoin F G) (operations : List (Operation F G)),
    Start start ∧ coin = afterAll operations start

variable [ScalarField.Canonical F] [PointGroup.Canonical F G] {coin read : OneTimeCoin F G}

theorem Start.fits (h : Start coin) : coin.Fits := by
  cases h with
  | sent h =>
    obtain ⟨publicOta, draws, tag, raw, rfl⟩ := h.exists_made
    exact fits_made _ publicOta draws tag raw
  | received h =>
    obtain ⟨t, hrun⟩ := Proving.returns_iff.mp h
    exact (key_of_payReceiver hrun).2.2
  | empty => exact Nat.zero_le _
  | read h => exact (fits_of_ofBytes h).1

theorem Arises.fits (h : Arises coin) : coin.Fits := by
  obtain ⟨start, operations, hstart, rfl⟩ := h
  exact (keeps_afterAll operations hstart.fits).fits

/-! ## Reading a coin of unknown version -/

omit [ScalarField.Canonical F] [PointGroup.Canonical F G] in
theorem toBytes_eq_cons (coin : OneTimeCoin F G) : ∃ rest, coin.toBytes = version :: rest :=
  ⟨_, rfl⟩

omit [ScalarField.Canonical F] [PointGroup.Canonical F G] in
/-- The first byte of the encoding tells that the coin is a one-time coin, on either side of a payment. -/
theorem ofBytes_either_side (h : ofBytes coin.toBytes = .ok read) :
    OutputCoin.ofBytes coin.toBytes = .ok (.oneTime read) ∧
      InputCoin.ofBytes coin.toBytes = .ok (.oneTime read) := by
  obtain ⟨rest, hbytes⟩ := toBytes_eq_cons coin
  rw [hbytes] at h ⊢
  constructor
  · rw [OutputCoin.ofBytes, if_pos rfl, h]
    rfl
  · rw [InputCoin.ofBytes, if_pos rfl, h]
    rfl

/-! ## The round trip -/

variable [ScalarField.Lawful F] [PointGroup.Lawful F G]

/-- **Every coin that comes about is read back from its encoding.** It is read as an equal coin, which differs in
the raw asset tag only: everything that coins of all versions have in common, the value and the sign of
concealing included, and the shards are the same. As an output or as an input it is read as a coin of
version 2. If it has no asset tag, its encoding ends with a zero byte, without which the same coin is
read. -/
theorem read_back_of_arises {coin : OneTimeCoin F G} (h : Arises coin) :
    ∃ read : OneTimeCoin F G, ofBytes coin.toBytes = .ok read ∧ (read == coin) = true ∧
      read = { coin with rawAssetTag := none } ∧ read.view = coin.view ∧
      (∀ params, read.shardId params = coin.shardId params ∧
        read.shardDigits params = coin.shardDigits params) ∧
      OutputCoin.ofBytes coin.toBytes = .ok (.oneTime read) ∧
      InputCoin.ofBytes coin.toBytes = .ok (.oneTime read) ∧
      (coin.assetTag = none → coin.toBytes = coin.toBytes.dropLast ++ [0] ∧
        ofBytes coin.toBytes.dropLast = .ok read) := by
  have hread := ofBytes_toBytes h.fits
  have heither := ofBytes_either_side hread
  refine ⟨coin.forgetTag, hread, coin.forgetTag_beq, rfl, rfl, fun params => ⟨rfl, rfl⟩, heither.1,
    heither.2, fun hnone => ofBytes_dropLast h.fits hnone⟩

/-! ## A coin with a memo that is too long -/

section

open Curve (Scalar)

/-- A memo of 300 bytes is set on the empty coin, which cannot be concealed, and a key image. -/
def memoOperations : List (Operation Scalar Exponent) :=
  [.setInfo (List.replicate 300 7), .conceal ⟨3⟩, .setKeyImage (some ⟨5⟩)]

/-- The coin is read back with 255 bytes of the memo, also without the last byte of its encoding. -/
theorem memo_read_back :
    ∃ read : OneTimeCoin Scalar Exponent,
      ofBytes (afterAll memoOperations {}).toBytes = .ok read ∧
      read.info = List.replicate 255 7 ∧ read.keyImage = some ⟨5⟩ ∧
      ofBytes (afterAll memoOperations {}).toBytes.dropLast = .ok read := by
  have harises : Arises (afterAll memoOperations {}) := ⟨{}, memoOperations, .empty, rfl⟩
  obtain ⟨_, hread, -, rfl, -, -, -, -, hshorter⟩ := read_back_of_arises harises
  refine ⟨_, hread, ?_, rfl, (hshorter rfl).2⟩
  show (List.replicate 300 7).take maxInfoSize = _
  rw [List.take_replicate]
  rfl

end

end ShieldedPayments.OneTimeCoin
