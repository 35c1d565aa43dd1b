import ShieldedPayments.Coin.OneTime
import ShieldedPayments.Proofs.Delivered

/-!
# The encoding of one-time coins

A coin whose memo fits its length byte is read back from its encoding, but for the raw asset tag, which
is not part of it; what was read fits, and remembers no raw asset tag.

* `OneTimeCoin.ofBytes_toBytes`: the round trip; `OtaReceiver.ofBytes_toBytes` that of receivers.
* `OneTimeCoin.fits_of_ofBytes`: what was read.
-/

namespace ShieldedPayments

deriving instance ReflBEq for TxRandom

variable {F G : Type} [ScalarField F] [PointGroup F G]

namespace TxRandom

theorem length_toBytes [PointGroup.Canonical F G] (r : TxRandom G) : r.toBytes.length = size := by
  rw [toBytes, List.length_append, List.length_append, PointGroup.Canonical.length_encode,
    PointGroup.Canonical.length_encode, Bytes.length_ofNatBE, size]

theorem reads_reader [PointGroup.Canonical F G] (r : TxRandom G) :
    (reader : Reader (TxRandom G)).Reads r.toBytes r := by
  have hindex : r.index.toNat < 256 ^ 4 := r.index.toNat_lt
  have hread : (reader : Reader (TxRandom G)).Reads r.toBytes
      ⟨r.otaRandom, r.index.toNat.toUInt32, r.concealRandom⟩ := by
    unfold toBytes
    simp only [List.append_assoc]
    refine (Reader.reads_point _).bind ?_
    refine (Reader.reads_number hindex).bind ?_
    exact (Reader.reads_point _).bind_pure fun p => (⟨r.otaRandom, r.index.toNat.toUInt32, p⟩ :
      TxRandom G)
  rwa [Nat.toUInt32_eq, UInt32.ofNat_toNat] at hread

theorem ofBytes_toBytes [PointGroup.Canonical F G] (r : TxRandom G) : ofBytes r.toBytes = .ok r := by
  rw [ofBytes, ensure_bind_eq_ok_iff, beq_iff_eq]
  exact ⟨length_toBytes r, (reads_reader r).result_eq⟩

end TxRandom

/-- A receiver is read back from its encoding. -/
theorem OtaReceiver.ofBytes_toBytes [PointGroup.Canonical F G] (receiver : OtaReceiver G) :
    ofBytes receiver.toBytes = .ok receiver := by
  have hlength : receiver.toBytes.length = size := by
    rw [toBytes, List.length_append, List.length_cons, PointGroup.Canonical.length_encode,
      TxRandom.length_toBytes, size, Nat.add_comm elementSize]
  have hread : (reader : Reader (OtaReceiver G)).Reads receiver.toBytes receiver := by
    refine (Reader.reads_byte mark).bind ?_
    rw [if_pos rfl]
    refine (Reader.reads_point receiver.publicKey).bind ?_
    exact (TxRandom.reads_reader receiver.txRandom).bind_pure (OtaReceiver.mk receiver.publicKey)
  rw [ofBytes, ensure_bind_eq_ok_iff, beq_iff_eq]
  exact ⟨hlength, hread.result_eq⟩

namespace OneTimeCoin

/-- The coin without its raw asset tag, which is only remembered. -/
def forgetTag (coin : OneTimeCoin F G) : OneTimeCoin F G :=
  { coin with rawAssetTag := none }

/-- The encoding of a coin up to its last field, the asset tag. -/
def fieldBytes (coin : OneTimeCoin F G) : Bytes :=
  version :: Writer.shortPrefixed coin.info ++ Writer.optPoint coin.publicKey
    ++ Writer.optPoint coin.commitment ++ Writer.optPoint coin.keyImage
    ++ Writer.optScalar coin.sharedRandom ++ Writer.optScalar coin.sharedConcealRandom
    ++ Writer.shortPrefixed ((coin.txRandom.map TxRandom.toBytes).getD [])
    ++ Writer.optScalar coin.mask ++ Writer.optScalar coin.amount

theorem toBytes_eq_append (coin : OneTimeCoin F G) :
    coin.toBytes = coin.fieldBytes ++ Writer.optPoint coin.assetTag := rfl

/-- The raw asset tag, which is not part of a coin, makes no difference to equality. -/
theorem forgetTag_beq [ScalarField.Lawful F] [PointGroup.Lawful F G] (coin : OneTimeCoin F G) :
    (coin.forgetTag == coin) = true := by
  show (coin.info == coin.info && coin.publicKey == coin.publicKey
    && coin.commitment == coin.commitment && coin.keyImage == coin.keyImage
    && coin.sharedRandom == coin.sharedRandom && coin.sharedConcealRandom == coin.sharedConcealRandom
    && coin.txRandom == coin.txRandom && coin.mask == coin.mask && coin.amount == coin.amount
    && coin.assetTag == coin.assetTag) = true
  simp only [BEq.rfl, Bool.and_self]

/-- The memo of a coin fits its length byte. -/
def Fits (coin : OneTimeCoin F G) : Prop :=
  coin.info.length ≤ 255

variable [PointGroup.Canonical F G]

theorem reads_txRandom (tx : Option (TxRandom G)) :
    (txRandomReader : Reader (Option (TxRandom G))).Reads
      (Writer.shortPrefixed ((tx.map TxRandom.toBytes).getD [])) tx := by
  cases tx with
  | none => exact fun _ => rfl
  | some tx =>
    have hsize := TxRandom.length_toBytes tx
    have hshort : tx.toBytes.length ≤ 255 := by
      rw [hsize]
      decide
    show Reader.Reads _ (Writer.shortPrefixed tx.toBytes) _
    rw [Writer.shortPrefixed, List.take_of_length_le hshort, hsize]
    refine Reader.reads_count (by decide) (fun length => (if length = 0 then pure none
      else if length = TxRandom.size then do
        let tx ← TxRandom.ofBytes (← Reader.bytes TxRandom.size)
        return some tx
      else throw (.malformedEncoding "tx random field length") : Reader (Option (TxRandom G)))) _ _ ?_
    rw [if_neg (by decide), if_pos rfl]
    refine (Reader.reads_bytes hsize).bind_nil ?_
    exact Reader.Reads.outcome_bind (TxRandom.ofBytes_toBytes tx) (Reader.reads_pure _)

variable [ScalarField.Canonical F]

/-- Whatever the end of the bytes says about the asset tag, the fields before it are read back. -/
theorem readsAll_fieldBytes {coin : OneTimeCoin F G} (h : coin.Fits) {b : Bytes} {tag : Option G}
    (htag : (if b.isEmpty then pure none else Reader.optPoint : Reader (Option G)).Reads b tag) :
    (reader : Reader (OneTimeCoin F G)).ReadsAll (coin.fieldBytes ++ b)
      { coin with assetTag := tag, rawAssetTag := none } := by
  unfold fieldBytes
  simp only [List.append_assoc, List.cons_append]
  refine Reader.ReadsAll.byte_bind ?_
  rw [if_neg (not_not_intro rfl)]
  refine (Reader.reads_shortPrefixed h).bind_all ?_
  refine (Reader.reads_optPoint _).bind_all ?_
  refine (Reader.reads_optPoint _).bind_all ?_
  refine (Reader.reads_optPoint _).bind_all ?_
  refine (Reader.reads_optScalar _).bind_all ?_
  refine (Reader.reads_optScalar _).bind_all ?_
  refine (reads_txRandom _).bind_all ?_
  refine (Reader.reads_optScalar _).bind_all ?_
  refine (Reader.reads_optScalar _).bind_all ?_
  refine Reader.ReadsAll.rest_bind ?_
  have hend := htag.bind_finish fun tag =>
    ({ coin with assetTag := tag, rawAssetTag := none } : OneTimeCoin F G)
  dsimp only
  split
  · next hempty =>
    rw [if_pos hempty] at hend
    exact hend
  · next hwritten =>
    rw [if_neg hwritten] at hend
    exact hend

theorem readsAll_reader {coin : OneTimeCoin F G} (h : coin.Fits) :
    (reader : Reader (OneTimeCoin F G)).ReadsAll coin.toBytes coin.forgetTag := by
  have hwritten : (Writer.optPoint coin.assetTag).isEmpty = false := by
    have hlength := (Writer.length_optPoint coin.assetTag).1
    cases hb : Writer.optPoint coin.assetTag with
    | nil =>
      rw [hb] at hlength
      cases hlength
    | cons x b => rfl
  refine readsAll_fieldBytes h ?_
  simp only [hwritten]
  exact Reader.reads_optPoint coin.assetTag

theorem ofBytes_toBytes {coin : OneTimeCoin F G} (h : coin.Fits) :
    ofBytes coin.toBytes = .ok coin.forgetTag :=
  (readsAll_reader h).result_eq

/-- The encoding of a coin without an asset tag ends with a zero byte, which may be missing. -/
theorem ofBytes_dropLast {coin : OneTimeCoin F G} (h : coin.Fits) (hnone : coin.assetTag = none) :
    coin.toBytes = coin.toBytes.dropLast ++ [0] ∧
      ofBytes coin.toBytes.dropLast = .ok coin.forgetTag := by
  have hbytes : coin.toBytes = coin.fieldBytes ++ [0] := by
    rw [toBytes_eq_append, hnone]
    rfl
  have hsame : ({ coin with assetTag := none, rawAssetTag := none } : OneTimeCoin F G) =
      coin.forgetTag := by
    rw [forgetTag, hnone]
  have hread : (reader : Reader (OneTimeCoin F G)).ReadsAll (coin.fieldBytes ++ []) _ :=
    readsAll_fieldBytes h (Reader.reads_pure none)
  rw [List.append_nil, hsame] at hread
  rw [hbytes, List.dropLast_concat]
  exact ⟨rfl, hread.result_eq⟩

omit [ScalarField F] [PointGroup.Canonical F G] [ScalarField.Canonical F] in
theorem takes_txRandom :
    (txRandomReader : Reader (Option (TxRandom G))).Takes fun _ _ => True := by
  refine Reader.takes_byte.bind fun _ x _ => ?_
  simp only
  split
  · exact Reader.takes_pure trivial
  · split
    · refine (Reader.takes_bytes _).bind fun _ b _ => ?_
      refine (Reader.takes_outcome (P := fun _ _ => True) fun _ _ => trivial).bind_pure ?_
      exact fun _ _ _ => trivial
    · exact Reader.takes_throw _

/-- A coin that was read fits, and remembers no raw asset tag. -/
theorem fits_of_ofBytes {b : Bytes} {coin : OneTimeCoin F G} (h : ofBytes b = .ok coin) :
    coin.Fits ∧ coin.forgetTag = coin := by
  have htakes : (reader : Reader (OneTimeCoin F G)).Takes fun _ coin =>
      coin.Fits ∧ coin.forgetTag = coin := by
    refine Reader.takes_byte.bind fun _ x _ => ?_
    split
    · exact Reader.takes_throw_bind _ _
    · refine (Reader.takes_prefixed 1).bind ?_
      rintro _ info ⟨_, hinfo⟩
      refine Reader.takes_optPoint.bind fun _ publicKey _ => ?_
      refine Reader.takes_optPoint.bind fun _ commitment _ => ?_
      refine Reader.takes_optPoint.bind fun _ keyImage _ => ?_
      refine Reader.takes_optScalar.bind fun _ sharedRandom _ => ?_
      refine Reader.takes_optScalar.bind fun _ sharedConcealRandom _ => ?_
      refine takes_txRandom.bind fun _ txRandom _ => ?_
      refine Reader.takes_optScalar.bind fun _ mask _ => ?_
      refine Reader.takes_optScalar.bind fun _ amount _ => ?_
      refine Reader.takes_rest.bind fun _ left _ => ?_
      simp only
      split
      · exact Reader.takes_finish_pure ⟨Nat.le_of_lt_succ hinfo, rfl⟩
      · refine Reader.takes_optPoint.bind fun _ tag _ => ?_
        exact Reader.takes_finish_pure ⟨Nat.le_of_lt_succ hinfo, rfl⟩
  obtain ⟨_, _, hfits⟩ := htakes.result h
  exact hfits

end OneTimeCoin

end ShieldedPayments
