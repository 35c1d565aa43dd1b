import ShieldedPayments.Payment.Basic
import ShieldedPayments.Proofs.Argument.Codec
import ShieldedPayments.Proofs.Coin.AccountCodec
import ShieldedPayments.Proofs.Coin.OneTimeCodec

/-!
# The encoding of payments

A payment whose counts and memos fit their bytes is read back from its encoding, and whatever was read
fits (`AccountPayment.Fits`, `OneTimePayment.Fits`, `Conversion.Fits`). Raw asset tags are not part of
an encoding, so a payment is read back without them.

* `AccountPayment.ofBytes_toBytes`, `OneTimePayment.ofBytes_toBytes`, `Conversion.ofBytes_toBytes`: the
  round trips.
* `AccountPayment.fits_of_ofBytes`, `OneTimePayment.fits_of_ofBytes`, `Conversion.fits_of_ofBytes`:
  what was read.
-/

namespace ShieldedPayments

variable {F G : Type} [ScalarField F] [PointGroup F G]

/-! ## Proofs and coins behind a length -/

section

variable [ScalarField.Canonical F] [PointGroup.Canonical F G]

theorem RingProof.reads_prefixed (proof : RingProof F G) :
    (do RingProof.ofBytes (← Reader.prefixed 2) : Reader (RingProof F G)).Reads
      (Writer.prefixed 2 proof.toBytes) proof := by
  refine Reader.reads_parsed ?_ (RingProof.ofBytes_toBytes proof)
  rw [RingProof.length_toBytes]
  decide

theorem HiddenSerialProof.reads_prefixed (proof : HiddenSerialProof F G) :
    (do HiddenSerialProof.ofBytes (← Reader.prefixed 2) : Reader (HiddenSerialProof F G)).Reads
      (Writer.prefixed 2 proof.toBytes) proof := by
  refine Reader.reads_parsed ?_ (HiddenSerialProof.ofBytes_toBytes proof)
  rw [HiddenSerialProof.length_toBytes]
  decide

theorem SerialProof.reads_shortPrefixed (proof : SerialProof F G) :
    (do SerialProof.ofBytes (← Reader.prefixed 1) : Reader (SerialProof F G)).Reads
      (Writer.shortPrefixed proof.toBytes) proof := by
  refine Reader.reads_shortParsed ?_ (SerialProof.ofBytes_toBytes proof)
  rw [SerialProof.length_toBytes]
  decide

/-- An account coin behind a length of one byte, which was seen to be enough for it. -/
theorem AccountCoin.takes_shortPrefixed :
    (do AccountCoin.ofBytes (← Reader.prefixed 1) : Reader (AccountCoin F G)).Takes
      fun _ coin => coin.Fits ∧ coin.toBytes.length ≤ 255 := by
  refine (Reader.takes_prefixed 1).bind_outcome ?_
  rintro _ b coin ⟨_, hb⟩ hcoin
  obtain ⟨hfits, hlength⟩ := AccountCoin.fits_of_ofBytes hcoin
  exact ⟨hfits, by omega⟩

theorem SealedCoin.takes_dualPrefixed :
    (Reader.dualPrefixed SealedCoin.ofBytes : Reader (SealedCoin F G)).Takes
      fun _ coin => coin.Fits := by
  refine (Reader.takes_dualPrefixed (P := fun _ coin => coin.Fits) fun _ _ hcoin =>
    (SealedCoin.fits_of_ofBytes hcoin).1).mono ?_
  rintro _ coin ⟨_, _, hfits⟩
  exact hfits

end

/-! ## Payments of account coins -/

namespace AccountPayment

/-- The counts and coins of a payment fit the bytes that they are written in. -/
structure Fits (payment : AccountPayment F G) : Prop where
  ringProofs : payment.ringProofs.length ≤ 255
  hiddenSerialProofs : payment.hiddenSerialProofs.length ≤ 255
  serialProofs : payment.serialProofs.length ≤ 255
  rangeProof : ∀ proof, payment.rangeProof = some proof → proof.Fits
  inputCount : payment.inputs.length ≤ 255
  inputs : ∀ coin ∈ payment.inputs, coin.Fits ∧ coin.toBytes.length ≤ 255
  outputCount : payment.outputs.length ≤ 255
  outputs : ∀ coin ∈ payment.outputs, coin.Fits
  outputValues : payment.outputValues.length ≤ 255
  outputDerivators : payment.outputDerivators.length ≤ 255
  outputShards : payment.outputShards.length ≤ 255
  inputValues : payment.inputValues.length ≤ 255
  inputDerivators : payment.inputDerivators.length ≤ 255
  ledgerIndices : payment.ledgerIndices.length ≤ 255

variable [ScalarField.Canonical F] [PointGroup.Canonical F G]

theorem length_rangeBytes {proof : Option (RangeProof F G)}
    (h : ∀ p, proof = some p → p.Fits) :
    ((proof.map RangeProof.toBytes).getD []).length < 256 ^ 2 := by
  cases proof with
  | none => exact Nat.pow_pos (by decide)
  | some proof => exact (RangeProof.length_toBytes_bounds (h proof rfl)).2

theorem reads_rangeProof {width : Nat} (hwidth : 2 ≤ width) {proof : Option (RangeProof F G)}
    (h : ∀ p, proof = some p → p.Fits) :
    (rangeProofReader width : Reader (Option (RangeProof F G))).Reads
      (Writer.prefixed width ((proof.map RangeProof.toBytes).getD [])) proof := by
  have hlength : ((proof.map RangeProof.toBytes).getD []).length < 256 ^ width :=
    (length_rangeBytes h).trans_le (Nat.pow_le_pow_right (by decide) hwidth)
  refine (Reader.reads_prefixed hlength).bind_nil ?_
  cases proof with
  | none => exact Reader.reads_pure none
  | some proof =>
    have hfits := h proof rfl
    have hnonempty : proof.toBytes.isEmpty = false := by
      have hpos := (RangeProof.length_toBytes_bounds hfits).1
      cases hb : proof.toBytes with
      | nil =>
        rw [hb] at hpos
        cases hpos
      | cons x b => rfl
    simp only [Option.map_some, Option.getD_some, hnonempty]
    exact Reader.Reads.outcome_bind (RangeProof.ofBytes_toBytes hfits) (Reader.reads_pure _)

theorem readsAll_reader {payment : AccountPayment F G} (h : payment.Fits) :
    (reader : Reader (AccountPayment F G)).ReadsAll payment.toBytes payment := by
  have hinputs : ∀ coin ∈ payment.inputs,
      (do AccountCoin.ofBytes (← Reader.prefixed 1) : Reader (AccountCoin F G)).Reads
        (Writer.shortPrefixed coin.toBytes) coin := by
    intro coin hcoin
    obtain ⟨hfits, hlength⟩ := h.inputs coin hcoin
    exact Reader.reads_shortParsed hlength (AccountCoin.ofBytes_toBytes hfits)
  have hindices := Reader.reads_counted (fun i => Writer.number 8 i.toNat) UInt64.toNat
    h.ledgerIndices fun i _ => Reader.reads_number i.toNat_lt
  have hlast := hindices.bind_finish fun indices =>
    { payment with ledgerIndices := indices.map Nat.toUInt64 }
  have hback : (payment.ledgerIndices.map UInt64.toNat).map Nat.toUInt64 =
      payment.ledgerIndices := by
    rw [List.map_map]
    exact List.map_id'' (fun i => UInt64.ofNat_toNat) _
  rw [hback] at hlast
  unfold toBytes
  simp only [List.append_assoc, List.cons_append]
  refine Reader.ReadsAll.byte_bind ?_
  rw [if_neg (not_not_intro rfl)]
  refine (Reader.reads_counted_self h.ringProofs fun p _ => p.reads_prefixed).bind_all ?_
  refine (Reader.reads_counted_self h.hiddenSerialProofs fun p _ => p.reads_prefixed).bind_all ?_
  refine (Reader.reads_counted_self h.serialProofs fun p _ => p.reads_shortPrefixed).bind_all ?_
  refine (reads_rangeProof le_rfl h.rangeProof).bind_all ?_
  refine (Reader.reads_counted_self h.inputCount hinputs).bind_all ?_
  refine (Reader.reads_counted_self h.outputCount fun coin hcoin =>
    SealedCoin.reads_dual (h.outputs coin hcoin)).bind_all ?_
  refine (Reader.reads_points h.outputValues).bind_all ?_
  refine (Reader.reads_points h.outputDerivators).bind_all ?_
  refine (Reader.reads_points h.outputShards).bind_all ?_
  refine (Reader.reads_optPoint _).bind_all ?_
  refine (Reader.reads_points h.inputValues).bind_all ?_
  refine (Reader.reads_points h.inputDerivators).bind_all ?_
  refine (Reader.reads_optPoint _).bind_all ?_
  exact hlast

theorem ofBytes_toBytes {payment : AccountPayment F G} (h : payment.Fits) :
    ofBytes payment.toBytes = .ok payment :=
  (readsAll_reader h).result_eq

omit [ScalarField.Canonical F] [PointGroup.Canonical F G] in
theorem takes_rangeProof (width : Nat) :
    (rangeProofReader width : Reader (Option (RangeProof F G))).Takes
      fun _ proof => ∀ p, proof = some p → p.Fits := by
  refine (Reader.takes_prefixed width).bind fun _ b _ => ?_
  split
  · exact Reader.takes_pure fun p hp => by cases hp
  · refine (Reader.takes_outcome (P := fun _ p => p.Fits) fun p hp =>
      RangeProof.fits_of_ofBytes hp).bind_pure ?_
    rintro _ proof hproof _ ⟨⟩
    exact hproof

theorem fits_of_ofBytes {b : Bytes} {payment : AccountPayment F G} (h : ofBytes b = .ok payment) :
    payment.Fits := by
  have htakes : (reader : Reader (AccountPayment F G)).Takes fun _ payment => payment.Fits := by
    refine Reader.takes_byte.bind fun _ x _ => ?_
    split
    · exact Reader.takes_throw_bind _ _
    · refine (Reader.takes_counted (Reader.takes_parsed 2 _)).bind fun _ _ hring => ?_
      refine (Reader.takes_counted (Reader.takes_parsed 2 _)).bind fun _ _ hhidden => ?_
      refine (Reader.takes_counted (Reader.takes_parsed 1 _)).bind fun _ _ hserial => ?_
      refine (takes_rangeProof 2).bind fun _ _ hrange => ?_
      refine (Reader.takes_counted AccountCoin.takes_shortPrefixed).bind fun _ _ hinputs => ?_
      refine (Reader.takes_counted SealedCoin.takes_dualPrefixed).bind fun _ _ houtputs => ?_
      refine Reader.takes_points.bind fun _ _ hvalues => ?_
      refine Reader.takes_points.bind fun _ _ hderivators => ?_
      refine Reader.takes_points.bind fun _ _ hshards => ?_
      refine Reader.takes_optPoint.bind fun _ _ _ => ?_
      refine Reader.takes_points.bind fun _ _ hinputValues => ?_
      refine Reader.takes_points.bind fun _ _ hinputDerivators => ?_
      refine Reader.takes_optPoint.bind fun _ _ _ => ?_
      refine (Reader.takes_counted ((Reader.takes_number 8).mono fun _ _ _ => trivial)).bind
        fun _ indices hindices => ?_
      refine Reader.takes_finish_pure
        ⟨hring.1, hhidden.1, hserial.1, hrange, hinputs.1, hinputs.2, houtputs.1, houtputs.2,
          hvalues, hderivators, hshards, hinputValues, hinputDerivators, ?_⟩
      rw [List.length_map]
      exact hindices.1
  obtain ⟨_, _, hfits⟩ := htakes.result h
  exact hfits

end AccountPayment

/-! ## Payments of one-time coins -/

/-- A one-time coin behind a length of four bytes. -/
theorem OneTimeCoin.length_toBytes_lt [ScalarField.Canonical F] [PointGroup.Canonical F G]
    {coin : OneTimeCoin F G} (h : coin.Fits) : coin.toBytes.length < 256 ^ 4 := by
  have htx : ((coin.txRandom.map TxRandom.toBytes).getD []).length ≤ 255 := by
    cases coin.txRandom with
    | none => exact Nat.zero_le _
    | some tx =>
      show tx.toBytes.length ≤ 255
      rw [TxRandom.length_toBytes]
      decide
  have hinfo : coin.info.length ≤ 255 := h
  have hkey := Writer.length_optPoint coin.publicKey
  have hcommitment := Writer.length_optPoint coin.commitment
  have himage := Writer.length_optPoint coin.keyImage
  have hrandom := Writer.length_optScalar coin.sharedRandom
  have hconceal := Writer.length_optScalar coin.sharedConcealRandom
  have hmask := Writer.length_optScalar coin.mask
  have hamount := Writer.length_optScalar coin.amount
  have htag := Writer.length_optPoint coin.assetTag
  unfold toBytes
  rw [Reader.shortPrefixed_eq hinfo, Reader.shortPrefixed_eq htx]
  simp only [List.length_append, List.length_cons, Writer.prefixed, Writer.number,
    Bytes.length_ofNatBE]
  omega

namespace OneTimePayment

/-- The counts and coins of a payment fit the bytes that they are written in. -/
structure Fits (payment : OneTimePayment F G) : Prop where
  rangeProof : ∀ proof, payment.rangeProof = some proof → proof.Fits
  inputCount : payment.inputs.length ≤ 255
  inputs : ∀ coin ∈ payment.inputs, coin.Fits
  outputCount : payment.outputs.length ≤ 255
  outputs : ∀ coin ∈ payment.outputs, coin.Fits

/-- The payment without raw asset tags, which are only remembered. -/
def forgetTags (payment : OneTimePayment F G) : OneTimePayment F G :=
  { payment with
    inputs := payment.inputs.map (·.forgetTag)
    outputs := payment.outputs.map (·.forgetTag) }

variable [ScalarField.Canonical F] [PointGroup.Canonical F G]

theorem reads_coins {coins : List (OneTimeCoin F G)} (hcount : coins.length ≤ 255)
    (h : ∀ coin ∈ coins, coin.Fits) :
    (Reader.counted do OneTimeCoin.ofBytes (← Reader.prefixed 4) :
        Reader (List (OneTimeCoin F G))).Reads
      (Writer.counted (fun c => Writer.prefixed 4 c.toBytes) coins) (coins.map (·.forgetTag)) :=
  Reader.reads_counted _ _ hcount fun coin hcoin =>
    Reader.reads_parsed (OneTimeCoin.length_toBytes_lt (h coin hcoin))
      (OneTimeCoin.ofBytes_toBytes (h coin hcoin))

theorem takes_coins :
    (Reader.counted do OneTimeCoin.ofBytes (← Reader.prefixed 4) :
        Reader (List (OneTimeCoin F G))).Takes
      fun _ coins => coins.length ≤ 255 ∧ ∀ coin ∈ coins, coin.Fits ∧ coin.forgetTag = coin :=
  Reader.takes_counted ((Reader.takes_prefixed 4).bind_outcome fun _ _ _ _ hcoin =>
    OneTimeCoin.fits_of_ofBytes hcoin)

theorem ofBytes_toBytes {payment : OneTimePayment F G} (h : payment.Fits) :
    ofBytes payment.toBytes = .ok payment.forgetTags := by
  have hread : (reader : Reader (OneTimePayment F G)).ReadsAll payment.toBytes
      payment.forgetTags := by
    unfold toBytes
    simp only [List.append_assoc, List.cons_append]
    refine Reader.ReadsAll.byte_bind ?_
    rw [if_neg (not_not_intro rfl)]
    refine (AccountPayment.reads_rangeProof (by decide) h.rangeProof).bind_all ?_
    refine (reads_coins h.inputCount h.inputs).bind_all ?_
    exact (reads_coins h.outputCount h.outputs).bind_finish fun outputs =>
      { payment.forgetTags with outputs }
  exact hread.result_eq

omit [ScalarField F] [PointGroup F G] [ScalarField.Canonical F] [PointGroup.Canonical F G] in
theorem map_forgetTag_eq_self {coins : List (OneTimeCoin F G)}
    (h : ∀ coin ∈ coins, coin.forgetTag = coin) : coins.map (·.forgetTag) = coins := by
  rw [List.map_congr_left h, List.map_id']

theorem fits_of_ofBytes {b : Bytes} {payment : OneTimePayment F G} (h : ofBytes b = .ok payment) :
    payment.Fits ∧ payment.forgetTags = payment := by
  have htakes : (reader : Reader (OneTimePayment F G)).Takes fun _ payment =>
      payment.Fits ∧ payment.forgetTags = payment := by
    refine Reader.takes_byte.bind fun _ x _ => ?_
    split
    · exact Reader.takes_throw_bind _ _
    · refine (AccountPayment.takes_rangeProof 4).bind fun _ rangeProof hrange => ?_
      refine takes_coins.bind fun _ inputs hinputs => ?_
      refine takes_coins.bind fun _ outputs houtputs => ?_
      refine Reader.takes_finish_pure ⟨⟨hrange, hinputs.1, fun coin hcoin => (hinputs.2 coin hcoin).1,
        houtputs.1, fun coin hcoin => (houtputs.2 coin hcoin).1⟩, ?_⟩
      simp only [forgetTags, map_forgetTag_eq_self fun coin hcoin => (hinputs.2 coin hcoin).2,
        map_forgetTag_eq_self fun coin hcoin => (houtputs.2 coin hcoin).2]
  obtain ⟨_, _, hfits⟩ := htakes.result h
  exact hfits

end OneTimePayment

/-! ## Conversions -/

namespace Conversion

/-- The counts and coins of a conversion fit the bytes that they are written in. -/
structure Fits (conversion : Conversion F G) : Prop where
  inputCount : conversion.inputs.length ≤ 255
  inputs : ∀ coin ∈ conversion.inputs, coin.Fits
  outputCount : conversion.outputs.length ≤ 255
  outputs : ∀ coin ∈ conversion.outputs, coin.Fits
  serialProofs : conversion.serialProofs.length ≤ 255

/-- The conversion without raw asset tags, which are only remembered. -/
def forgetTags (conversion : Conversion F G) : Conversion F G :=
  { conversion with outputs := conversion.outputs.map (·.forgetTag) }

variable [ScalarField.Canonical F] [PointGroup.Canonical F G]

theorem ofBytes_toBytes {conversion : Conversion F G} (h : conversion.Fits) :
    ofBytes conversion.toBytes = .ok conversion.forgetTags := by
  have hinputs : ∀ coin ∈ conversion.inputs,
      (do AccountCoin.ofBytes (← Reader.prefixed 4) : Reader (AccountCoin F G)).Reads
        (Writer.prefixed 4 coin.toBytes) coin := by
    intro coin hcoin
    have hfits := h.inputs coin hcoin
    have hinfo : coin.info.length ≤ 255 := hfits
    have hlength := (AccountCoin.length_toBytes_bounds hfits).2
    exact Reader.reads_parsed (by omega) (AccountCoin.ofBytes_toBytes hfits)
  have hread : (reader : Reader (Conversion F G)).ReadsAll conversion.toBytes
      conversion.forgetTags := by
    unfold toBytes
    simp only [List.append_assoc, List.cons_append]
    refine Reader.ReadsAll.byte_bind ?_
    rw [if_neg (not_not_intro rfl)]
    refine (Reader.reads_counted_self h.inputCount hinputs).bind_all ?_
    refine (OneTimePayment.reads_coins h.outputCount h.outputs).bind_all ?_
    exact (Reader.reads_counted_self h.serialProofs fun p _ => p.reads_shortPrefixed).bind_finish
      fun serialProofs => { conversion.forgetTags with serialProofs }
  exact hread.result_eq

theorem fits_of_ofBytes {b : Bytes} {conversion : Conversion F G} (h : ofBytes b = .ok conversion) :
    conversion.Fits ∧ conversion.forgetTags = conversion := by
  have hinput : (do AccountCoin.ofBytes (← Reader.prefixed 4) : Reader (AccountCoin F G)).Takes
      fun _ coin => coin.Fits :=
    (Reader.takes_prefixed 4).bind_outcome fun _ _ _ _ hcoin => (AccountCoin.fits_of_ofBytes hcoin).1
  have htakes : (reader : Reader (Conversion F G)).Takes fun _ conversion =>
      conversion.Fits ∧ conversion.forgetTags = conversion := by
    refine Reader.takes_byte.bind fun _ x _ => ?_
    split
    · exact Reader.takes_throw_bind _ _
    · refine (Reader.takes_counted hinput).bind fun _ inputs hinputs => ?_
      refine OneTimePayment.takes_coins.bind fun _ outputs houtputs => ?_
      refine (Reader.takes_counted (Reader.takes_parsed 1 _)).bind fun _ serialProofs hproofs => ?_
      refine Reader.takes_finish_pure ⟨⟨hinputs.1, hinputs.2, houtputs.1,
        fun coin hcoin => (houtputs.2 coin hcoin).1, hproofs.1⟩, ?_⟩
      simp only [forgetTags, OneTimePayment.map_forgetTag_eq_self fun coin hcoin =>
        (houtputs.2 coin hcoin).2]
  obtain ⟨_, _, hfits⟩ := htakes.result h
  exact hfits

end Conversion

end ShieldedPayments
