import ShieldedPayments.Proofs.Payment.AccountRuns
import ShieldedPayments.Proofs.Payment.Layouts
import ShieldedPayments.Proofs.Payment.OneTimeRuns

/-!
# Encoding loses nothing

A payment comes about in one of two ways: somebody makes it, or somebody reads it from bytes
(`AnyPayment.Arises`). Either way it fits the counts and lengths of its encoding, the one by the limits
on what can be spent at once, the other since those counts and lengths were read
(`AnyPayment.Arises.fits`). So its encoding is exact, and is read back as the same payment
(`AnyPayment.encoding_lossless`).
-/

namespace ShieldedPayments

open PointGroup

deriving instance ReflBEq for AccountCoin
deriving instance ReflBEq for HybridCiphertext
deriving instance ReflBEq for SealedCoin
deriving instance ReflBEq for RingProof
deriving instance ReflBEq for SerialStatement
deriving instance ReflBEq for SerialProof
deriving instance ReflBEq for HiddenSerialOpening
deriving instance ReflBEq for HiddenSerialProof
deriving instance ReflBEq for InnerProductProof
deriving instance ReflBEq for RangeProof
deriving instance ReflBEq for AccountPayment

variable {F G : Type} [ScalarField F] [PointGroup F G]

/-! ## What was made fits -/

theorem length_take_maxInfoSize (message : Bytes) : (message.take maxInfoSize).length ≤ 255 := by
  rw [List.length_take]
  exact min_le_left _ _

theorem RangeProof.Proved.fits {witness : RangeWitness F} {version : UInt8} {base : G}
    {proof : RangeProof F G} (h : proof.Proved witness version base) (hversion : version ≠ 0)
    (hvalues : witness.values ≠ []) (hcount : witness.values.length ≤ maxOutputs) : proof.Fits where
  version := by rwa [h.version]
  nonempty := by
    intro hnil
    have hlength := h.count
    rw [hnil] at hlength
    exact hvalues (List.eq_nil_of_length_eq_zero hlength.symm)
  count := by rwa [h.count]
  rounds := h.rounds

section

variable [ScalarField.Canonical F] [PointGroup.Canonical F G]

theorem AccountSpend.SealedTo.fits {publicView : G} {coin : AccountCoin F G} {result : SealedCoin F G}
    (h : SealedTo publicView coin result) (hinfo : coin.info.length ≤ 255) : result.Fits := by
  obtain ⟨randomness, t, -, rfl⟩ := h
  exact SealedCoin.fits_strip_encrypt hinfo randomness publicView t

namespace AccountSpend

variable {spend : AccountSpend F G} {params : ShardParams} {source : CommitmentSource G}
  {payment : AccountPayment F G}

theorem OpenRun.fits {proved : List (AccountCoin F G × SerialProof F G)}
    (h : spend.OpenRun params source proved payment) (hchecked : spend.Checked params)
    (hopen : spend.isPrivate = false) : payment.Fits := by
  have hinputs := hchecked.inputCount
  have hpayments := hchecked.paymentCount
  have hindices := hchecked.indices
  rw [hopen] at hindices
  simp only [Bool.false_eq_true, if_false] at hindices
  unfold maxInputs at hinputs
  unfold maxOutputs at hpayments
  have hproved := h.inputsProved.length_eq
  rw [List.length_zip, hindices, min_self] at hproved
  have houtputs := h.outputsIssued.length_eq
  have hcoins : ∀ coin ∈ proved.map (·.1), coin.Fits ∧ coin.toBytes.length ≤ 255 := by
    rw [List.forall_mem_map]
    refine forall_mem_of_forall₂ h.inputsProved fun input result ⟨derivator, hresult⟩ => ?_
    have hinfo : result.1.info = [] := by rw [hresult.coin_eq]
    have hfits : result.1.Fits := by
      unfold AccountCoin.Fits
      rw [hinfo]
      exact Nat.zero_le _
    have hlength := (AccountCoin.length_toBytes_bounds hfits).2
    rw [hinfo] at hlength
    exact ⟨hfits, hlength.trans (by decide)⟩
  have hissued : ∀ coin ∈ payment.outputs, coin.Fits := by
    refine forall_mem_of_forall₂ h.outputsIssued fun payment coin ⟨hopen, hissued⟩ => ⟨?_, ?_⟩
    · unfold AccountCoin.Fits
      rw [hissued.info]
      exact length_take_maxInfoSize _
    · intro ct hct
      rw [hopen] at hct
      cases hct
  rw [h.payment_eq]
  constructor <;> simp only [List.length_nil, List.length_map, Nat.zero_le]
  · omega
  · intro proof hproof
    cases hproof
  · omega
  · exact hcoins
  · omega
  · exact hissued
  · omega

theorem HiddenRun.fits {shared : SharedInput F G} {inputs : List (HiddenInput F G)}
    {outputs : List (HiddenOutput F G)} {rangeProof : RangeProof F G}
    (h : spend.HiddenRun source params shared inputs outputs rangeProof payment)
    (hchecked : spend.Checked params) (hprivate : spend.isPrivate = true) : payment.Fits := by
  have hpayments := hchecked.paymentCount
  have hindices := hchecked.indices
  rw [if_pos hprivate] at hindices
  obtain ⟨hinputs, hindices, -⟩ := hindices
  have hcount := h.length_inputs hchecked hprivate
  have houtputs := h.outputsMade.length_eq
  have hsealed := h.forall_outputs.length_eq
  have hbounds : spend.inputs.length ≤ 31 ∧ maxOutputs = 32 := ⟨hinputs, rfl⟩
  have hrings : spend.inputs.length * ringSize ≤ 31 * 8 := Nat.mul_le_mul_right 8 hinputs
  have hcoins : ∀ coin ∈ inputs.map (·.coin.redact), coin.Fits ∧ coin.toBytes.length ≤ 255 := by
    rw [List.forall_mem_map]
    intro input _
    have hfits : input.coin.redact.Fits := Nat.zero_le 255
    have hlength := (AccountCoin.length_toBytes_bounds hfits).2
    exact ⟨hfits, hlength.trans (show 175 + 0 ≤ 255 by decide)⟩
  have hsealedCoins : ∀ coin ∈ payment.outputs, coin.Fits := by
    refine forall_mem_of_forall₂ h.forall_outputs fun payment coin ⟨output, hmade, hcoin⟩ => ?_
    refine hcoin.fits ?_
    rw [hmade.issued.info]
    exact length_take_maxInfoSize _
  have hrange : rangeProof.Fits := by
    refine h.range.fits (by decide) (fun hnil => ?_) ?_
    · exact hchecked.payments (List.map_eq_nil_iff.mp hnil)
    · rw [List.length_map]
      exact hpayments
  rw [h.payment_eq]
  constructor <;> simp only [List.length_nil, List.length_map, Nat.zero_le]
  · omega
  · omega
  · rintro _ ⟨⟩
    exact hrange
  · omega
  · exact hcoins
  · omega
  · exact hsealedCoins
  · omega
  · omega
  · omega
  · omega
  · omega
  · omega

theorem fits_of_returns [ScalarField.Lawful F] [PointGroup.Lawful F G] [FullBases F G]
    (h : (spend.prove params source).Returns payment) : payment.Fits := by
  obtain ⟨hchecked, hrun⟩ := run_of_returns h
  split at hrun
  · next hprivate =>
    obtain ⟨_, _, _, _, hrun⟩ := hrun
    exact hrun.fits hchecked hprivate
  · next hopen =>
    obtain ⟨_, hrun⟩ := hrun
    exact hrun.fits hchecked (Bool.not_eq_true _ ▸ hopen)

end AccountSpend

end

theorem OneTimeSpend.fits_of_returns [ScalarField.Lawful F] [PointGroup.Lawful F G] [FullBases F G]
    {spend : OneTimeSpend F G} {params : ShardParams}
    {payment : OneTimePayment F G} (h : (spend.prove params).Returns payment) : payment.Fits := by
  obtain ⟨outputs, masks, base, blindings, rangeProof, hrun⟩ := run_of_returns h
  have hinputs := hrun.inputs.length_eq
  have hinputCount : spend.inputs.length ≤ 255 := hrun.checked.inputCount
  have houtputCount : spend.payments.length ≤ 32 := hrun.checked.paymentCount
  have houtputs := hrun.forall_outputs.length_eq
  refine ⟨?_, ?_, ?_, ?_, ?_⟩
  · rw [hrun.rangeProof]
    rintro _ ⟨⟩
    refine hrun.range.proved.fits (by decide) (fun hnil => ?_) ?_
    · exact hrun.checked.payments (List.map_eq_nil_iff.mp hnil)
    · rw [List.length_map]
      exact houtputCount
  · omega
  · refine forall_mem_of_forall₂ hrun.inputs fun _ coin ⟨keyImage, hcoin⟩ => ?_
    rw [hcoin]
    exact Nat.zero_le 255
  · omega
  · refine forall_mem_of_forall₂ hrun.forall_outputs fun payment coin ⟨output, hmade, hcoin⟩ => ?_
    obtain ⟨_, _, _, hmade, _⟩ := hmade
    obtain ⟨_, _, rfl⟩ := hcoin
    show output.1.info.length ≤ 255
    rw [hmade]
    exact length_take_maxInfoSize _

theorem ConversionSpend.fits_of_returns {spend : ConversionSpend F G} {params : ShardParams}
    {conversion : Conversion F G} (h : (spend.prove params).Returns conversion) :
    conversion.Fits := by
  have hrun := run_of_returns h
  obtain ⟨hinputs, hinputCount⟩ := hrun.inputCount
  obtain ⟨houtputs, houtputCount⟩ := hrun.outputCount
  have hproofs := hrun.proofCount
  have hbounds : maxInputs = 255 ∧ maxOutputs = 32 := ⟨rfl, rfl⟩
  refine ⟨by omega, fun coin hcoin => ?_, by omega, ?_, by omega⟩
  · unfold AccountCoin.Fits
    rw [hrun.inputs coin hcoin]
    exact Nat.zero_le 255
  · refine forall_mem_of_forall₂ hrun.outputs fun payment coin ⟨_, _, _, hcoin⟩ => ?_
    rw [hcoin]
    exact length_take_maxInfoSize _

/-! ## What is read back -/

theorem OneTimeCoin.map_forgetTag_beq [ScalarField.Lawful F] [PointGroup.Lawful F G]
    (coins : List (OneTimeCoin F G)) : (coins.map (·.forgetTag) == coins) = true := by
  induction coins with
  | nil => rfl
  | cons coin coins ih => rw [List.map_cons, List.cons_beq_cons, forgetTag_beq, ih, Bool.and_self]

namespace AnyPayment

/-- A payment that was made, or read. -/
inductive Arises : AnyPayment F G → Prop where
  | account {spend : AccountSpend F G} {params : ShardParams} {source : CommitmentSource G}
      {payment : AccountPayment F G} (h : (spend.prove params source).Returns payment) :
      Arises (account payment)
  | oneTime {spend : OneTimeSpend F G} {params : ShardParams} {payment : OneTimePayment F G}
      (h : (spend.prove params).Returns payment) : Arises (oneTime payment)
  | conversion {spend : ConversionSpend F G} {params : ShardParams} {payment : Conversion F G}
      (h : (spend.prove params).Returns payment) : Arises (conversion payment)
  | read {b : Bytes} {payment : AnyPayment F G} (h : ofBytes b = .ok payment) : Arises payment

/-- The payment without raw asset tags, which are only remembered. -/
def forgetTags : AnyPayment F G → AnyPayment F G
  | account payment => account payment
  | oneTime payment => oneTime payment.forgetTags
  | conversion payment => conversion payment.forgetTags

/-- The parts of a payment fit their counts and lengths. -/
def Fits : AnyPayment F G → Prop
  | account payment => payment.Fits
  | oneTime payment => payment.Fits
  | conversion payment => payment.Fits

/-- The sealed coins of a payment. -/
def sealedCoins : AnyPayment F G → List (SealedCoin F G)
  | account payment => payment.outputs
  | oneTime _ => []
  | conversion _ => []

theorem Fits.of_sealed {payment : AnyPayment F G} (h : payment.Fits) :
    ∀ coin ∈ payment.sealedCoins, coin.Fits := by
  cases payment with
  | account payment => exact AccountPayment.Fits.outputs h
  | oneTime payment => exact fun _ hcoin => absurd hcoin List.not_mem_nil
  | conversion payment => exact fun _ hcoin => absurd hcoin List.not_mem_nil

section

variable [ScalarField.Canonical F] [PointGroup.Canonical F G]

theorem exact_layout {payment : AnyPayment F G} (h : payment.Fits) : payment.layout.Exact := by
  cases payment with
  | account payment => exact AccountPayment.exact_layout h
  | oneTime payment => exact OneTimePayment.exact_layout h
  | conversion payment => exact Conversion.exact_layout h

theorem ofBytes_toBytes {payment : AnyPayment F G} (h : payment.Fits) :
    ofBytes payment.toBytes = .ok payment.forgetTags := by
  cases payment with
  | account payment =>
    have hread := AccountPayment.ofBytes_toBytes h
    obtain ⟨rest, hrest⟩ : ∃ rest, payment.toBytes = AccountPayment.version :: rest := ⟨_, rfl⟩
    rw [hrest] at hread
    rw [toBytes, hrest, ofBytes, if_pos rfl, hread]
    rfl
  | oneTime payment =>
    have hread := OneTimePayment.ofBytes_toBytes h
    obtain ⟨rest, hrest⟩ : ∃ rest, payment.toBytes = OneTimePayment.version :: rest := ⟨_, rfl⟩
    rw [hrest] at hread
    rw [toBytes, hrest, ofBytes, if_neg (by decide), if_pos rfl, hread]
    rfl
  | conversion payment =>
    have hread := Conversion.ofBytes_toBytes h
    obtain ⟨rest, hrest⟩ : ∃ rest, payment.toBytes = Conversion.version :: rest := ⟨_, rfl⟩
    rw [hrest] at hread
    rw [toBytes, hrest, ofBytes, if_neg (by decide), if_neg (by decide), if_pos rfl, hread]
    rfl

theorem fits_of_ofBytes {b : Bytes} {payment : AnyPayment F G} (h : ofBytes b = .ok payment) :
    payment.Fits := by
  unfold ofBytes at h
  split at h
  · cases h
  · split at h
    · obtain ⟨payment, hread, rfl⟩ := Outcome.map_eq_ok_iff.mp h
      exact AccountPayment.fits_of_ofBytes hread
    · split at h
      · obtain ⟨payment, hread, rfl⟩ := Outcome.map_eq_ok_iff.mp h
        exact (OneTimePayment.fits_of_ofBytes hread).1
      · split at h
        · obtain ⟨payment, hread, rfl⟩ := Outcome.map_eq_ok_iff.mp h
          exact (Conversion.fits_of_ofBytes hread).1
        · cases h

variable [ScalarField.Lawful F] [PointGroup.Lawful F G]

omit [ScalarField.Canonical F] [PointGroup.Canonical F G] in
theorem forgetTags_beq (payment : AnyPayment F G) : (payment.forgetTags == payment) = true := by
  cases payment with
  | account payment =>
    show (payment == payment) = true
    exact BEq.rfl
  | oneTime payment =>
    show (payment.rangeProof == payment.rangeProof
      && payment.inputs.map (·.forgetTag) == payment.inputs
      && payment.outputs.map (·.forgetTag) == payment.outputs) = true
    rw [BEq.rfl, OneTimeCoin.map_forgetTag_beq, OneTimeCoin.map_forgetTag_beq]
    rfl
  | conversion payment =>
    show (payment.inputs == payment.inputs
      && payment.outputs.map (·.forgetTag) == payment.outputs
      && payment.serialProofs == payment.serialProofs) = true
    rw [BEq.rfl, BEq.rfl, OneTimeCoin.map_forgetTag_beq]
    rfl

/-- However a payment came about, it fits its encoding. -/
theorem Arises.fits [FullBases F G] {payment : AnyPayment F G} (h : payment.Arises) :
    payment.Fits := by
  cases h with
  | account h => exact AccountSpend.fits_of_returns h
  | oneTime h => exact OneTimeSpend.fits_of_returns h
  | conversion h => exact ConversionSpend.fits_of_returns h
  | read h => exact fits_of_ofBytes h

/-- **Encoding a payment loses nothing.** A payment that was made or read is written with an exact
layout: at every depth, each count and each length fits its bytes, and nothing is cut. The lengths of
one or two bytes, in front of sealed coins and in them, are read with the width that they were written
with. The encoding is read back as a payment that is equal in all its parts; raw asset tags, which are
only remembered and do not count for equality, are forgotten. -/
theorem encoding_lossless [FullBases F G] {payment : AnyPayment F G} (h : payment.Arises) :
    payment.layout.render = payment.toBytes ∧ payment.layout.Exact ∧
      (∀ coin ∈ payment.sealedCoins,
        (Reader.dualPrefixed SealedCoin.ofBytes).Reads
          (dualLength coin.toBytes.length ++ coin.toBytes) coin ∧
        (Reader.dualPrefixed AccountCoin.ofBytes).Reads
          (dualLength coin.details.toBytes.length ++ coin.details.toBytes) coin.details) ∧
      ofBytes payment.toBytes = .ok payment.forgetTags ∧ (payment.forgetTags == payment) = true :=
  ⟨payment.render_layout, exact_layout h.fits,
    fun coin hcoin => ⟨SealedCoin.reads_dual (h.fits.of_sealed coin hcoin),
      AccountCoin.reads_dual (h.fits.of_sealed coin hcoin).details⟩,
    ofBytes_toBytes h.fits, payment.forgetTags_beq⟩

end

/-- A payment that creates one coin, in the open, with a memo of 250 bytes. -/
def memoPayment : AnyPayment Curve.Scalar Exponent :=
  .account { outputs := [{ details := { value := 7, info := List.replicate 250 1 } }] }

set_option maxRecDepth 4000 in
theorem read_memoPayment : ofBytes memoPayment.toBytes = .ok memoPayment := rfl

/-- The coin has 258 bytes, so that both lengths before it have two. -/
theorem encoding_lossless_memoPayment :
    memoPayment.Arises ∧ memoPayment.layout.Exact ∧
      (memoPayment.sealedCoins.map fun coin => dualLength coin.details.toBytes.length) = [[1, 2]] ∧
      ofBytes memoPayment.toBytes = .ok memoPayment.forgetTags ∧
      (memoPayment.forgetTags == memoPayment) = true := by
  have harises : memoPayment.Arises := .read read_memoPayment
  obtain ⟨-, hexact, -, hread, hsame⟩ := encoding_lossless harises
  exact ⟨harises, hexact, by decide +kernel, hread, hsame⟩

end AnyPayment

end ShieldedPayments
