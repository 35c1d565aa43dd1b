import ShieldedPayments.Proofs.Group.Exponents
import ShieldedPayments.Proofs.Pairwise
import ShieldedPayments.Proofs.Payment.Conversion
import ShieldedPayments.Proofs.Payment.Hidden
import ShieldedPayments.Proofs.Payment.Open
import ShieldedPayments.Payment.Basic

/-!
# No coin is spent twice in one payment

The nullifier of an input is its serial number or its key image. Whatever the version of a payment, all
inputs of an accepted one have nullifiers, which are different points; those of account coins are the
points that the proofs of serial numbers are about, position by position
(`AnyPayment.nullifiers_distinct`).

Each version checks this in its own way. The set of serial numbers of an account payment leaves out
inputs without one, so it only says something because each input is compared with its proof as well
(`AccountPayment.checkSerials_eq_ok_iff`). Payments of one-time coins and conversions build the set while
they walk the inputs (`OneTimePayment.checkKeyImages_eq_ok_iff`, `Conversion.serials_of_checkInputs`).
-/

namespace ShieldedPayments

theorem allDistinct_iff_nodup (bs : List Bytes) : allDistinct bs = true ↔ bs.Nodup := by
  induction bs with
  | nil => exact ⟨fun _ => List.nodup_nil, fun _ => rfl⟩
  | cons b bs ih =>
    rw [allDistinct, Bool.and_eq_true, ih, List.nodup_cons, Bool.not_eq_true', List.contains_eq_mem,
      decide_eq_false_iff_not]

variable {F G : Type} [ScalarField F] [PointGroup F G]

omit [ScalarField F] [PointGroup F G] in
/-- Coins whose serial numbers are the points that accepted proofs are about, position by position. -/
theorem serials_of_forall₂ {α : Type} {coins : List (AccountCoin F G)} {proofs : List α}
    {serial : α → G} {Accepted : α → Prop}
    (h : List.Forall₂ (fun coin proof => coin.serialNumber = some (serial proof) ∧ Accepted proof) coins
      proofs) :
    coins.map (·.serialNumber) = (proofs.map serial).map some ∧
      List.Forall₂ (fun proof point => serial proof = point ∧ Accepted proof) proofs
        (proofs.map serial) := by
  constructor
  · rw [List.map_map]
    exact map_eq_of_forall₂ h fun _ _ hproof => hproof.1
  · rw [List.forall₂_map_right_iff, List.forall₂_same]
    exact fun proof hproof => ⟨rfl, forall_mem_of_forall₂ h (fun _ _ hproof => hproof.2) proof hproof⟩

/-! ## Account payments -/

namespace AccountPayment

omit [ScalarField F] in
/-- Where all inputs have serial numbers, the check for those that occur twice sees all of them. -/
theorem checkSerials_eq_ok_iff {coins : List (AccountCoin F G)} {serials : List G}
    (h : coins.map (·.serialNumber) = serials.map some) :
    checkSerials coins = .ok () ↔ (serials.map PointGroup.encode).Nodup := by
  have hserials : coins.filterMap (·.serialNumber) = serials :=
    calc coins.filterMap (·.serialNumber)
        = (coins.map (·.serialNumber)).filterMap id := by rw [List.filterMap_map]; rfl
      _ = serials := by rw [h, List.filterMap_map]; exact List.filterMap_some
  rw [checkSerials, ensure_eq_ok_iff, allDistinct_iff_nodup, hserials]

variable {payment : AccountPayment F G} {context : VerifyContext} {source : CommitmentSource G}

/-- Each input of a transparent payment has the serial number of the proof at its position. -/
theorem OpenHolds.forall_serials (h : payment.OpenHolds context source) :
    List.Forall₂ (fun coin proof => coin.serialNumber = some proof.statement.serial ∧
      proof.verify none = .ok ()) payment.inputs payment.serialProofs := by
  have hproofs : (payment.serialProofs.zip payment.ledgerIndices).map Prod.fst =
      payment.serialProofs :=
    List.map_fst_zip (h.serialProofs.trans h.ledgerIndices.symm).le
  rw [← hproofs, List.forall₂_map_right_iff, List.forall₂_iff_zip]
  constructor
  · rw [List.length_zip, h.serialProofs, h.ledgerIndices, min_self]
  · intro coin input hmem
    have hinput := h.inputs coin input.1 input.2 hmem
    exact ⟨hinput.serial, hinput.proved⟩

omit [ScalarField F] [PointGroup F G] in
theorem HiddenShape.length_inputEntries (h : payment.HiddenShape) :
    payment.inputEntries.length = payment.inputs.length := by
  simp only [inputEntries, ringIndices, List.length_zipWith, List.length_zip, List.length_map,
    List.length_range, h.inputValues, h.inputDerivators, h.ringProofs, h.hiddenSerialProofs, min_self]

omit [ScalarField F] [PointGroup F G] in
/-- Each input of a private payment is checked together with the proof at its position. -/
theorem HiddenShape.forall_entries (h : payment.HiddenShape) :
    List.Forall₂ (fun coin proof => ∃ entry ∈ payment.inputEntries, entry.coin = coin ∧
      entry.serialProof = proof) payment.inputs payment.hiddenSerialProofs := by
  refine List.forall₂_iff_get.mpr ⟨h.hiddenSerialProofs.symm, fun i hcoin hproof => ?_⟩
  have hentry : i < payment.inputEntries.length := h.length_inputEntries ▸ hcoin
  refine ⟨payment.inputEntries[i], List.getElem_mem hentry, ?_, ?_⟩
  · simp only [inputEntries, List.getElem_zipWith, List.get_eq_getElem]
  · simp only [inputEntries, List.getElem_zipWith, List.getElem_zip, List.get_eq_getElem]

/-- The proofs of serial numbers of a payment are accepted, and these are the points that they are about,
in their order. -/
def SerialsProved (payment : AccountPayment F G) (serials : List G) : Prop :=
  if payment.isPrivate then
    ∃ key, payment.inputKey = some key ∧
      List.Forall₂ (fun proof serial => proof.serial = serial ∧ proof.verify key none = .ok ())
        payment.hiddenSerialProofs serials
  else
    List.Forall₂ (fun proof serial => proof.statement.serial = serial ∧ proof.verify none = .ok ())
      payment.serialProofs serials

variable [PointGroup.Lawful F G]

/-- Each input of a private payment has the serial number of the proof at its position. -/
theorem HiddenHolds.forall_serials {key shard : G} {rangeProof : RangeProof F G}
    (h : payment.HiddenHolds context source key shard rangeProof) :
    List.Forall₂ (fun coin proof => coin.serialNumber = some proof.serial ∧
      proof.verify key none = .ok ()) payment.inputs payment.hiddenSerialProofs := by
  refine h.shape.forall_entries.imp ?_
  rintro _ _ ⟨entry, hentry, rfl, rfl⟩
  obtain ⟨members, hinput⟩ :=
    (checkHiddenInput_eq_ok_iff context source key shard entry).mp (h.inputs entry hentry)
  exact ⟨hinput.serial, hinput.serialProof⟩

/-- The inputs of an accepted payment have different serial numbers, which are proved. -/
theorem serials_of_verify [ScalarField.Lawful F] (haccepted : payment.verify context source = .ok ()) :
    ∃ serials : List G, payment.inputs.map (·.serialNumber) = serials.map some ∧ serials.Nodup ∧
      payment.SerialsProved serials := by
  unfold SerialsProved
  -- The serial numbers are read off the proofs, so that the set that is checked leaves none out.
  cases hprivate : payment.isPrivate with
  | true =>
    obtain ⟨key, shard, rangeProof, h⟩ :=
      (verify_eq_ok_iff_of_private payment context source hprivate).mp haccepted
    obtain ⟨hserials, hproved⟩ := serials_of_forall₂ h.forall_serials
    have hdistinct := (checkSerials_eq_ok_iff hserials).mp h.serials
    exact ⟨_, hserials, hdistinct.of_map, key, h.inputKey, hproved⟩
  | false =>
    have h := ((verify_eq_ok_iff_of_open payment context source hprivate).mp haccepted).1
    obtain ⟨hserials, hproved⟩ := serials_of_forall₂ h.forall_serials
    have hdistinct := (checkSerials_eq_ok_iff hserials).mp h.serials
    exact ⟨_, hserials, hdistinct.of_map, hproved⟩

end AccountPayment

/-! ## Payments of one-time coins -/

namespace OneTimePayment

omit [ScalarField F] in
/-- The check for key images passes if all inputs have one, and none of these occurs twice or was seen
before. -/
theorem checkKeyImages_eq_ok_iff (seen : List Bytes) (coins : List (OneTimeCoin F G)) :
    checkKeyImages seen coins = .ok () ↔ ∃ images : List G,
      coins.map (·.keyImage) = images.map some ∧ (images.map PointGroup.encode).Nodup ∧
        ∀ image ∈ images, PointGroup.encode image ∉ seen := by
  induction coins generalizing seen with
  | nil =>
    refine ⟨fun _ => ⟨[], rfl, List.nodup_nil, fun _ h => absurd h List.not_mem_nil⟩, fun _ => rfl⟩
  | cons coin coins ih =>
    unfold checkKeyImages
    simp only [require_bind_eq_ok_iff, ensure_bind_eq_ok_iff, ih, Bool.not_eq_true',
      List.contains_eq_mem, decide_eq_false_iff_not, List.mem_cons, not_or]
    -- What the rest must not have seen is what was seen before, and the image of the first coin.
    constructor
    · rintro ⟨image, himage, hfresh, images, himages, hdistinct, hseen⟩
      refine ⟨image :: images, ?_, ?_, ?_⟩
      · rw [List.map_cons, List.map_cons, himage, himages]
      · rw [List.map_cons, List.nodup_cons]
        refine ⟨fun hmem => ?_, hdistinct⟩
        obtain ⟨other, hother, hsame⟩ := List.mem_map.mp hmem
        exact (hseen other hother).1 hsame
      · rw [List.forall_mem_cons]
        exact ⟨hfresh, fun other hother => (hseen other hother).2⟩
    · rintro ⟨_ | ⟨image, images⟩, himages, hdistinct, hseen⟩
      · cases himages
      · obtain ⟨himage, himages⟩ := List.cons_eq_cons.mp himages
        rw [List.map_cons, List.nodup_cons] at hdistinct
        rw [List.forall_mem_cons] at hseen
        refine ⟨image, himage, hseen.1, images, himages, hdistinct.2, fun other hother => ?_⟩
        exact ⟨fun hsame => hdistinct.1 (hsame ▸ List.mem_map_of_mem hother), hseen.2 other hother⟩

/-- The inputs of an accepted payment have different key images. -/
theorem keyImages_of_verify {payment : OneTimePayment F G} {context : VerifyContext}
    (haccepted : payment.verify context = .ok ()) :
    ∃ images : List G, payment.inputs.map (·.keyImage) = images.map some ∧ images.Nodup := by
  unfold verify at haccepted
  simp only [Outcome.check_bind_eq_ok_iff] at haccepted
  obtain ⟨-, -, hcheck, -⟩ := haccepted
  obtain ⟨images, himages, hdistinct, -⟩ := (checkKeyImages_eq_ok_iff [] payment.inputs).mp hcheck
  exact ⟨images, himages, hdistinct.of_map⟩

end OneTimePayment

/-! ## Conversions -/

namespace Conversion

variable [PointGroup.Lawful F G]

/-- Inputs that pass have the serial numbers that are proved for them, and none of these occurs twice or
was seen before. -/
theorem serials_of_checkInputs {params : ShardParams} {seen : List Bytes}
    {inputs : List (AccountCoin F G × SerialProof F G)}
    (h : checkInputs params seen inputs = .ok ()) :
    (∀ input ∈ inputs, input.1.serialNumber = some input.2.statement.serial ∧
        input.2.verify none = .ok () ∧ PointGroup.encode input.2.statement.serial ∉ seen) ∧
      (inputs.map fun input => PointGroup.encode input.2.statement.serial).Nodup := by
  induction inputs generalizing seen with
  | nil => exact ⟨fun _ h => absurd h List.not_mem_nil, List.nodup_nil⟩
  | cons input inputs ih =>
    obtain ⟨coin, proof⟩ := input
    obtain ⟨hinput, hrest⟩ := (checkInputs_cons_iff params seen coin proof inputs).mp h
    obtain ⟨hinputs, hdistinct⟩ := ih hrest
    have hserial : coin.serialNumber = some proof.statement.serial := by
      have hstatement := hinput.statement
      unfold AccountPayment.matchesStatement at hstatement
      rw [Bool.and_eq_true, beq_iff_eq] at hstatement
      exact hstatement.2
    constructor
    · rw [List.forall_mem_cons]
      refine ⟨⟨hserial, hinput.proof, hinput.fresh⟩, fun other hother => ?_⟩
      obtain ⟨hother, hproof, hseen⟩ := hinputs other hother
      exact ⟨hother, hproof, fun hmem => hseen (List.mem_cons_of_mem _ hmem)⟩
    · rw [List.map_cons, List.nodup_cons]
      refine ⟨fun hmem => ?_, hdistinct⟩
      obtain ⟨other, hother, hsame⟩ := List.mem_map.mp hmem
      exact (hinputs other hother).2.2 (hsame ▸ List.mem_cons_self)

/-- The proofs of serial numbers of a conversion are accepted, and these are the points that they are
about, in their order. -/
def SerialsProved (conversion : Conversion F G) (serials : List G) : Prop :=
  List.Forall₂ (fun proof serial => proof.statement.serial = serial ∧ proof.verify none = .ok ())
    conversion.serialProofs serials

/-- The inputs of an accepted conversion have different serial numbers, which are proved. -/
theorem serials_of_verify {conversion : Conversion F G} {context : VerifyContext}
    (haccepted : conversion.verify context = .ok ()) :
    ∃ serials : List G, conversion.inputs.map (·.serialNumber) = serials.map some ∧ serials.Nodup ∧
      conversion.SerialsProved serials := by
  have h := (verify_eq_ok_iff conversion context).mp haccepted
  obtain ⟨hinputs, hdistinct⟩ := serials_of_checkInputs h.inputs
  have hforall : List.Forall₂ (fun coin proof => coin.serialNumber = some proof.statement.serial ∧
      proof.verify none = .ok ()) conversion.inputs conversion.serialProofs := by
    refine List.forall₂_iff_zip.mpr ⟨h.serialProofs.symm, fun {coin proof} hmem => ?_⟩
    obtain ⟨hserial, hproof, -⟩ := hinputs (coin, proof) hmem
    exact ⟨hserial, hproof⟩
  obtain ⟨hserials, hproved⟩ := serials_of_forall₂ hforall
  refine ⟨_, hserials, List.Nodup.of_map PointGroup.encode ?_, hproved⟩
  have hproofs : (conversion.inputs.zip conversion.serialProofs).map Prod.snd =
      conversion.serialProofs := List.map_snd_zip h.serialProofs.le
  rw [List.map_map, ← hproofs, List.map_map]
  exact hdistinct

end Conversion

/-! ## Payments of any version -/

namespace AnyPayment

/-- The proofs of serial numbers that come with a payment of account coins are accepted, and these are the
points that they are about, in their order. Payments of one-time coins come with no such proofs. -/
def SerialsProved : AnyPayment F G → List G → Prop
  | account payment, serials => payment.SerialsProved serials
  | oneTime _, _ => True
  | conversion payment, serials => payment.SerialsProved serials

/-- **No coin is spent twice in one payment.** If a payment of any version is accepted, each of its inputs
has a nullifier, and these are pairwise different points. The nullifiers of account coins are the serial
numbers that the accepted proofs of the payment are about, position by position. -/
theorem nullifiers_distinct [ScalarField.Lawful F] [PointGroup.Lawful F G] (payment : AnyPayment F G)
    (context : VerifyContext) (source : CommitmentSource G)
    (haccepted : payment.verify context source = .ok ()) :
    ∃ nullifiers : List G, payment.inputs.map (·.view.nullifier) = nullifiers.map some ∧
      nullifiers.Nodup ∧ payment.SerialsProved nullifiers := by
  cases payment with
  | account payment =>
    obtain ⟨serials, hserials, hdistinct, hproved⟩ := AccountPayment.serials_of_verify haccepted
    exact ⟨serials, List.map_map.trans hserials, hdistinct, hproved⟩
  | oneTime payment =>
    obtain ⟨images, himages, hdistinct⟩ := OneTimePayment.keyImages_of_verify haccepted
    exact ⟨images, List.map_map.trans himages, hdistinct, trivial⟩
  | conversion payment =>
    obtain ⟨serials, hserials, hdistinct, hproved⟩ := Conversion.serials_of_verify haccepted
    exact ⟨serials, List.map_map.trans hserials, hdistinct, hproved⟩

end AnyPayment

/-! ## A conversion of two coins -/

namespace Conversion

open Curve (Scalar)

/-- A coin of the owner of `coinOfValue` with the opposite derivator, so with the opposite serial
number. -/
def oppositeCoin (value : UInt64) : AccountCoin Scalar Exponent where
  publicKey := some 0
  commitment := some (0 + (ofNat value.toNat : Scalar) • (pedersen : PedersenBases Exponent).value
    + (-1 : Scalar) • (pedersen : PedersenBases Exponent).derivator
    + (ofNat 0 : Scalar) • (pedersen : PedersenBases Exponent).shard
    + (0 : Scalar) • (pedersen : PedersenBases Exponent).blinding)
  derivator := some (-1)
  serialNumber := some (-(pedersen : PedersenBases Exponent).spendKey)
  randomness := some 0
  value := value

/-- The proof of the serial number of such a coin. -/
def serialOfOpposite : SerialProof Scalar Exponent :=
  ⟨⟨-(pedersen : PedersenBases Exponent).spendKey, 0, -1⟩, 0, 0, 0⟩

theorem verify_serialOfOpposite : serialOfOpposite.verify none = .ok () := by
  rw [SerialProof.verify_eq_ok_iff]
  generalize none.getD _ = x
  constructor
  · show (baseMultiple 0 : Exponent) = x • (0 : Exponent) + 0
    rw [PointGroup.baseMultiple_eq, zero_smul, smul_zero, zero_add]
  · show (0 + x * -1) • -(pedersen : PedersenBases Exponent).spendKey = baseMultiple x + 0
    rw [PointGroup.baseMultiple_eq, zero_add, mul_neg_one, neg_smul_neg, add_zero]

/-- A conversion of two coins of one owner. -/
def ofTwoCoins : Conversion Scalar Exponent where
  inputs := [coinOfValue 7, oppositeCoin 3]
  outputs := [coinOfAmount 10]
  serialProofs := [serialOfZero, serialOfOpposite]

theorem verify_ofTwoCoins : ofTwoCoins.verify { fee := 0, shard := 0 } = .ok () := by
  rw [verify_eq_ok_iff]
  refine ⟨List.cons_ne_nil _ _, rfl, List.cons_ne_nil _ _, by decide, ?_, ?_, by decide +kernel⟩
  · show checkInputs {} [] [(_, serialOfZero), (_, serialOfOpposite)] = .ok ()
    rw [checkInputs_cons_iff, checkInputs_cons_iff]
    refine ⟨⟨?_, List.not_mem_nil, ?_, verify_serialOfZero⟩,
      ⟨?_, by decide +kernel, ?_, verify_serialOfOpposite⟩, rfl⟩
    · simp [AccountPayment.matchesStatement, coinOfValue, serialOfZero]
    · rw [AccountCoin.verifyCommitment_eq_ok_iff]
      exact ⟨0, 1, 0, 0, coinOfValue_opens 7⟩
    · simp [AccountPayment.matchesStatement, oppositeCoin, serialOfOpposite]
    · rw [AccountCoin.verifyCommitment_eq_ok_iff]
      exact ⟨0, -1, 0, 0, rfl, rfl, by decide, rfl, rfl⟩
  · intro coin hcoin
    obtain rfl := List.mem_singleton.mp hcoin
    exact ⟨0, 10, coinOfAmount_opens 10⟩

end Conversion

theorem AnyPayment.nullifiers_distinct_two_coins :
    Conversion.ofTwoCoins.verify { fee := 0, shard := 0 } = .ok () ∧ ∃ nullifiers : List Exponent,
      Conversion.ofTwoCoins.inputs.map (·.serialNumber) = nullifiers.map some ∧ nullifiers.Nodup ∧
        Conversion.ofTwoCoins.SerialsProved nullifiers :=
  ⟨Conversion.verify_ofTwoCoins, nullifiers_distinct (.conversion Conversion.ofTwoCoins) _
    (fun _ _ _ => .ok 0) Conversion.verify_ofTwoCoins⟩

end ShieldedPayments
