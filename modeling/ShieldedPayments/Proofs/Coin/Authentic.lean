import ShieldedPayments.Proofs.Group.Exponents
import ShieldedPayments.Proofs.Coin.OneTimeKey
import ShieldedPayments.Proofs.Coin.Revealing
import ShieldedPayments.Proofs.Coin.Sealing
import ShieldedPayments.Coin.Basic

/-!
# What a revealed coin says about its commitment

A coin that carries a commitment is revealed, or refused for a cause that has a wording. What is revealed
of a one-time coin or of a sealed account coin opens the commitment. The fields of an account coin that is
not sealed are taken as they are: it is revealed to any key set that may decrypt, whether they lead to its
commitment or not (`OutputCoin.reveal_authenticates`).
-/

namespace ShieldedPayments

variable {F G : Type} [ScalarField F] [PointGroup F G]

/-- The fields of a coin in the open lead to a commitment. -/
def InputCoin.LeadsTo (coin : InputCoin F G) (params : ShardParams) (commitment : G) : Prop :=
  match coin with
  | account c => c.expectedCommitment params = .ok commitment
  | oneTime c => c.expectedCommitment = some commitment

/-- The opening of a coin is checked when it is revealed: a sealed one, or that of a one-time coin. -/
def OutputCoin.Checked : OutputCoin F G → Prop
  | account coin => coin.encrypted.isSome = true
  | oneTime _ => True

/-! ## Revealing never fails without a wording -/

theorem ShardParams.defined_shardOf {params : ShardParams} (hshards : params.numShards ≠ 0)
    (lastByte : UInt8) : (params.shardOf lastByte).Defined := by
  rw [shardOf, if_neg hshards]
  exact Outcome.defined_ok _

theorem AccountCoin.defined_expectedCommitment (coin : AccountCoin F G) {params : ShardParams}
    (hshards : params.numShards ≠ 0) : (coin.expectedCommitment params).Defined := by
  refine Outcome.defined_require_bind (by nofun) fun _ => ?_
  refine Outcome.defined_require_bind (by nofun) fun _ => ?_
  refine Outcome.defined_require_bind (by nofun) fun _ => ?_
  refine Outcome.Defined.bind ?_ fun _ _ => Outcome.defined_ok _
  exact Outcome.defined_require_bind (by nofun) fun _ => ShardParams.defined_shardOf hshards _

theorem AccountCoin.defined_verifyCommitment (coin : AccountCoin F G) {params : ShardParams}
    (hshards : params.numShards ≠ 0) : (coin.verifyCommitment params).Defined := by
  refine Outcome.defined_require_bind (by nofun) fun _ => ?_
  exact (coin.defined_expectedCommitment hshards).bind fun _ _ => Outcome.defined_ensure (by nofun)

theorem HybridCiphertext.defined_decrypt (ct : HybridCiphertext) (view : F) :
    (ct.decrypt G view).Defined := by
  refine (Outcome.defined_ensure (by nofun)).bind fun _ _ => ?_
  exact (Outcome.defined_mapError (by nofun)).bind fun _ _ => Outcome.defined_ok _

namespace SealedCoin

omit [PointGroup F G] in
theorem defined_withOpening (coin : AccountCoin F G) (message : Bytes) :
    (withOpening coin message).Defined := by
  refine (Outcome.defined_ensure (by nofun)).bind fun _ _ => ?_
  refine (Outcome.defined_mapError (by nofun)).bind fun _ _ => ?_
  exact (Outcome.defined_mapError (by nofun)).bind fun _ _ => Outcome.defined_ok _

theorem defined_openSeal (coin : SealedCoin F G) (view : F) {params : ShardParams}
    (hshards : params.numShards ≠ 0) : (coin.openSeal view params).Defined := by
  unfold openSeal
  cases coin.encrypted with
  | none => exact Outcome.defined_ok _
  | some ct =>
    refine (ct.defined_decrypt view).bind fun message _ => ?_
    refine (defined_withOpening _ message).bind fun opened _ => ?_
    dsimp only
    split
    · exact (opened.defined_verifyCommitment hshards).bind fun _ _ => Outcome.defined_ok _
    · exact Outcome.defined_ok _

theorem defined_reveal (coin : SealedCoin F G) (keys : KeySet F G) {params : ShardParams}
    (hshards : params.numShards ≠ 0) : (coin.reveal keys params).Defined := by
  refine Outcome.defined_require_bind (by nofun) fun view => ?_
  refine (coin.defined_openSeal view hshards).bind fun opened _ => ?_
  split
  · exact Outcome.defined_ok _
  · exact Outcome.defined_require_bind (by nofun) fun _ => Outcome.defined_ok _

end SealedCoin

namespace OneTimeCoin

theorem defined_keyImageFor (coin : OneTimeCoin F G) (sk : PrivateKey F) :
    (coin.keyImageFor sk).Defined := by
  have hsecret : (coin.oneTimeSecret sk).Defined := by
    refine Outcome.defined_require_bind (by nofun) fun _ => ?_
    refine Outcome.Defined.bind ?_ fun _ _ => Outcome.defined_ok _
    exact Outcome.defined_require_bind (by nofun) fun _ => Outcome.defined_ok _
  exact Outcome.defined_require_bind (by nofun) fun _ => hsecret.bind fun _ _ => Outcome.defined_ok _

theorem defined_removeOffsets (coin : OneTimeCoin F G) (view : F) :
    (coin.removeOffsets view).Defined := by
  refine Outcome.defined_require_bind (by nofun) fun _ => ?_
  refine Outcome.defined_require_bind (by nofun) fun _ => ?_
  exact Outcome.defined_require_bind (by nofun) fun _ => Outcome.defined_ok _

/-- Opening a coin before it is finished. -/
theorem defined_opened (coin : OneTimeCoin F G) (view : F)
    {finish : OneTimeCoin F G → Outcome (OneTimeCoin F G)} (hfinish : ∀ opened, (finish opened).Defined) :
    Outcome.Defined (if coin.isEncrypted then do
      let opened ← coin.removeOffsets view
      ensure (!opened.isEncrypted) (.commitmentMismatch "coin v2 opening")
      finish opened
    else finish coin) := by
  split
  · refine (coin.defined_removeOffsets view).bind fun opened _ => ?_
    exact (Outcome.defined_ensure (by nofun)).bind fun _ _ => hfinish opened
  · exact hfinish coin

theorem defined_reveal (coin : OneTimeCoin F G) (keys : KeySet F G) :
    (coin.reveal keys).Defined := by
  refine Outcome.defined_require_bind (by nofun) fun view => ?_
  refine coin.defined_opened view fun opened => ?_
  split
  · exact Outcome.defined_ok _
  · exact (coin.defined_keyImageFor _).bind fun _ _ => Outcome.defined_ok _

end OneTimeCoin

/-! ## What revealing vouches for -/

theorem OutputCoin.defined_reveal (coin : OutputCoin F G) (keys : KeySet F G) {params : ShardParams}
    (hshards : params.numShards ≠ 0) : (coin.reveal keys params).Defined := by
  cases coin with
  | account c => exact (c.defined_reveal keys hshards).map
  | oneTime c => exact (c.defined_reveal keys).map

/-- Of an account coin that is not sealed nothing but the serial number is computed. -/
theorem SealedCoin.reveal_unsealed_eq_ok_iff {details plain : AccountCoin F G} {keys : KeySet F G}
    {params : ShardParams} :
    SealedCoin.reveal { details } keys params = .ok plain ↔ keys.viewSecret.isSome = true ∧
      match keys.privateKey with
      | none => plain = details
      | some sk => ∃ derivator, details.derivator = some derivator ∧ plain =
          { details with serialNumber := some (Pedersen.serialNumber sk.secret derivator) } := by
  rw [reveal_eq_ok_iff, Option.isSome_iff_exists]
  constructor
  · rintro ⟨view, opened, hview, hopened, hplain⟩
    obtain rfl := Except.ok.inj hopened
    exact ⟨⟨view, hview⟩, hplain⟩
  · rintro ⟨⟨view, hview⟩, hplain⟩
    exact ⟨view, details, hview, rfl, hplain⟩

/-- The serial number has no part in the commitment. -/
theorem SealedCoin.expectedCommitment_of_reveal_unsealed {details plain : AccountCoin F G}
    {keys : KeySet F G} {params : ShardParams}
    (h : SealedCoin.reveal { details } keys params = .ok plain) :
    plain.commitment = details.commitment ∧
      plain.expectedCommitment params = details.expectedCommitment params := by
  obtain ⟨-, hplain⟩ := reveal_unsealed_eq_ok_iff.mp h
  cases hprivate : keys.privateKey with
  | none =>
    rw [hprivate] at hplain
    obtain rfl := hplain
    exact ⟨rfl, rfl⟩
  | some sk =>
    rw [hprivate] at hplain
    obtain ⟨derivator, -, rfl⟩ := hplain
    exact ⟨rfl, rfl⟩

/-- Who is let into an account coin that is not sealed does not depend on its commitment. -/
theorem SealedCoin.exists_reveal_unsealed_iff {details : AccountCoin F G} {keys : KeySet F G}
    {params : ShardParams} : (∃ plain, SealedCoin.reveal { details } keys params = .ok plain) ↔
      keys.viewSecret.isSome = true ∧
        (keys.privateKey.isSome = true → details.derivator.isSome = true) := by
  simp only [reveal_unsealed_eq_ok_iff, exists_and_left]
  refine and_congr_right fun _ => ?_
  cases keys.privateKey with
  | none => simp
  | some sk =>
    cases details.derivator with
    | none => simp
    | some derivator => simp

variable [ScalarField.Lawful F] [PointGroup.Lawful F G]

/-- What is checked when it is revealed leads to the commitment of the coin. -/
theorem OutputCoin.leadsTo_of_reveal {coin : OutputCoin F G} {keys : KeySet F G} {params : ShardParams}
    {commitment : G} {plain : InputCoin F G} (hcommitment : coin.view.commitment = some commitment)
    (hchecked : coin.Checked) (h : coin.reveal keys params = .ok plain) :
    plain.LeadsTo params commitment := by
  cases coin with
  | account c =>
    obtain ⟨revealed, hrevealed, rfl⟩ := Outcome.map_eq_ok_iff.mp h
    obtain ⟨_, _, _, _, -, -, hopens, hstored⟩ :=
      SealedCoin.opens_of_reveal hchecked hcommitment hrevealed
    obtain ⟨expected, hsame, hexpected⟩ := hopens.expectedCommitment_eq
    obtain rfl : expected = commitment := Option.some.inj (hsame.symm.trans hstored)
    exact hexpected
  | oneTime c =>
    obtain ⟨revealed, hrevealed, rfl⟩ := Outcome.map_eq_ok_iff.mp h
    exact OneTimeCoin.opens_of_reveal hcommitment hrevealed

/-- Revealing a coin leaves its commitment. -/
theorem OutputCoin.commitment_of_reveal {coin : OutputCoin F G} {keys : KeySet F G}
    {params : ShardParams} {commitment : G} {plain : InputCoin F G}
    (hcommitment : coin.view.commitment = some commitment)
    (h : coin.reveal keys params = .ok plain) : plain.view.commitment = some commitment := by
  cases coin with
  | account c =>
    obtain ⟨revealed, hrevealed, rfl⟩ := Outcome.map_eq_ok_iff.mp h
    by_cases hsealed : c.encrypted.isSome = true
    · obtain ⟨_, _, _, _, -, -, -, hstored⟩ :=
        SealedCoin.opens_of_reveal hsealed hcommitment hrevealed
      exact hstored
    · obtain ⟨details, encrypted⟩ := c
      obtain rfl : encrypted = none := Option.not_isSome_iff_eq_none.mp hsealed
      exact (SealedCoin.expectedCommitment_of_reveal_unsealed hrevealed).1.trans hcommitment
  | oneTime c =>
    obtain ⟨revealed, hrevealed, rfl⟩ := Outcome.map_eq_ok_iff.mp h
    rw [OneTimeCoin.eq_of_reveal hrevealed]
    exact hcommitment

/-- **What a revealed coin says about its commitment.** For a coin with a commitment, of either version
and however it came about, every key set, and parameters with at least one shard: it is revealed or
refused for one of the worded causes; what is revealed keeps the commitment, and opens it if the coin is a
one-time coin or sealed. An account coin that is not sealed is revealed to whoever may decrypt, if it has
the derivator that a private key needs, whatever it is committed to; what is revealed opens the commitment
exactly if the fields of the coin do. -/
theorem OutputCoin.reveal_authenticates (coin : OutputCoin F G) (keys : KeySet F G)
    {params : ShardParams} (hshards : params.numShards ≠ 0) {commitment : G}
    (hcommitment : coin.view.commitment = some commitment) :
    (coin.reveal keys params).Defined ∧
    (∀ plain, coin.reveal keys params = .ok plain → plain.view.commitment = some commitment ∧
      (coin.Checked → plain.LeadsTo params commitment)) ∧
    ∀ details, coin = .account { details } →
      ((∃ plain, coin.reveal keys params = .ok plain) ↔ keys.viewSecret.isSome = true ∧
        (keys.privateKey.isSome = true → details.derivator.isSome = true)) ∧
      ∀ plain, coin.reveal keys params = .ok plain →
        (plain.LeadsTo params commitment ↔ details.expectedCommitment params = .ok commitment) := by
  refine ⟨coin.defined_reveal keys hshards, fun plain hplain => ?_, ?_⟩
  · exact ⟨commitment_of_reveal hcommitment hplain,
      fun hchecked => leadsTo_of_reveal hcommitment hchecked hplain⟩
  · rintro details rfl
    constructor
    · rw [← SealedCoin.exists_reveal_unsealed_iff]
      simp only [reveal, Outcome.map_eq_ok_iff]
      constructor
      · rintro ⟨_, revealed, hrevealed, rfl⟩
        exact ⟨revealed, hrevealed⟩
      · rintro ⟨revealed, hrevealed⟩
        exact ⟨_, revealed, hrevealed, rfl⟩
    · intro plain hplain
      obtain ⟨revealed, hrevealed, rfl⟩ := Outcome.map_eq_ok_iff.mp hplain
      show revealed.expectedCommitment params = .ok commitment ↔ _
      rw [(SealedCoin.expectedCommitment_of_reveal_unsealed hrevealed).2]

/-! ## A sealed coin, and one in the open with another value -/

section

open Curve (Scalar)

/-- A coin of the given value with the commitment that leads to the value five. -/
def committedToFive (value : UInt64) : AccountCoin Scalar Exponent where
  publicKey := some ⟨2⟩
  commitment := some ⟨56⟩
  derivator := some 3
  randomness := some 7
  value := value

/-- What may decrypt coins with the view secret nine. -/
def viewingNine : KeySet Scalar Exponent :=
  .ofViewingKey ⟨0, 9⟩ ⟨0, 0, none⟩

theorem opens_committedToFive : (committedToFive 5).Opens { numShards := 1 } ⟨2⟩ 3 0 7 :=
  ⟨rfl, rfl, ShardParams.shardOf_single rfl _, rfl, by decide⟩

/-- The coin of value five, sealed to the view secret nine on a tape of zeros. -/
def sealedFive : SealedCoin Scalar Exponent :=
  SealedCoin.strip ⟨committedToFive 5, some ((HybridCiphertext.encrypt
    (SealedCoin.opening (7 : Scalar) (committedToFive 5).value) (baseMultiple 9 : Exponent)).run
      ⟨[], fun _ => [], 0⟩).1⟩

/-- The sealed coin is revealed, and opens its commitment. -/
theorem OutputCoin.reveal_authenticates_sealed_five :
    ∃ plain, (OutputCoin.account sealedFive).reveal viewingNine { numShards := 1 } = .ok plain ∧
      plain.view.value = 5 ∧ plain.LeadsTo { numShards := 1 } ⟨56⟩ := by
  have hview : viewingNine.viewSecret = some 9 := rfl
  obtain ⟨serialNumber, hreveal⟩ : ∃ serialNumber, sealedFive.reveal viewingNine { numShards := 1 } =
      .ok { committedToFive 5 with serialNumber } :=
    SealedCoin.exists_reveal_encrypt hview opens_committedToFive ⟨[], fun _ => [], 0⟩
  have hok : (OutputCoin.account sealedFive).reveal viewingNine { numShards := 1 } =
      .ok (.account { committedToFive 5 with serialNumber }) := by
    rw [OutputCoin.reveal, hreveal]
    rfl
  have hauthentic := reveal_authenticates (.account sealedFive) viewingNine
    (by decide : ({ numShards := 1 } : ShardParams).numShards ≠ 0) rfl
  exact ⟨_, hok, rfl, (hauthentic.2.1 _ hok).2 rfl⟩

/-- A coin in the open that says six is revealed with this value, to which it is not committed. -/
theorem OutputCoin.reveal_six_committed_to_five :
    ∃ plain, (OutputCoin.account { details := committedToFive 6 }).view.commitment = some ⟨56⟩ ∧
      (OutputCoin.account { details := committedToFive 6 }).reveal viewingNine { numShards := 1 } =
        .ok plain ∧
      plain.view.value = 6 ∧ ¬plain.LeadsTo { numShards := 1 } ⟨56⟩ := by
  refine ⟨.account (committedToFive 6), rfl, rfl, rfl, fun hleads => ?_⟩
  have hexpected : (committedToFive 6).expectedCommitment { numShards := 1 } = .ok ⟨58⟩ := by
    decide +kernel
  have hsame := hexpected.symm.trans (hleads : (committedToFive 6).expectedCommitment _ = _)
  exact absurd (Except.ok.inj hsame) (by decide)

end

end ShieldedPayments
