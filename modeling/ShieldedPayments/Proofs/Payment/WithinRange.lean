import ShieldedPayments.Curve.Ristretto
import ShieldedPayments.Proofs.Coin.ReadBack
import ShieldedPayments.Proofs.Coin.RevealedTwice
import ShieldedPayments.Proofs.Payment.AccountDefined
import ShieldedPayments.Proofs.Payment.ByIndex
import ShieldedPayments.Proofs.Payment.Decoding
import ShieldedPayments.Proofs.Payment.Lossless
import ShieldedPayments.Proofs.Payment.OpenConserves

/-!
# Nothing that a stranger sends is out of range

Bytes from a stranger are decoded, and what they decode to is checked, or opened with one's own keys. All
of it ends in a result or in a refusal for one of the worded causes, for every string of bytes: no slice or
element that is out of range is asked for, nothing is shifted by more bits than a machine word has, and no
remainder is taken by zero (`AnyPayment.decoded_within_range`). This needs parameters with at least one
shard, and a ledger that itself answers or refuses.
-/

namespace ShieldedPayments

variable {F G : Type} [ScalarField F] [PointGroup F G]

/-! ## Payments of account coins -/

namespace AccountPayment

variable {context : VerifyContext} {source : CommitmentSource G}

theorem defined_verifyOpen (payment : AccountPayment F G) (hshards : context.params.numShards ≠ 0)
    (hsource : source.Answers) : (payment.verifyOpen context source).Defined := by
  have hinput (coin : AccountCoin F G) (proof : SerialProof F G) (index : UInt64) :
      (checkOpenInput context source coin proof index).Defined := by
    refine (Outcome.defined_ensure (by nofun)).bind fun _ _ => ?_
    refine (coin.defined_verifyCommitment hshards).bind fun _ _ => ?_
    refine (hsource _ _ _).bind fun _ _ => ?_
    exact (Outcome.defined_ensure (by nofun)).bind fun _ _ => proof.defined_verify none
  have houtput (coin : SealedCoin F G) : (checkOpenOutput context coin).Defined :=
    (Outcome.defined_ensure (by nofun)).bind fun _ _ => coin.details.defined_verifyCommitment hshards
  refine (Outcome.defined_ensure (by nofun)).bind fun _ _ => ?_
  refine (Outcome.defined_ensure (by nofun)).bind fun _ _ => ?_
  refine (Outcome.defined_forM fun (coin, proof, index) _ => hinput coin proof index).bind fun _ _ => ?_
  refine (Outcome.defined_forM fun coin _ => houtput coin).bind fun _ _ => ?_
  exact Balance.defined_check _ _ _ (by nofun)

theorem defined_verifyHidden (payment : AccountPayment F G) (hsource : source.Answers) :
    (payment.verifyHidden context source).Defined := by
  have hinput (key shard : G) (input : InputEntry F G) :
      (checkHiddenInput context source key shard input).Defined := by
    refine (defined_ring hsource _ _ _ _).bind fun members _ => ?_
    refine (input.ringProof.defined_verify members).bind fun _ _ => ?_
    refine (Outcome.defined_ensure (by nofun)).bind fun _ _ => ?_
    exact (Outcome.defined_ensure (by nofun)).bind fun _ _ => input.serialProof.defined_verify key none
  have houtput (coin : SealedCoin F G) (value derivator shard : G) :
      (checkHiddenOutput coin value derivator shard).Defined :=
    Outcome.defined_require_bind (by nofun) fun _ => Outcome.defined_ensure (by nofun)
  have hshape : payment.checkShape.Defined :=
    (Outcome.defined_ensure (by nofun)).bind fun _ _ => Outcome.defined_ensure (by nofun)
  refine hshape.bind fun _ _ => ?_
  refine Outcome.defined_require_bind (by nofun) fun key => ?_
  refine Outcome.defined_require_bind (by nofun) fun shard => ?_
  refine (Outcome.defined_ensure (by nofun)).bind fun _ _ => ?_
  refine (Outcome.defined_forM fun input _ => hinput key shard input).bind fun _ _ => ?_
  refine (Outcome.defined_forM fun (coin, value, derivator, shard) _ =>
    houtput coin value derivator shard).bind fun _ _ => ?_
  refine Outcome.defined_require_bind (by nofun) fun rangeProof => ?_
  refine (Outcome.defined_ensure (by nofun)).bind fun _ _ => ?_
  exact (rangeProof.defined_verify _ _).bind fun _ _ => Outcome.defined_ensure (by nofun)

theorem defined_verify (payment : AccountPayment F G) (hshards : context.params.numShards ≠ 0)
    (hsource : source.Answers) : (payment.verify context source).Defined := by
  unfold verify
  split
  · exact payment.defined_verifyHidden hsource
  · exact payment.defined_verifyOpen hshards hsource

end AccountPayment

/-! ## Payments of one-time coins, and conversions -/

namespace OneTimePayment

omit [ScalarField F] in
theorem defined_checkKeyImages (seen : List Bytes) (inputs : List (OneTimeCoin F G)) :
    (checkKeyImages seen inputs).Defined := by
  induction inputs generalizing seen with
  | nil => exact Outcome.defined_ok ()
  | cons coin inputs ih =>
    refine Outcome.defined_require_bind (by nofun) fun _ => ?_
    exact (Outcome.defined_ensure (by nofun)).bind fun _ _ => ih _

omit [ScalarField F] in
theorem defined_outputBase (payment : OneTimePayment F G) (confidentialAsset : Bool) :
    (payment.outputBase confidentialAsset).Defined := by
  unfold outputBase
  split
  · exact (Outcome.defined_ensure (by nofun)).bind fun _ _ => Outcome.defined_require (by nofun)
  · exact (Outcome.defined_ensure (by nofun)).bind fun _ _ => Outcome.defined_ok _

theorem defined_verify (payment : OneTimePayment F G) (context : VerifyContext) :
    (payment.verify context).Defined := by
  refine (Outcome.defined_ensure (by nofun)).bind fun _ _ => ?_
  refine (Outcome.defined_ensure (by nofun)).bind fun _ _ => ?_
  refine (defined_checkKeyImages [] payment.inputs).bind fun _ _ => ?_
  refine Outcome.defined_require_bind (by nofun) fun rangeProof => ?_
  refine (Outcome.defined_ensure (by nofun)).bind fun _ _ => ?_
  refine (Outcome.defined_mapM fun coin _ => Outcome.defined_require (by nofun)).bind fun _ _ => ?_
  refine (Outcome.defined_ensure (by nofun)).bind fun _ _ => ?_
  exact (payment.defined_outputBase _).bind fun base _ => rangeProof.defined_verify _ base

end OneTimePayment

namespace Conversion

theorem defined_checkInputs {params : ShardParams} (hshards : params.numShards ≠ 0)
    (seen : List Bytes) (inputs : List (AccountCoin F G × SerialProof F G)) :
    (checkInputs params seen inputs).Defined := by
  induction inputs generalizing seen with
  | nil => exact Outcome.defined_ok ()
  | cons input inputs ih =>
    refine (Outcome.defined_ensure (by nofun)).bind fun _ _ => ?_
    refine (Outcome.defined_ensure (by nofun)).bind fun _ _ => ?_
    refine (input.1.defined_verifyCommitment hshards).bind fun _ _ => ?_
    exact (input.2.defined_verify none).bind fun _ _ => ih _

theorem defined_verify (conversion : Conversion F G) {context : VerifyContext}
    (hshards : context.params.numShards ≠ 0) : (conversion.verify context).Defined := by
  have houtput (coin : OneTimeCoin F G) : (checkOutput coin).Defined :=
    (Outcome.defined_ensure (by nofun)).bind fun _ _ => Outcome.defined_ensure (by nofun)
  refine (Outcome.defined_ensure (by nofun)).bind fun _ _ => ?_
  refine (Outcome.defined_ensure (by nofun)).bind fun _ _ => ?_
  refine (defined_checkInputs hshards [] _).bind fun _ _ => ?_
  refine (Outcome.defined_forM fun coin _ => houtput coin).bind fun _ _ => ?_
  exact Outcome.defined_ensure (by nofun)

end Conversion

/-! ## Payments and coins of any version -/

section

variable [PointGroup.Sized F G] {context : VerifyContext}

theorem AnyPayment.withinRange_verify [PointGroup.FullBases F G] (payment : AnyPayment F G)
    (hshards : context.params.numShards ≠ 0) {source : CommitmentSource G} (hsource : source.Answers) :
    Outcome.WithinRange (payment.verifyByIndex context source) (payment.verify context source) := by
  refine .of_eq (payment.verifyByIndex_eq context source) ?_
  cases payment with
  | account payment => exact payment.defined_verify hshards hsource
  | oneTime payment => exact payment.defined_verify context
  | conversion payment => exact payment.defined_verify hshards

theorem CoinView.withinRange_shardId (view : CoinView F G) (hshards : context.params.numShards ≠ 0) :
    Outcome.WithinRange (view.shardIdByIndex context.params) (view.shardId context.params) :=
  .of_eq (view.shardIdByIndex_eq context.params) (view.defined_shardId hshards)

theorem OutputCoin.withinRange_reveal (coin : OutputCoin F G) (keys : KeySet F G)
    (hshards : context.params.numShards ≠ 0) :
    Outcome.WithinRange (coin.revealByIndex keys context.params) (coin.reveal keys context.params) :=
  .of_eq (coin.revealByIndex_eq keys context.params) (coin.defined_reveal keys hshards)

/-- **Whatever is decoded is checked within range.** Every string of bytes is decoded to a payment or
refused, and what it is decoded to is accepted or refused. The same holds for coins: every string of bytes
is decoded or refused, and for what it is decoded to, the shard, whether it belongs to a key set, and what
it is opened to are found or refused. No index, slice, shift, difference or remainder that comes up on the
way is out of range. -/
theorem AnyPayment.decoded_within_range [PointGroup.FullBases F G] (b : Bytes) (keys : KeySet F G)
    (hshards : context.params.numShards ≠ 0) {source : CommitmentSource G} (hsource : source.Answers) :
    (Outcome.WithinRange (AnyPayment.decode b) (AnyPayment.ofBytes b : Outcome (AnyPayment F G)) ∧
      ∀ payment : AnyPayment F G, AnyPayment.ofBytes b = .ok payment →
        Outcome.WithinRange (payment.verifyByIndex context source)
          (payment.verify context source)) ∧
    (Outcome.WithinRange (OutputCoin.decode b) (OutputCoin.ofBytes b : Outcome (OutputCoin F G)) ∧
      ∀ coin : OutputCoin F G, OutputCoin.ofBytes b = .ok coin →
        Outcome.WithinRange (coin.view.shardIdByIndex context.params)
          (coin.view.shardId context.params) ∧
        Outcome.WithinRange (coin.recogniseByIndex keys) (.ok (coin.recognise keys)) ∧
        Outcome.WithinRange (coin.revealByIndex keys context.params)
          (coin.reveal keys context.params)) ∧
    (Outcome.WithinRange (InputCoin.decode b) (InputCoin.ofBytes b : Outcome (InputCoin F G)) ∧
      ∀ coin : InputCoin F G, InputCoin.ofBytes b = .ok coin →
        Outcome.WithinRange (coin.view.shardIdByIndex context.params)
          (coin.view.shardId context.params) ∧
        Outcome.WithinRange (coin.recogniseByIndex keys) (.ok (coin.recognise keys))) := by
  refine ⟨⟨⟨decode_eq b, defined_decode b⟩, fun payment _ => ?_⟩,
    ⟨⟨OutputCoin.decode_eq b, OutputCoin.defined_decode b⟩, fun coin _ => ?_⟩,
    ⟨⟨InputCoin.decode_eq b, InputCoin.defined_decode b⟩, fun coin _ => ?_⟩⟩
  · exact payment.withinRange_verify hshards hsource
  · exact ⟨coin.view.withinRange_shardId hshards,
      .of_eq (coin.recogniseByIndex_eq keys) (Outcome.defined_ok _),
      coin.withinRange_reveal keys hshards⟩
  · exact ⟨coin.view.withinRange_shardId hshards,
      .of_eq (coin.recogniseByIndex_eq keys) (Outcome.defined_ok _)⟩

end

/-! ## A payment and a coin -/

section

open AccountPayment (openPayment openLedger verify_openPayment)
open Curve (Scalar)
open OneTimeCoin (concealedSeven minterKey unroutedSeven)

theorem fits_openPayment : openPayment.Fits where
  ringProofs := Nat.zero_le _
  hiddenSerialProofs := Nat.zero_le _
  serialProofs := by decide
  rangeProof _ h := by cases h
  inputCount := by decide
  inputs := by
    intro coin hcoin
    obtain rfl := List.mem_singleton.mp hcoin
    exact ⟨Nat.zero_le _, by decide +kernel⟩
  outputCount := by decide
  outputs := by
    intro coin hcoin
    rcases List.mem_pair.mp hcoin with rfl | rfl
    all_goals exact ⟨Nat.zero_le _, fun _ h => by cases h⟩
  outputValues := Nat.zero_le _
  outputDerivators := Nat.zero_le _
  outputShards := Nat.zero_le _
  inputValues := Nat.zero_le _
  inputDerivators := Nat.zero_le _
  ledgerIndices := by decide

/-- The encoding of a payment that spends and creates nothing: all lists in it are empty. -/
def emptyPayment : Bytes :=
  AccountPayment.version :: List.replicate 15 0

/-- Of a payment of ten that is read from its encoding, all is in range, and it is accepted. The same holds
of a concealed coin of seven, which the owner of a key opens; and, in the group of the program, of a payment
that has no inputs and outputs and pays no fee. -/
theorem AnyPayment.decoded_within_range_openPayment :
    let context : VerifyContext := { fee := 3, shard := 0 }
    let source : CommitmentSource Exponent := openLedger.source
    let payment : AnyPayment Scalar Exponent := .account openPayment
    let coin : OutputCoin Scalar Exponent := .oneTime concealedSeven
    let keys : KeySet Scalar Exponent := .ofPrivateKey minterKey
    let free : VerifyContext := { fee := 0, shard := 0 }
    let empty : AnyPayment Scalar Curve.RistrettoPoint := .account {}
    context.params.numShards ≠ 0 ∧ source.Answers ∧
      Outcome.WithinRange (AnyPayment.decode payment.toBytes) (.ok payment) ∧
      Outcome.WithinRange (payment.verifyByIndex context source) (.ok ()) ∧
      Outcome.WithinRange (OutputCoin.decode coin.toBytes) (.ok coin) ∧
      (∃ opened : OneTimeCoin Scalar Exponent, opened.value = 7 ∧
        Outcome.WithinRange (coin.revealByIndex keys context.params) (.ok (.oneTime opened))) ∧
      Outcome.WithinRange (AnyPayment.decode emptyPayment) (.ok empty) ∧
      Outcome.WithinRange (empty.verifyByIndex free (Ledger.source {})) (.ok ()) := by
  intro context source payment coin keys free empty
  have hshards : context.params.numShards ≠ 0 := by decide
  have hsource : source.Answers := Ledger.answers openLedger
  have hpayment : AnyPayment.ofBytes payment.toBytes = .ok payment :=
    AnyPayment.ofBytes_toBytes fits_openPayment
  have haccepted : payment.verify context source = .ok () := verify_openPayment
  have hfits : concealedSeven.Fits := Nat.zero_le _
  have hforget : concealedSeven.forgetTag = concealedSeven := rfl
  have hcodec := OneTimeCoin.ofBytes_toBytes hfits
  rw [hforget] at hcodec
  have hcoin : OutputCoin.ofBytes coin.toBytes = .ok coin := (OneTimeCoin.ofBytes_either_side hcodec).1
  obtain ⟨image, -, hreveal⟩ := OneTimeCoin.exists_reveal_concealedSeven
  have hopened : coin.reveal keys context.params =
      .ok (.oneTime { unroutedSeven with keyImage := some image }) := by
    show (concealedSeven.reveal keys).map InputCoin.oneTime = _
    rw [hreveal]
    rfl
  obtain ⟨⟨hread, hverify⟩, -⟩ :=
    AnyPayment.decoded_within_range payment.toBytes keys hshards hsource
  obtain ⟨-, ⟨hreadCoin, hinspect⟩, -⟩ :=
    AnyPayment.decoded_within_range coin.toBytes keys hshards hsource
  have hverified := hverify payment hpayment
  obtain ⟨-, -, hrevealed⟩ := hinspect coin hcoin
  rw [hpayment] at hread
  rw [haccepted] at hverified
  rw [hcoin] at hreadCoin
  rw [hopened] at hrevealed
  have hempty : AnyPayment.ofBytes emptyPayment = .ok empty := rfl
  have hfree : free.params.numShards ≠ 0 := by decide
  let anyone : KeySet Scalar Curve.RistrettoPoint := .ofAddress ⟨0, 0, none⟩
  obtain ⟨⟨hreadEmpty, hverifyEmpty⟩, -⟩ :=
    AnyPayment.decoded_within_range emptyPayment anyone hfree (Ledger.answers {})
  have hverifiedEmpty := hverifyEmpty empty hempty
  rw [hempty] at hreadEmpty
  exact ⟨hshards, hsource, hread, hverified, hreadCoin, ⟨_, OneTimeCoin.value_unroutedSeven _, hrevealed⟩,
    hreadEmpty, hverifiedEmpty⟩

end

end ShieldedPayments
