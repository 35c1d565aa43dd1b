import ShieldedPayments.Proofs.Argument.ExactStatement
import ShieldedPayments.Proofs.Coin.Authentic
import ShieldedPayments.Proofs.Payment.AccountRuns

/-!
# Payments of account coins are refused for a cause

Whatever is asked of the prover of account payments, and whatever it draws: it makes a payment, or it
refuses for a cause that has a wording (`AccountSpend.defined_prove`). All it needs is a shard, and a
ledger that answers or refuses itself.
-/

namespace ShieldedPayments

open Proving

variable {F G : Type} [ScalarField F] [PointGroup F G]

/-- A ledger answers or refuses, whatever it is asked for. -/
def CommitmentSource.Answers (source : CommitmentSource G) : Prop :=
  ∀ token shard index, (source token shard index).Defined

theorem Ledger.answers (ledger : Ledger G) : CommitmentSource.Answers ledger.source :=
  fun _ _ _ => Outcome.defined_require (by nofun)

omit [ScalarField F] in
theorem AccountPayment.defined_ring {source : CommitmentSource G} (hsource : source.Answers)
    (token : TokenId) (shard : UInt8) (sum : G) (indices : List UInt64) :
    (ring source token shard sum indices).Defined :=
  Outcome.defined_mapM fun _ _ => (hsource _ _ _).bind fun _ _ => Outcome.defined_ok _

/-! ## Arguments -/

theorem RingProof.defined_prove (ring : List G) (rand : F) (l : Nat) :
    (prove ring rand l).Defined := by
  refine (defined_outcome (Outcome.defined_ensure (by nofun))).bind fun _ => ?_
  refine (defined_outcome (Outcome.defined_require (by nofun))).bind fun _ => ?_
  refine (defined_outcome (Outcome.defined_ensure (by nofun))).bind fun _ => ?_
  exact (defined_lift _).bind fun _ => defined_pure _

theorem InnerProductProof.defined_prove (t : Transcript) (g h : List G) (u p : G) (a b : List F) :
    (prove t g h u p a b).Defined := by
  intro hundefined
  cases ((prove_eq_error_iff t g h u p a b .undefined).mp hundefined).1

theorem RangeProof.defined_prove (witness : RangeWitness F) (version : UInt8) (base : G) :
    (prove witness version base).Defined := by
  refine (defined_outcome (defined_paddedCount _)).bind fun padded => ?_
  dsimp only
  refine (defined_lift _).bind fun alpha => ?_
  refine (defined_lift _).bind fun sL => ?_
  refine (defined_lift _).bind fun sR => ?_
  refine (defined_lift _).bind fun rho => ?_
  refine (defined_lift _).bind fun tau1 => ?_
  refine (defined_lift _).bind fun tau2 => ?_
  exact (defined_outcome (InnerProductProof.defined_prove _ _ _ _ _ _ _)).bind
    fun _ => defined_pure _

omit [ScalarField F] in
theorem RangeWitness.defined_create (values : List UInt64) (blindings : List F) :
    (create values blindings).Defined := by
  refine (RangeProof.defined_paddedCount _).bind fun _ _ => ?_
  exact (Outcome.defined_ensure (by nofun)).bind fun _ _ => Outcome.defined_ok _

/-! ## Payments -/

namespace AccountSpend

variable {params : ShardParams} {source : CommitmentSource G}

theorem defined_check (spend : AccountSpend F G) (hshards : params.numShards ≠ 0) :
    (spend.check params).Defined := by
  have hcounts : (checkCounts spend.inputs.length spend.payments.length).Defined :=
    (Outcome.defined_ensure (by nofun)).bind fun _ _ => Outcome.defined_ensure (by nofun)
  refine hcounts.bind fun _ _ => ?_
  refine (Balance.defined_check _ _ _ (by nofun)).bind fun _ _ => ?_
  refine (Outcome.defined_forM fun coin _ => ?_).bind fun _ _ => ?_
  · exact (Outcome.defined_ensure (by nofun)).bind fun _ _ =>
      coin.defined_verifyCommitment hshards
  · dsimp only
    split
    · exact (Outcome.defined_ensure (by nofun)).bind fun _ _ => Outcome.defined_ensure (by nofun)
    · exact Outcome.defined_ensure (by nofun)

theorem defined_proveOpen (spend : AccountSpend F G) (hshards : params.numShards ≠ 0)
    (hsource : source.Answers) : (spend.proveOpen params source).Defined := by
  have hinput (coin : AccountCoin F G) (index : UInt64) :
      (spend.proveOpenInput source coin index).Defined := by
    refine (defined_outcome (hsource _ _ _)).bind fun _ => ?_
    refine (defined_outcome (Outcome.defined_ensure (by nofun))).bind fun _ => ?_
    refine (defined_outcome (Outcome.defined_require (by nofun))).bind fun _ => ?_
    exact (defined_lift _).bind fun _ => defined_pure _
  have houtput (payment : Payment G) : (openOutput params payment : Proving (SealedCoin F G)).Defined := by
    refine (defined_lift _).bind fun _ => (defined_lift _).bind fun _ => ?_
    refine (defined_outcome ?_).bind fun _ => defined_pure _
    exact (AccountCoin.defined_expectedCommitment _ hshards).bind fun _ _ => Outcome.defined_ok _
  refine (Defined.mapM (fun (coin, index) => hinput coin index) _).bind fun _ => ?_
  exact (Defined.mapM houtput _).bind fun _ => defined_pure _

theorem defined_proveHiddenInput (spend : AccountSpend F G) (hsource : source.Answers)
    (shared : SharedInput F G) (coin : AccountCoin F G) (indices : List UInt64) (position : Nat) :
    (spend.proveHiddenInput source shared coin indices position).Defined := by
  refine (defined_outcome (Outcome.defined_require (by nofun))).bind fun _ => ?_
  refine (defined_outcome (Outcome.defined_require (by nofun))).bind fun _ => ?_
  refine (defined_lift _).bind fun _ => (defined_lift _).bind fun _ => ?_
  refine (defined_outcome (AccountPayment.defined_ring hsource _ _ _ _)).bind fun _ => ?_
  refine (RingProof.defined_prove _ _ _).bind fun _ => ?_
  exact (defined_lift _).bind fun _ => defined_pure _

theorem defined_hiddenOutputs (hshards : params.numShards ≠ 0) (payments : List (Payment G))
    (blinding : F) : (hiddenOutputs params blinding payments).Defined := by
  have houtput (payment : Payment G) (given : Option F) :
      (hiddenOutput params payment given).Defined := by
    refine (defined_lift _).bind fun _ => ?_
    refine (defined_outcome (ShardParams.defined_shardOf hshards _)).bind fun _ => ?_
    have hrest (f : F → F → HiddenOutput F G) :
        (do return f (← Proving.scalar) (← Proving.scalar) : Proving (HiddenOutput F G)).Defined :=
      (defined_lift _).bind fun _ => (defined_lift _).bind fun _ => defined_pure _
    cases given with
    | none => exact (defined_lift _).bind fun _ => hrest _
    | some r => exact (defined_pure r).bind fun _ => hrest _
  induction payments generalizing blinding with
  | nil => exact defined_pure []
  | cons payment payments ih =>
    cases payments with
    | nil => exact (houtput payment _).bind fun _ => defined_pure _
    | cons second payments =>
      exact (houtput payment none).bind fun _ => (ih _).bind fun _ => defined_pure _

theorem defined_proveHidden (spend : AccountSpend F G) (hshards : params.numShards ≠ 0)
    (hsource : source.Answers) : (spend.proveHidden params source).Defined := by
  have hshared : (spend.shareInput params).Defined := by
    refine (defined_outcome (ShardParams.defined_shardOf hshards _)).bind fun _ => ?_
    exact (defined_lift _).bind fun _ => (defined_lift _).bind fun _ => defined_pure _
  have hsealed (output : HiddenOutput F G) (payment : Payment G) :
      (do return (← SealedCoin.sealTo { details := output.coin } payment.address.publicView).strip :
        Proving (SealedCoin F G)).Defined := by
    refine Defined.bind ?_ fun _ => defined_pure _
    refine (defined_outcome (Outcome.defined_require (by nofun))).bind fun _ => ?_
    exact (defined_lift _).bind fun _ => defined_pure _
  refine hshared.bind fun shared => ?_
  refine (Defined.mapM (fun (coin, indices, position) =>
    spend.defined_proveHiddenInput hsource shared coin indices position) _).bind fun inputs => ?_
  refine (defined_hiddenOutputs hshards _ _).bind fun outputs => ?_
  refine (defined_outcome (RangeWitness.defined_create _ _)).bind fun witness => ?_
  refine (RangeProof.defined_prove _ _ _).bind fun rangeProof => ?_
  exact (Defined.mapM (fun (output, payment) => hsealed output payment) _).bind
    fun _ => defined_pure _

/-- **No spend makes the prover undefined.** -/
theorem defined_prove (spend : AccountSpend F G) (hshards : params.numShards ≠ 0)
    (hsource : source.Answers) : (spend.prove params source).Defined := by
  refine (defined_outcome (spend.defined_check hshards)).bind fun _ => ?_
  split
  · exact spend.defined_proveHidden hshards hsource
  · exact spend.defined_proveOpen hshards hsource

end AccountSpend

end ShieldedPayments
