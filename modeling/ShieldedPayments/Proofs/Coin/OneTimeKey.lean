import ShieldedPayments.Proofs.Group.Laws
import ShieldedPayments.Proofs.Fault
import ShieldedPayments.Proofs.Tape
import ShieldedPayments.Coin.OneTime

/-!
# Routed one-time keys

The search for a one-time key goes on until the last byte of the key has the digits that are wanted: the
shard of the recipient and, if the sender is to show, the sender's shard and the origin as well. So
whatever it finds has them.

* `OneTimeKey.search_eq_ok`: what a search finds.
* `OneTimeKey.Routed`: an index at which the one-time key for an address is found.
* `OneTimeKey.Routed.shows`: the digits of such a key.
* `OtaReceiver.runOn_ofAddress_eq_ok_iff`: receivers for an address.
-/

namespace ShieldedPayments

open PointGroup

/-- The shard of a byte from which digits are unpacked is the receiver's digit. -/
theorem ShardParams.shardOf_of_unpack {params : ShardParams} {lastByte : UInt8} {digits : ShardDigits}
    (h : params.unpack lastByte = .ok digits) : params.shardOf lastByte = .ok digits.receiver := by
  unfold unpack checkPacked at h
  rw [ensure_bind_eq_ok_iff, Bool.and_eq_true, bne_iff_ne] at h
  obtain ⟨⟨hshards, -⟩, h⟩ := h
  obtain ⟨origin, -, h⟩ := Outcome.bind_eq_ok_iff.mp h
  have hdigit : lastByte % params.numShards =
      (lastByte.toNat % params.numShards.toNat).toUInt8 := by
    rw [← UInt8.toNat_inj, UInt8.toNat_mod, Nat.toUInt8_eq, UInt8.toNat_ofNat',
      Nat.mod_eq_of_lt (Nat.lt_of_le_of_lt (Nat.mod_le _ _) lastByte.toNat_lt)]
  rw [← Outcome.pure_eq_ok_iff.mp h, shardOf, if_neg hshards, hdigit]

theorem ShardParams.shardOf_single {params : ShardParams} (h : params.numShards = 1)
    (lastByte : UInt8) : params.shardOf lastByte = .ok 0 := by
  have hmod : lastByte % 1 = 0 := by
    rw [← UInt8.toNat_inj, UInt8.toNat_mod]
    exact Nat.mod_one _
  rw [shardOf, h, hmod]
  rfl

variable {F G : Type} [ScalarField F] [PointGroup F G]

namespace OneTimeKey

namespace Target

/-- The digits wanted for the shard of a recipient, and for a sender who is to show. -/
def routed (shard : UInt8) : Option (UInt8 × Origin) → Target
  | none => ⟨shard, none, .transfer⟩
  | some (sender, origin) => ⟨shard, some sender, origin⟩

omit [ScalarField F] in
theorem ofAddress_eq_ok_iff {params : ShardParams} {address : PaymentAddress G} {target : Target} :
    ofAddress params address = .ok target ↔
      ∃ shard, params.shardOf address.lastByte = .ok shard ∧ routed shard none = target := by
  unfold ofAddress
  rw [Outcome.bind_eq_ok_iff]
  exact exists_congr fun shard => and_congr_right fun _ => Outcome.pure_eq_ok_iff

/-- A byte that is accepted has the digits that were wanted. -/
theorem digits_of_accepts {params : ShardParams} {lastByte shard : UInt8}
    {sender : Option (UInt8 × Origin)}
    (h : (routed shard sender).accepts params lastByte = .ok true) :
    params.shardOf lastByte = .ok shard ∧ ∀ source origin, sender = some (source, origin) →
      params.unpack lastByte = .ok ⟨shard, source, origin⟩ := by
  unfold accepts at h
  cases sender with
  | none =>
    obtain ⟨found, hfound, hsame⟩ := Outcome.bind_eq_ok_iff.mp h
    have hshard : found = shard := beq_iff_eq.mp (Outcome.pure_eq_ok_iff.mp hsame)
    exact ⟨hshard ▸ hfound, fun _ _ hsender => by cases hsender⟩
  | some sender =>
    obtain ⟨source, origin⟩ := sender
    simp only [routed] at h
    split at h
    · next digits hunpack =>
      obtain rfl : digits = ⟨shard, source, origin⟩ := beq_iff_eq.mp (Except.ok.inj h)
      refine ⟨ShardParams.shardOf_of_unpack hunpack, ?_⟩
      rintro _ _ ⟨⟩
      exact hunpack
    · cases h
    · cases h

end Target

/-- Whoever knows the offset can choose the one-time key. -/
theorem derive_sub_offset [ScalarField.Lawful F] [PointGroup.Lawful F G] (shared : G) (index : UInt32)
    (s : F) :
    derive (PointGroup.encode shared) index (baseMultiple (s - offset shared index)) =
      (baseMultiple s : G) := by
  unfold derive offset
  rw [baseMultiple_eq, baseMultiple_eq, baseMultiple_eq, ← add_smul, add_sub_cancel]

/-- What a walk over the indices finds is the one-time key at the index, and shows the digits. -/
theorem searchFrom_eq_ok {params : ShardParams} {target : Target} {secret : Bytes}
    {publicSpend key : G} {count start : Nat} {index : UInt32}
    (h : searchFrom params target secret publicSpend count start = .ok (key, index)) :
    key = derive secret index publicSpend ∧ target.accepts params (lastByte key) = .ok true := by
  induction count generalizing start with
  | zero => cases h
  | succ count ih =>
    unfold searchFrom at h
    simp only at h
    split at h
    · next haccepted =>
      cases h
      exact ⟨rfl, haccepted⟩
    · exact ih h
    · cases h

theorem search_eq_ok {params : ShardParams} {target : Target} {secret publicSpend key : G}
    {index : UInt32} (h : search params target secret publicSpend = .ok (key, index)) :
    key = derive (PointGroup.encode secret) index publicSpend ∧
      target.accepts params (lastByte key) = .ok true := by
  unfold search at h
  split at h
  · exact searchFrom_eq_ok (Outcome.check_bind_eq_ok_iff.mp h).2
  · exact searchFrom_eq_ok h

/-- A search ends at the first index if the key there shows the digits. -/
theorem search_eq_first {params : ShardParams} {target : Target} {secret publicSpend key : G}
    (htries : 2 ≤ params.maxTries.toNat)
    (hpacked : target.sender.isSome = true → params.checkPacked = .ok ())
    (hkey : derive (PointGroup.encode secret) 1 publicSpend = key)
    (haccepted : target.accepts params (lastByte key) = .ok true) :
    search params target secret publicSpend = .ok (key, 1) := by
  obtain ⟨n, hn⟩ := Nat.exists_eq_add_of_le htries
  have hcount : params.maxTries.toNat - 1 = n + 1 := by omega
  have hfirst : searchFrom params target (PointGroup.encode secret) publicSpend (n + 1) 1 =
      .ok (key, 1) := by
    unfold searchFrom
    rw [show Nat.toUInt32 1 = 1 from rfl, hkey]
    simp only [haccepted]
  unfold search
  rw [hcount, hfirst]
  by_cases hsender : target.sender.isSome = true
  · rw [if_pos hsender, hpacked hsender]
    rfl
  · rw [if_neg hsender]

/-- The one-time key for an address is found at an index, given the random scalar of its sender. -/
structure Routed (params : ShardParams) (address : PaymentAddress G) (sender : Option (UInt8 × Origin))
    (random : F) (publicOta : G) (index : UInt32) : Prop where
  ota : address.publicOta = some publicOta
  found : ∃ shard, params.shardOf address.lastByte = .ok shard ∧
    search params (.routed shard sender) (random • publicOta) address.publicSpend =
      .ok (derive (PointGroup.encode (random • publicOta)) index address.publicSpend, index)

variable {params : ShardParams} {address : PaymentAddress G} {sender : Option (UInt8 × Origin)}
  {random : F} {publicOta : G} {index : UInt32}

/-- The shard of a one-time key is that of the address, and a sender's shard and origin show in it. -/
theorem Routed.shows (h : Routed params address sender random publicOta index) :
    ∃ shard, params.shardOf address.lastByte = .ok shard ∧
      params.shardOf (lastByte (derive (PointGroup.encode (random • publicOta)) index
        address.publicSpend)) = .ok shard ∧
      ∀ source origin, sender = some (source, origin) →
        params.unpack (lastByte (derive (PointGroup.encode (random • publicOta)) index
          address.publicSpend)) = .ok ⟨shard, source, origin⟩ := by
  obtain ⟨shard, hshard, hsearch⟩ := h.found
  exact ⟨shard, hshard, Target.digits_of_accepts (search_eq_ok hsearch).2⟩

/-- To route an address and then to search for a key is to find it at an index. -/
theorem exists_routed_iff {P : G → UInt32 → Prop} :
    (address.publicOta = some publicOta ∧
      ∃ target, (∃ shard, params.shardOf address.lastByte = .ok shard ∧
        Target.routed shard sender = target) ∧
      ∃ key index, search params target (random • publicOta) address.publicSpend = .ok (key, index) ∧
        P key index) ↔
    ∃ index, Routed params address sender random publicOta index ∧
      P (derive (PointGroup.encode (random • publicOta)) index address.publicSpend) index := by
  constructor
  · rintro ⟨hota, _, ⟨shard, hshard, rfl⟩, key, index, hsearch, hP⟩
    obtain rfl := (search_eq_ok hsearch).1
    exact ⟨index, ⟨hota, shard, hshard, hsearch⟩, hP⟩
  · rintro ⟨index, ⟨hota, shard, hshard, hsearch⟩, hP⟩
    exact ⟨hota, _, ⟨shard, hshard, rfl⟩, _, index, hsearch, hP⟩

end OneTimeKey

omit [ScalarField F] in
theorem CoinRequest.target_eq_ok_iff {params : ShardParams} {request : CoinRequest G}
    {wanted : OneTimeKey.Target} :
    request.target params = .ok wanted ↔
      ∃ shard, params.shardOf request.payment.address.lastByte = .ok shard ∧
        OneTimeKey.Target.routed shard request.sender = wanted := by
  unfold target
  rw [Outcome.bind_eq_ok_iff]
  simp only [OneTimeKey.Target.ofAddress_eq_ok_iff]
  constructor
  · rintro ⟨_, ⟨shard, hshard, rfl⟩, h⟩
    refine ⟨shard, hshard, ?_⟩
    cases hsender : request.sender with
    | none =>
      rw [hsender] at h
      exact Outcome.pure_eq_ok_iff.mp h
    | some sender =>
      rw [hsender] at h
      exact Outcome.pure_eq_ok_iff.mp h
  · rintro ⟨shard, hshard, rfl⟩
    refine ⟨_, ⟨shard, hshard, rfl⟩, ?_⟩
    cases request.sender with
    | none => rfl
    | some sender => rfl

/-! ## Receivers -/

/-- The scalar that is drawn first from a tape. -/
def Tape.firstScalar (t : Tape) : F :=
  ((Drawing.scalar : Drawing F).run t).1

/-- The receivers that are made for an address. -/
theorem OtaReceiver.runOn_ofAddress_eq_ok_iff {params : ShardParams} {address : PaymentAddress G}
    {receiver : OtaReceiver G} {t : Tape} :
    ((ofAddress params address : Proving (OtaReceiver G)).runOn t).1 = .ok receiver ↔
      ∃ publicOta index,
        OneTimeKey.Routed params address none (t.firstScalar : F) publicOta index ∧
        ⟨OneTimeKey.derive (PointGroup.encode ((t.firstScalar : F) • publicOta)) index
          address.publicSpend, baseMultiple (t.firstScalar : F), index,
          baseMultiple ((Drawing.scalar : Drawing F).run
            ((Drawing.scalar : Drawing F).run t).2).1⟩ = receiver := by
  unfold ofAddress
  simp only [Proving.runOn_outcome_bind_eq_ok_iff, Proving.scalar, Proving.runOn_lift_bind,
    Proving.runOn_pure, PaymentAddress.requireOta, require_eq_ok_iff, Prod.exists, Except.ok.injEq,
    OneTimeKey.Target.ofAddress_eq_ok_iff]
  exact exists_congr fun publicOta => OneTimeKey.exists_routed_iff

end ShieldedPayments
