import ShieldedPayments.Proofs.Coin.Account
import ShieldedPayments.Proofs.Encryption.Hybrid

/-!
# Sealed openings

What the owner of an account coin finds in it. A sealed opening is only accepted if it opens the
commitment of the coin (`SealedCoin.opens_of_reveal`), and a coin whose opening was sealed to its
owner is revealed with that opening (`SealedCoin.exists_reveal_sealTo`).
-/

namespace ShieldedPayments.SealedCoin

variable {F G : Type} [ScalarField F]

theorem withOpening_opening [ScalarField.Canonical F] (coin : AccountCoin F G) (randomness : F)
    (value : UInt64) :
    withOpening coin (opening randomness value) =
      .ok { coin with randomness := some randomness, value } := by
  have hlength := ScalarField.Canonical.length_encode randomness
  rw [withOpening, opening, ensure_bind_eq_ok_iff, Outcome.bind_eq_ok_iff]
  refine ⟨?_, randomness, ?_, ?_⟩
  · simp [hlength]
  · rw [Outcome.mapError_eq_ok_iff, List.take_left' hlength, scalarOfBytes_encode]
  · rw [Outcome.bind_eq_ok_iff]
    refine ⟨value, ?_, rfl⟩
    rw [Outcome.mapError_eq_ok_iff, List.drop_left' hlength, numberOfTrimmed_trimmedNumber]

/-- An opening replaces randomness and value, and nothing else. -/
theorem withOpening_eq {coin opened : AccountCoin F G} {message : Bytes}
    (h : withOpening coin message = .ok opened) :
    opened = { coin with randomness := opened.randomness, value := opened.value } := by
  rw [withOpening, ensure_bind_eq_ok_iff, Outcome.bind_eq_ok_iff] at h
  obtain ⟨_, randomness, _, h⟩ := h
  obtain ⟨value, _, h⟩ := Outcome.bind_eq_ok_iff.mp h
  obtain rfl := Outcome.pure_eq_ok_iff.mp h
  rfl

variable [PointGroup F G]

theorem openSeal_eq_ok_iff {coin : SealedCoin F G} {ct : HybridCiphertext} {commitment : G} {view : F}
    {params : ShardParams} {opened : AccountCoin F G} (hsealed : coin.encrypted = some ct)
    (hcommitment : coin.details.commitment = some commitment) :
    coin.openSeal view params = .ok opened ↔
      ∃ message, ct.decrypt G view = .ok message ∧
        withOpening coin.details message = .ok opened ∧ opened.verifyCommitment params = .ok () := by
  unfold openSeal
  rw [hsealed]
  simp only [Outcome.bind_eq_ok_iff]
  refine exists_congr fun message => and_congr_right fun _ => ?_
  constructor
  · rintro ⟨opened', hopening, h⟩
    have hsome : opened'.commitment.isSome = true := by
      rw [withOpening_eq hopening, hcommitment]
      rfl
    rw [if_pos hsome, Outcome.check_bind_eq_ok_iff, Outcome.pure_eq_ok_iff] at h
    obtain ⟨hverified, rfl⟩ := h
    exact ⟨hopening, hverified⟩
  · rintro ⟨hopening, hverified⟩
    refine ⟨opened, hopening, ?_⟩
    split
    · rw [Outcome.check_bind_eq_ok_iff]
      exact ⟨hverified, rfl⟩
    · rfl

/-- Revealing a coin opens its seal and may add a serial number. -/
theorem reveal_eq_ok_iff {coin : SealedCoin F G} {keys : KeySet F G} {params : ShardParams}
    {revealed : AccountCoin F G} :
    coin.reveal keys params = .ok revealed ↔
      ∃ view opened, keys.viewSecret = some view ∧ coin.openSeal view params = .ok opened ∧
        match keys.privateKey with
        | none => revealed = opened
        | some sk => ∃ derivator, opened.derivator = some derivator ∧ revealed =
            { opened with serialNumber := some (Pedersen.serialNumber sk.secret derivator) } := by
  unfold reveal KeySet.requireDecryption
  rw [require_bind_eq_ok_iff]
  refine exists_congr fun view => ?_
  rw [Outcome.bind_eq_ok_iff, ← exists_and_left]
  refine exists_congr fun opened => and_congr_right fun _ => and_congr_right fun _ => ?_
  cases keys.privateKey with
  | none =>
    rw [Outcome.pure_eq_ok_iff]
    exact eq_comm
  | some sk =>
    rw [require_bind_eq_ok_iff]
    refine exists_congr fun derivator => and_congr_right fun _ => ?_
    rw [Outcome.pure_eq_ok_iff]
    exact eq_comm

variable [ScalarField.Lawful F] [PointGroup.Lawful F G]

/-- **What is revealed of a sealed coin opens its commitment.** -/
theorem opens_of_reveal {coin : SealedCoin F G} {keys : KeySet F G} {params : ShardParams}
    {revealed : AccountCoin F G} {commitment : G} (hsealed : coin.encrypted.isSome = true)
    (hcommitment : coin.details.commitment = some commitment)
    (hreveal : coin.reveal keys params = .ok revealed) :
    ∃ publicKey derivator shard randomness, coin.details.publicKey = some publicKey ∧
      coin.details.derivator = some derivator ∧
      revealed.Opens params publicKey derivator shard randomness ∧
      revealed.commitment = some commitment := by
  obtain ⟨ct, hct⟩ := Option.isSome_iff_exists.mp hsealed
  obtain ⟨view, opened, -, hopen, hmatch⟩ := reveal_eq_ok_iff.mp hreveal
  obtain ⟨message, -, hopening, hverified⟩ := (openSeal_eq_ok_iff hct hcommitment).mp hopen
  obtain ⟨publicKey, derivator, shard, randomness, hopens⟩ :=
    (AccountCoin.verifyCommitment_eq_ok_iff opened params).mp hverified
  have hfields := withOpening_eq hopening
  have hkey : coin.details.publicKey = some publicKey := by
    rw [← hopens.publicKey_eq, hfields]
  have hderivator : coin.details.derivator = some derivator := by
    rw [← hopens.derivator_eq, hfields]
  have hstored : opened.commitment = some commitment := by
    rw [hfields, hcommitment]
  refine ⟨publicKey, derivator, shard, randomness, hkey, hderivator, ?_⟩
  cases hprivate : keys.privateKey with
  | none =>
    rw [hprivate] at hmatch
    obtain rfl := hmatch
    exact ⟨hopens, hstored⟩
  | some sk =>
    rw [hprivate] at hmatch
    obtain ⟨_, _, rfl⟩ := hmatch
    exact ⟨⟨hopens.1, hopens.2, hopens.3, hopens.4, hopens.5⟩, hstored⟩

omit [ScalarField.Lawful F] [PointGroup.Lawful F G] in
theorem sealTo_runOn {coin : SealedCoin F G} {randomness : F}
    (h : coin.details.randomness = some randomness) (publicView : G) (t : Tape) :
    (coin.sealTo publicView).runOn t =
      (.ok { coin with
        encrypted := some
          ((HybridCiphertext.encrypt (opening randomness coin.details.value) publicView).run t).1 },
        ((HybridCiphertext.encrypt (opening randomness coin.details.value) publicView).run t).2) := by
  unfold sealTo
  rw [h, Proving.runOn_bind, require_some, Proving.runOn_outcome]
  simp only [Proving.runOn_bind, Proving.runOn_lift, Proving.runOn_pure]

omit [ScalarField.Lawful F] [PointGroup.Lawful F G] in
/-- A coin that was sealed has a randomness, and its opening is what was encrypted. -/
theorem returns_sealTo {coin coin' : SealedCoin F G} {publicView : G}
    (h : (coin.sealTo publicView).Returns coin') :
    ∃ randomness t, coin.details.randomness = some randomness ∧
      coin' = ⟨coin.details, some ((HybridCiphertext.encrypt
        (opening randomness coin.details.value) publicView).run t).1⟩ := by
  unfold sealTo at h
  obtain ⟨randomness, hrandomness, h⟩ := h.outcome_bind
  obtain ⟨ct, hct, h⟩ := h.bind
  obtain ⟨t, rfl⟩ := hct.lift
  exact ⟨randomness, t, require_eq_ok_iff.mp hrandomness, (Proving.returns_pure_iff.mp h).symm⟩

omit [ScalarField.Lawful F] [PointGroup.Lawful F G] in
/-- Whoever opens the seal of a coin with a derivator also reveals the coin, with the serial number that a
private key gives. -/
theorem reveal_of_openSeal {coin : SealedCoin F G} {keys : KeySet F G} {params : ShardParams}
    {view derivator : F} {opened : AccountCoin F G} (hview : keys.viewSecret = some view)
    (hopen : coin.openSeal view params = .ok opened) (hderivator : opened.derivator = some derivator) :
    coin.reveal keys params = .ok { opened with
      serialNumber := (keys.privateKey.map fun sk => Pedersen.serialNumber sk.secret derivator).or
        opened.serialNumber } := by
  refine reveal_eq_ok_iff.mpr ⟨view, opened, hview, hopen, ?_⟩
  cases keys.privateKey with
  | none => rfl
  | some sk => exact ⟨derivator, hderivator, rfl⟩

/-- **The owner of the view secret finds in a sealed and stripped coin what the coin was before**, with the
serial number that a private key gives. -/
theorem reveal_encrypt [ScalarField.Canonical F] [PointGroup.Canonical F G]
    {coin : AccountCoin F G} {params : ShardParams} {publicKey : G} {derivator randomness view : F}
    {shard : UInt8} {keys : KeySet F G} (hview : keys.viewSecret = some view)
    (hopens : coin.Opens params publicKey derivator shard randomness) (t : Tape) :
    (strip ⟨coin, some ((HybridCiphertext.encrypt
        (opening randomness coin.value) (baseMultiple view : G)).run t).1⟩).reveal keys params =
      .ok { coin with
        serialNumber := keys.privateKey.map fun sk => Pedersen.serialNumber sk.secret derivator } := by
  have hdecrypt := HybridCiphertext.decrypt_encrypt (G := G) (opening randomness coin.value) view t
  generalize ((HybridCiphertext.encrypt (opening randomness coin.value)
    (baseMultiple view : G)).run t).1 = ct at hdecrypt ⊢
  let opened : AccountCoin F G := { coin with randomness := some randomness, serialNumber := none }
  have hopened : opened.Opens params publicKey derivator shard randomness :=
    ⟨hopens.1, hopens.2, hopens.3, rfl, hopens.5⟩
  have hopen : (strip ⟨coin, some ct⟩).openSeal view params = .ok opened := by
    refine (openSeal_eq_ok_iff (show (strip ⟨coin, some ct⟩).encrypted = some ct from rfl)
      hopens.commitment_eq).mpr ?_
    exact ⟨_, hdecrypt, withOpening_opening _ _ _,
      (AccountCoin.verifyCommitment_eq_ok_iff _ _).mpr ⟨_, _, _, _, hopened⟩⟩
  refine (reveal_of_openSeal hview hopen hopened.derivator_eq).trans ?_
  simp only [opened, Option.or_none, ← hopens.randomness_eq]

theorem exists_reveal_encrypt [ScalarField.Canonical F] [PointGroup.Canonical F G]
    {coin : AccountCoin F G} {params : ShardParams} {publicKey : G} {derivator randomness view : F}
    {shard : UInt8} {keys : KeySet F G} (hview : keys.viewSecret = some view)
    (hopens : coin.Opens params publicKey derivator shard randomness) (t : Tape) :
    ∃ serialNumber, (strip ⟨coin, some ((HybridCiphertext.encrypt
        (opening randomness coin.value) (baseMultiple view : G)).run t).1⟩).reveal keys params =
      .ok { coin with serialNumber } :=
  ⟨_, reveal_encrypt hview hopens t⟩

/-- **A coin that is sealed to its owner and stripped is revealed with its value.** -/
theorem exists_reveal_sealTo [ScalarField.Canonical F] [PointGroup.Canonical F G]
    {coin : SealedCoin F G} {params : ShardParams} {publicKey : G} {derivator randomness view : F}
    {shard : UInt8} {keys : KeySet F G} (hview : keys.viewSecret = some view)
    (hopens : coin.details.Opens params publicKey derivator shard randomness) (t : Tape) :
    ∃ coin' t' revealed, (coin.sealTo (baseMultiple view)).runOn t = (.ok coin', t') ∧
      coin'.encrypted.isSome = true ∧ coin'.strip.details = coin.strip.details ∧
      coin'.strip.reveal keys params = .ok revealed ∧ revealed.value = coin.details.value := by
  obtain ⟨serialNumber, hreveal⟩ := exists_reveal_encrypt hview hopens t
  exact ⟨_, _, _, sealTo_runOn hopens.randomness_eq (baseMultiple view : G) t, rfl, rfl, hreveal, rfl⟩

end ShieldedPayments.SealedCoin
