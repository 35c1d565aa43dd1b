import ShieldedPayments.Proofs.Coin.ConcealedOnce

/-!
# Opening an opened coin changes nothing

Whether offsets are taken from mask and amount depends on the commitment no longer opening to them, which
opening itself changes. A key set leaves a coin as it is exactly if it may decrypt, the coin is in the open,
and the coin has the key image that the private key gives, if there is a private key
(`OneTimeCoin.reveal_eq_self_iff`). What comes out of opening is such a coin, whoever made the coin that went
in, as key images depend on fields that opening does not touch. So a coin that was opened is opened again to
itself (`OneTimeCoin.reveal_settles`).
-/

namespace ShieldedPayments.OneTimeCoin

variable {F G : Type} [ScalarField F] [PointGroup F G] {coin opened : OneTimeCoin F G} {keys : KeySet F G}

/-- A coin has the key image that the private key of a key set gives, if there is a private key. -/
def HasImageFor (coin : OneTimeCoin F G) (keys : KeySet F G) : Prop :=
  ∀ sk, keys.privateKey = some sk →
    ∃ image, coin.keyImage = some image ∧ coin.keyImageFor sk = .ok image

/-- **The coins that a key set leaves as they are.** -/
theorem reveal_eq_self_iff : coin.reveal keys = .ok coin ↔
    (∃ view, keys.viewSecret = some view) ∧ coin.isEncrypted = false ∧ coin.HasImageFor keys := by
  constructor
  · intro h
    obtain ⟨view, opened, hview, -, hfinish⟩ := reveal_eq_ok_iff.mp h
    refine ⟨⟨view, hview⟩, isEncrypted_of_reveal h, fun sk hsk => ?_⟩
    rw [hsk] at hfinish
    obtain ⟨image, hfound, hcoin⟩ := hfinish
    exact ⟨image, by rw [hcoin], hfound⟩
  · rintro ⟨⟨view, hview⟩, hopen, himage⟩
    refine reveal_eq_ok_iff.mpr ⟨view, coin, hview, .already hopen, ?_⟩
    cases hprivate : keys.privateKey with
    | none => rfl
    | some sk =>
      obtain ⟨image, hstored, hfound⟩ := himage sk hprivate
      exact ⟨image, hfound, by rw [← hstored]⟩

/-- Opening touches neither the one-time key nor the public randomness, which key images depend on. -/
theorem keyImageFor_of_reveal (h : coin.reveal keys = .ok opened) (sk : PrivateKey F) :
    opened.keyImageFor sk = coin.keyImageFor sk := by
  rw [eq_of_reveal h]
  rfl

theorem hasImageFor_of_reveal (h : coin.reveal keys = .ok opened) : opened.HasImageFor keys := by
  intro sk hsk
  rw [keyImageFor_of_reveal h]
  obtain ⟨view, cleared, -, -, hfinish⟩ := reveal_eq_ok_iff.mp h
  rw [hsk] at hfinish
  obtain ⟨image, hfound, rfl⟩ := hfinish
  exact ⟨image, rfl, hfound⟩

/-- Without a private key no key image is added. -/
theorem keyImage_of_reveal (h : coin.reveal keys = .ok opened) (hnone : keys.privateKey = none) :
    opened.keyImage = coin.keyImage := by
  obtain ⟨view, cleared, -, hcleared, hfinish⟩ := reveal_eq_ok_iff.mp h
  rw [hnone] at hfinish
  obtain rfl : opened = cleared := hfinish
  rw [hcleared.eq]

/-- A coin in the open keeps mask and amount. -/
theorem mask_amount_of_reveal (h : coin.reveal keys = .ok opened) (hopen : coin.isEncrypted = false) :
    opened.mask = coin.mask ∧ opened.amount = coin.amount := by
  obtain ⟨view, cleared, hcleared, hopened⟩ := exists_opened_of_reveal h
  rw [hopened]
  cases hcleared with
  | already => exact ⟨rfl, rfl⟩
  | cleared hencrypted =>
    rw [hopen] at hencrypted
    cases hencrypted

/-- A key set that may not decrypt opens nothing. -/
theorem reveal_of_not_viewing (hprivate : keys.privateKey = none) (hviewing : keys.viewingKey = none) :
    coin.reveal keys = .error
      (.decryptionFailure "key set has neither a private key nor a viewing key") := by
  have hnone : keys.viewSecret = none := by rw [KeySet.viewSecret, hviewing, hprivate]
  unfold reveal KeySet.requireDecryption
  rw [hnone]
  rfl

/-- **Opening touches nothing else, and opening again changes nothing.** What any coin is opened to by any
key set is in the open, and differs from the coin in mask, amount and key image at most: in mask and amount
only if the coin was concealed, and in the key image only if there is a private key. The key image is then
the one that this key gives for the coin, and for what came out. Opened once more by the key set, what came
out stays as it is. A key set with neither a private key nor a viewing key opens no coin. -/
theorem reveal_settles (coin : OneTimeCoin F G) (keys : KeySet F G) :
    (∀ opened, coin.reveal keys = .ok opened →
      opened.isEncrypted = false ∧
      opened = { coin with
        mask := opened.mask, amount := opened.amount, keyImage := opened.keyImage } ∧
      (coin.isEncrypted = false → opened.mask = coin.mask ∧ opened.amount = coin.amount) ∧
      (keys.privateKey = none → opened.keyImage = coin.keyImage) ∧
      (∀ sk, keys.privateKey = some sk → ∃ image, opened.keyImage = some image ∧
        coin.keyImageFor sk = .ok image ∧ opened.keyImageFor sk = .ok image) ∧
      opened.reveal keys = .ok opened) ∧
    (keys.privateKey = none → keys.viewingKey = none → coin.reveal keys = .error
      (.decryptionFailure "key set has neither a private key nor a viewing key")) := by
  refine ⟨fun opened h => ?_, reveal_of_not_viewing⟩
  have hopen := isEncrypted_of_reveal h
  have himage := hasImageFor_of_reveal h
  obtain ⟨view, -, hview, -⟩ := reveal_eq_ok_iff.mp h
  refine ⟨hopen, eq_of_reveal h, mask_amount_of_reveal h, keyImage_of_reveal h, fun sk hsk => ?_,
    reveal_eq_self_iff.mpr ⟨⟨view, hview⟩, hopen, himage⟩⟩
  obtain ⟨image, hstored, hfound⟩ := himage sk hsk
  exact ⟨image, hstored, keyImageFor_of_reveal h sk ▸ hfound, hfound⟩

/-! ## A coin that no sender made -/

section

open Curve (Scalar)

/-- A coin of seven with public randomness that says nothing, and with a key image of its own. -/
def unroutedSeven : OneTimeCoin Scalar Exponent where
  publicKey := some ⟨3⟩
  commitment := some ((7 : Scalar) • (pedersen : PedersenBases Exponent).value
    + (5 : Scalar) • (pedersen : PedersenBases Exponent).blinding)
  keyImage := some ⟨9⟩
  txRandom := some TxRandom.zero
  mask := some 5
  amount := some 7

theorem isEncrypted_unroutedSeven : unroutedSeven.isEncrypted = false :=
  isEncrypted_eq_false_iff.mpr ⟨5, 7, rfl, rfl, rfl⟩

/-- The coin with the offsets that everybody computes from its randomness. -/
def concealedSeven : OneTimeCoin Scalar Exponent :=
  { unroutedSeven with
    mask := unroutedSeven.mask.map (· + hashToScalar (maskParts (0 : Exponent)))
    amount := unroutedSeven.amount.map (· + hashToScalar (amountParts (0 : Exponent))) }

theorem isEncrypted_concealedSeven : concealedSeven.isEncrypted = true :=
  (isEncrypted_addOffsets_iff isEncrypted_unroutedSeven _ _).mpr offsets_of_zero

theorem openedWith_concealedSeven (view : Scalar) : concealedSeven.OpenedWith view unroutedSeven := by
  refine .cleared isEncrypted_concealedSeven ?_ isEncrypted_unroutedSeven
  refine removeOffsets_eq_ok_iff.mpr ⟨TxRandom.zero, _, _, rfl, rfl, rfl, ?_⟩
  have hzero : view • (TxRandom.zero : TxRandom Exponent).concealRandom = 0 := smul_zero view
  rw [hzero, add_sub_cancel_right, add_sub_cancel_right]
  rfl

/-- The owner of a key opens the concealed coin to the seven, with the key image of the owner. -/
theorem exists_reveal_concealedSeven :
    ∃ image, concealedSeven.keyImageFor minterKey = .ok image ∧
      concealedSeven.reveal (.ofPrivateKey minterKey) =
        .ok { unroutedSeven with keyImage := some image } := by
  obtain ⟨image, hfound⟩ :=
    exists_keyImageFor (rfl : concealedSeven.publicKey = _) rfl minterKey
  exact ⟨image, hfound,
    reveal_eq_ok_iff.mpr ⟨_, _, rfl, openedWith_concealedSeven _, image, hfound, rfl⟩⟩

theorem value_unroutedSeven (image : Option Exponent) :
    ({ unroutedSeven with keyImage := image } : OneTimeCoin Scalar Exponent).value = 7 := by
  have hopens : ({ unroutedSeven with keyImage := image } : OneTimeCoin Scalar Exponent).OpensTo
      5 7 := ⟨rfl, rfl, rfl⟩
  exact hopens.value_eq.trans (by decide)

/-- The owner of a key opens the concealed coin, which was given another key image, and opens it once more
to the same coin. -/
theorem reveal_settles_concealedSeven :
    ∃ (opened : OneTimeCoin Scalar Exponent) (image : Exponent),
      concealedSeven.isEncrypted = true ∧
      concealedSeven.reveal (.ofPrivateKey minterKey) = .ok opened ∧
      opened.isEncrypted = false ∧ opened.value = 7 ∧ opened.keyImage = some image ∧
      concealedSeven.keyImageFor minterKey = .ok image ∧
      opened.reveal (.ofPrivateKey minterKey) = .ok opened ∧
      concealedSeven.reveal (.ofAddress minterRequest.payment.address) = .error
        (.decryptionFailure "key set has neither a private key nor a viewing key") := by
  obtain ⟨image, -, hreveal⟩ := exists_reveal_concealedSeven
  obtain ⟨hopen, -, -, -, himage, hagain⟩ :=
    (reveal_settles concealedSeven (.ofPrivateKey minterKey)).1 _ hreveal
  obtain ⟨image', hstored, hgiven, -⟩ := himage minterKey rfl
  exact ⟨_, image', isEncrypted_concealedSeven, hreveal, hopen, value_unroutedSeven _, hstored, hgiven, hagain,
    (reveal_settles concealedSeven (.ofAddress minterRequest.payment.address)).2 rfl rfl⟩

end

end ShieldedPayments.OneTimeCoin
