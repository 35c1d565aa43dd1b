import ShieldedPayments.Proofs.Coin.OneTime
import ShieldedPayments.Proofs.Fault

/-!
# What opening a one-time coin does

Whoever has a view secret opens a coin. One that opens already is left as it is; from a concealed one the
offsets for the view secret are taken, and it has to open then (`OneTimeCoin.OpenedWith`). A private key
adds the key image. So opening touches mask, amount and key image only (`OneTimeCoin.eq_of_reveal`), and
what comes out opens the commitment that the coin came with (`OneTimeCoin.opens_of_reveal`).
-/

namespace ShieldedPayments.OneTimeCoin

variable {F G : Type} [ScalarField F] [PointGroup F G] {coin opened later : OneTimeCoin F G}
  {keys : KeySet F G} {view : F}

/-- The coin that a view secret opens: the coin itself if it opens, and otherwise the coin without the
offsets, if that one opens. -/
inductive OpenedWith (coin : OneTimeCoin F G) (view : F) : OneTimeCoin F G → Prop
  | already (hopen : coin.isEncrypted = false) : OpenedWith coin view coin
  | cleared {opened : OneTimeCoin F G} (hencrypted : coin.isEncrypted = true)
      (hremoved : coin.removeOffsets view = .ok opened) (hopen : opened.isEncrypted = false) :
      OpenedWith coin view opened

theorem OpenedWith.isEncrypted_eq (h : coin.OpenedWith view opened) : opened.isEncrypted = false := by
  cases h with
  | already hopen => exact hopen
  | cleared _ _ hopen => exact hopen

theorem removeOffsets_eq_ok_iff : coin.removeOffsets view = .ok opened ↔
    ∃ tx mask amount, coin.txRandom = some tx ∧ coin.mask = some mask ∧ coin.amount = some amount ∧
      { coin with
        mask := some (mask - hashToScalar (maskParts (view • tx.concealRandom)))
        amount := some (amount - hashToScalar (amountParts (view • tx.concealRandom))) } = opened := by
  unfold removeOffsets
  simp only [require_bind_eq_ok_iff, Outcome.pure_eq_ok_iff, exists_and_left]

/-- Opening changes mask and amount only. -/
theorem OpenedWith.eq (h : coin.OpenedWith view opened) :
    opened = { coin with mask := opened.mask, amount := opened.amount } := by
  cases h with
  | already => rfl
  | cleared _ hremoved =>
    obtain ⟨_, _, _, -, -, -, rfl⟩ := removeOffsets_eq_ok_iff.mp hremoved
    rfl

/-- A coin is opened with a view secret before anything else is done with it. -/
theorem opened_bind_eq_ok_iff {finish : OneTimeCoin F G → Outcome (OneTimeCoin F G)} :
    (if coin.isEncrypted then do
      let opened ← coin.removeOffsets view
      ensure (!opened.isEncrypted) (.commitmentMismatch "coin v2 opening")
      finish opened
    else finish coin) = .ok later ↔ ∃ opened, coin.OpenedWith view opened ∧ finish opened = .ok later := by
  by_cases hencrypted : coin.isEncrypted = true
  · rw [if_pos hencrypted, Outcome.bind_eq_ok_iff]
    refine exists_congr fun opened => ?_
    rw [ensure_bind_eq_ok_iff, ← and_assoc, Bool.not_eq_true']
    refine and_congr_left fun _ => ⟨fun ⟨hremoved, hopen⟩ => .cleared hencrypted hremoved hopen, ?_⟩
    intro h
    cases h with
    | already hopen => exact absurd hencrypted (Bool.eq_false_iff.mp hopen)
    | cleared _ hremoved hopen => exact ⟨hremoved, hopen⟩
  · rw [if_neg hencrypted]
    constructor
    · exact fun h => ⟨coin, .already (Bool.eq_false_iff.mpr hencrypted), h⟩
    · rintro ⟨opened, hopened, h⟩
      cases hopened with
      | already => exact h
      | cleared h => exact absurd h hencrypted

/-- **Who opens a coin, and what comes out.** -/
theorem reveal_eq_ok_iff : coin.reveal keys = .ok later ↔
    ∃ view opened, keys.viewSecret = some view ∧ coin.OpenedWith view opened ∧
      match keys.privateKey with
      | none => later = opened
      | some sk => ∃ image, coin.keyImageFor sk = .ok image ∧
          later = { opened with keyImage := some image } := by
  unfold reveal KeySet.requireDecryption
  rw [require_bind_eq_ok_iff]
  refine exists_congr fun view => ?_
  rw [exists_and_left]
  refine and_congr_right fun _ => opened_bind_eq_ok_iff.trans ?_
  refine exists_congr fun opened => and_congr_right fun _ => ?_
  cases keys.privateKey with
  | none => exact Outcome.pure_eq_ok_iff.trans eq_comm
  | some sk =>
    show (do return { opened with keyImage := some (← coin.keyImageFor sk) }) = .ok later ↔ _
    rw [Outcome.bind_eq_ok_iff]
    exact exists_congr fun image => and_congr_right fun _ => Outcome.pure_eq_ok_iff.trans eq_comm

theorem exists_opened_of_reveal (h : coin.reveal keys = .ok later) :
    ∃ view opened, coin.OpenedWith view opened ∧ later = { opened with keyImage := later.keyImage } := by
  obtain ⟨view, opened, -, hopened, hfinish⟩ := reveal_eq_ok_iff.mp h
  refine ⟨view, opened, hopened, ?_⟩
  cases hprivate : keys.privateKey with
  | none =>
    rw [hprivate] at hfinish
    exact hfinish ▸ rfl
  | some sk =>
    rw [hprivate] at hfinish
    obtain ⟨image, -, rfl⟩ := hfinish
    rfl

/-- What is revealed differs from the coin in mask, amount and key image only. -/
theorem eq_of_reveal (h : coin.reveal keys = .ok later) :
    later = { coin with mask := later.mask, amount := later.amount, keyImage := later.keyImage } := by
  obtain ⟨view, opened, hopened, hlater⟩ := exists_opened_of_reveal h
  have hfields := hopened.eq
  rw [hlater, hfields]

theorem isEncrypted_of_reveal (h : coin.reveal keys = .ok later) : later.isEncrypted = false := by
  obtain ⟨view, opened, hopened, hlater⟩ := exists_opened_of_reveal h
  rw [hlater]
  exact hopened.isEncrypted_eq

theorem exists_keyImageFor {publicKey : G} {tx : TxRandom G} (hkey : coin.publicKey = some publicKey)
    (htx : coin.txRandom = some tx) (sk : PrivateKey F) : ∃ image, coin.keyImageFor sk = .ok image := by
  unfold keyImageFor oneTimeSecret sharedSecret
  rw [hkey, htx]
  exact ⟨_, rfl⟩

/-- A coin that had no key image gets one exactly if there is a private key. -/
theorem exists_reveal_of_opened {publicKey : G} {tx : TxRandom G} (hview : keys.viewSecret = some view)
    (hopened : coin.OpenedWith view opened) (himage : opened.keyImage = none)
    (hkey : coin.publicKey = some publicKey) (htx : coin.txRandom = some tx) :
    ∃ image, coin.reveal keys = .ok { opened with keyImage := image } ∧
      (image.isSome = true ↔ keys.privateKey.isSome = true) := by
  cases hprivate : keys.privateKey with
  | none =>
    refine ⟨none, reveal_eq_ok_iff.mpr ⟨view, opened, hview, hopened, ?_⟩, Iff.rfl⟩
    rw [hprivate, ← himage]
  | some sk =>
    obtain ⟨image, hfound⟩ := exists_keyImageFor hkey htx sk
    refine ⟨some image, reveal_eq_ok_iff.mpr ⟨view, opened, hview, hopened, ?_⟩, Iff.rfl⟩
    rw [hprivate]
    exact ⟨image, hfound, rfl⟩

variable [PointGroup.Lawful F G]

/-- **What is revealed of a one-time coin opens its commitment.** -/
theorem opens_of_reveal {commitment : G} (hcommitment : coin.commitment = some commitment)
    (h : coin.reveal keys = .ok later) : later.expectedCommitment = some commitment := by
  obtain ⟨mask, amount, hopens⟩ := isEncrypted_eq_false_iff.mp (isEncrypted_of_reveal h)
  have hsame : later.commitment = coin.commitment := by rw [eq_of_reveal h]
  rw [hopens.expectedCommitment_eq, hsame, hcommitment]

end ShieldedPayments.OneTimeCoin
