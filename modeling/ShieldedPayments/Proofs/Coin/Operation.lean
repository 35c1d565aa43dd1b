import ShieldedPayments.Proofs.Coin.Concealing

/-!
# Operations on one-time coins

The holder of a coin conceals, redacts, opens, changes or encodes it, in any order and as often as it
takes (`OneTimeCoin.Operation`). An operation that refuses leaves the coin as it was; for concealing, which
edits the coin field by field, this is so because all checks come before the first edit
(`OneTimeCoin.runOn_concealInPlace`).

Whatever is done to a coin, its memo still fits the encoding, and the sender's conceal randomness is still
the same or gone (`OneTimeCoin.Keeps`). Unless it is redacted, the coin also keeps its one-time key, its
randomness and its asset tag (`OneTimeCoin.KeepsKey`). One operation keeps this
(`OneTimeCoin.Operation.keepsKey`, `OneTimeCoin.Operation.keeps`), so any number of them do
(`OneTimeCoin.keepsKey_afterAll`, `OneTimeCoin.keeps_afterAll`).
-/

namespace ShieldedPayments.OneTimeCoin

variable {F G : Type}

/-! ## Programs that edit a coin -/

/-- Programs that edit a coin and may refuse. A refusal does not undo what was edited before it. -/
abbrev Editing (F G : Type) := ExceptT Fault (StateM (OneTimeCoin F G))

namespace Editing

variable {α β : Type}

/-- The outcome of a program, and the coin it leaves. -/
def runOn (p : Editing F G α) (coin : OneTimeCoin F G) : Outcome α × OneTimeCoin F G :=
  (ExceptT.run p).run coin

theorem runOn_get_bind (f : OneTimeCoin F G → Editing F G β) (coin : OneTimeCoin F G) :
    runOn (get >>= f) coin = (f coin).runOn coin := rfl

theorem runOn_outcome_bind (x : Outcome α) (f : α → Editing F G β) (coin : OneTimeCoin F G) :
    runOn (liftM x >>= f) coin =
      match x with
      | .ok a => (f a).runOn coin
      | .error fault => (.error fault, coin) := by
  cases x with
  | ok a => rfl
  | error fault => rfl

end Editing

variable [ScalarField F] [PointGroup F G]

/-- Conceals the mask, then the amount of the coin at hand, and forgets the sender's random scalars. -/
def concealInPlace (publicView : G) : Editing F G Unit := do
  ensure (!(← get).isEncrypted) (.invalidInput "coin is already concealed")
  let random ← require (← get).sharedConcealRandom (.invalidInput "coin has no conceal randomness")
  let sharedSecret : G := random • publicView
  modify fun coin => { coin with mask := coin.mask.map (· + hashToScalar (maskParts sharedSecret)) }
  modify fun coin =>
    { coin with amount := coin.amount.map (· + hashToScalar (amountParts sharedSecret)) }
  modify forgetRandoms

/-- What an operation that delivers a coin leaves, which is the coin it was given if it refuses. -/
def delivered (coin : OneTimeCoin F G) : Outcome (OneTimeCoin F G) → Outcome Unit × OneTimeCoin F G
  | .ok later => (.ok (), later)
  | .error fault => (.error fault, coin)

omit [ScalarField F] [PointGroup F G] in
/-- What holds of a coin and of every coin that an operation delivers holds of the coin it leaves. -/
theorem delivered_snd {P : OneTimeCoin F G → Prop} {coin : OneTimeCoin F G}
    {x : Outcome (OneTimeCoin F G)} (hcoin : P coin) (h : ∀ later, x = .ok later → P later) :
    P (coin.delivered x).2 := by
  cases x with
  | ok later => exact h later rfl
  | error fault => exact hcoin

/-- **Concealing in place conceals the coin, or leaves it as it was.** -/
theorem runOn_concealInPlace (coin : OneTimeCoin F G) (publicView : G) :
    (concealInPlace publicView).runOn coin = coin.delivered (coin.conceal publicView) := by
  unfold concealInPlace conceal
  rw [Editing.runOn_get_bind, Editing.runOn_outcome_bind]
  cases ensure (!coin.isEncrypted) (.invalidInput "coin is already concealed") with
  | error fault => rfl
  | ok _ =>
    show Editing.runOn (get >>= _) coin = _
    rw [Editing.runOn_get_bind, Editing.runOn_outcome_bind]
    cases require coin.sharedConcealRandom (.invalidInput "coin has no conceal randomness") with
    | error fault => rfl
    | ok random => rfl

/-! ## Operations -/

/-- What the holder of a coin can do to it: conceal it to a public view key, leave only its key image,
forget the sender's random scalars, set a field, open it, look whether it belongs to a key set and of which
token it is, both of which may remember its raw asset tag, or encode it and read it back. -/
inductive Operation (F G : Type) where
  | conceal (publicView : G)
  | redact
  | forgetRandoms
  | setKeyImage (image : Option G)
  | setCommitment (commitment : Option G)
  | setInfo (info : Bytes)
  | reveal (keys : KeySet F G)
  | recognise (keys : KeySet F G)
  | token (keys : KeySet F G) (table : TagTable)
  | recode

/-- Whether an operation succeeds on a coin, and the coin it leaves. -/
def Operation.run (coin : OneTimeCoin F G) : Operation F G → Outcome Unit × OneTimeCoin F G
  | conceal publicView => (concealInPlace publicView).runOn coin
  | redact => (.ok (), coin.redact)
  | forgetRandoms => (.ok (), coin.forgetRandoms)
  | setKeyImage image => (.ok (), { coin with keyImage := image })
  | setCommitment commitment => (.ok (), { coin with commitment := commitment })
  | setInfo info => (.ok (), coin.withInfo info)
  | reveal keys => coin.delivered (coin.reveal keys)
  | recognise keys => (.ok (), (coin.recognise keys).coin)
  | token keys table => ((coin.token keys table).1.map fun _ => (), (coin.token keys table).2)
  | recode => coin.delivered (ofBytes coin.toBytes)

/-- The coin after some operations, whether they succeed or not. -/
def afterAll (operations : List (Operation F G)) (coin : OneTimeCoin F G) : OneTimeCoin F G :=
  operations.foldl (fun coin operation => (operation.run coin).2) coin

/-! ## What operations keep -/

/-- A later coin fits its encoding, and its conceal randomness is that of the earlier one or gone. -/
structure Keeps (coin later : OneTimeCoin F G) : Prop where
  fits : later.Fits
  sharedConcealRandom : later.sharedConcealRandom = coin.sharedConcealRandom ∨
    later.sharedConcealRandom = none

/-- A later coin fits its encoding, and has the one-time key, the randomness and the asset tag of the earlier
one. -/
structure KeepsKey (coin later : OneTimeCoin F G) : Prop extends coin.Keeps later where
  publicKey : later.publicKey = coin.publicKey
  txRandom : later.txRandom = coin.txRandom
  assetTag : later.assetTag = coin.assetTag

variable {coin later last : OneTimeCoin F G}

section

omit [ScalarField F] [PointGroup F G]

theorem Keeps.trans (h : coin.Keeps later) (h' : later.Keeps last) : coin.Keeps last := by
  refine ⟨h'.fits, ?_⟩
  rcases h'.sharedConcealRandom with heq | hnone
  · rw [heq]
    exact h.sharedConcealRandom
  · exact .inr hnone

/-- The conceal randomness does not come back. -/
theorem Keeps.gone (h : coin.Keeps later) (hgone : coin.sharedConcealRandom = none) :
    later.sharedConcealRandom = none := by
  rcases h.sharedConcealRandom with heq | hnone
  · rw [heq, hgone]
  · exact hnone

theorem KeepsKey.trans (h : coin.KeepsKey later) (h' : later.KeepsKey last) : coin.KeepsKey last :=
  ⟨h.toKeeps.trans h'.toKeeps, h'.publicKey.trans h.publicKey, h'.txRandom.trans h.txRandom,
    h'.assetTag.trans h.assetTag⟩

theorem keepsKey_self (hfits : coin.Fits) : coin.KeepsKey coin :=
  ⟨⟨hfits, .inl rfl⟩, rfl, rfl, rfl⟩

end

theorem eq_of_rememberTag (coin : OneTimeCoin F G) (keys : KeySet F G) :
    (coin.rememberTag keys).2 =
      { coin with rawAssetTag := (coin.rememberTag keys).2.rawAssetTag } := by
  unfold rememberTag
  split
  · rfl
  · exact eq_of_recognise coin keys

/-- Looking for the token of a coin fills in its raw asset tag at most. -/
theorem eq_of_token (coin : OneTimeCoin F G) (keys : KeySet F G) (table : TagTable) :
    (coin.token keys table).2 =
      { coin with rawAssetTag := (coin.token keys table).2.rawAssetTag } := by
  unfold token
  split
  · rfl
  · exact eq_of_rememberTag coin keys

variable [ScalarField.Canonical F] [PointGroup.Canonical F G]

/-- **One operation** that leaves more of a coin than its key image. -/
theorem Operation.keepsKey (operation : Operation F G) (hredact : operation ≠ .redact)
    (hfits : coin.Fits) : coin.KeepsKey (operation.run coin).2 := by
  cases operation with
  | conceal publicView =>
    rw [run, runOn_concealInPlace]
    refine delivered_snd (keepsKey_self hfits) fun later hlater => ?_
    obtain ⟨random, -, rfl⟩ := concealedTo_of_conceal hlater
    exact ⟨⟨hfits, .inr rfl⟩, rfl, rfl, rfl⟩
  | redact => exact absurd rfl hredact
  | forgetRandoms => exact ⟨⟨hfits, .inr rfl⟩, rfl, rfl, rfl⟩
  | setKeyImage image => exact ⟨⟨hfits, .inl rfl⟩, rfl, rfl, rfl⟩
  | setCommitment commitment => exact ⟨⟨hfits, .inl rfl⟩, rfl, rfl, rfl⟩
  | setInfo info => exact ⟨⟨List.length_take_le _ _, .inl rfl⟩, rfl, rfl, rfl⟩
  | reveal keys =>
    refine delivered_snd (keepsKey_self hfits) fun later hlater => ?_
    rw [eq_of_reveal hlater]
    exact ⟨⟨hfits, .inl rfl⟩, rfl, rfl, rfl⟩
  | recognise keys =>
    rw [run, eq_of_recognise]
    exact ⟨⟨hfits, .inl rfl⟩, rfl, rfl, rfl⟩
  | token keys table =>
    rw [run, eq_of_token]
    exact ⟨⟨hfits, .inl rfl⟩, rfl, rfl, rfl⟩
  | recode =>
    refine delivered_snd (keepsKey_self hfits) fun later hlater => ?_
    obtain rfl := Except.ok.inj ((ofBytes_toBytes hfits).symm.trans hlater)
    exact ⟨⟨hfits, .inl rfl⟩, rfl, rfl, rfl⟩

/-- **One operation.** -/
theorem Operation.keeps (operation : Operation F G) (hfits : coin.Fits) :
    coin.Keeps (operation.run coin).2 := by
  cases operation with
  | redact => exact ⟨Nat.zero_le _, .inr rfl⟩
  | _ => exact (Operation.keepsKey _ (by nofun) hfits).toKeeps

/-- **Any number of operations**, none of which leaves no more than the key image. -/
theorem keepsKey_afterAll (operations : List (Operation F G)) (hredact : .redact ∉ operations)
    (hfits : coin.Fits) : coin.KeepsKey (afterAll operations coin) :=
  List.foldlRecOn operations _ (keepsKey_self hfits) fun _ h operation hoperation =>
    h.trans (operation.keepsKey (fun heq => hredact (heq ▸ hoperation)) h.fits)

/-- **Any number of operations.** -/
theorem keeps_afterAll (operations : List (Operation F G)) (hfits : coin.Fits) :
    coin.Keeps (afterAll operations coin) :=
  List.foldlRecOn operations _ (keepsKey_self hfits).toKeeps fun _ h operation _ =>
    h.trans (operation.keeps h.fits)

omit [ScalarField.Canonical F] [PointGroup.Canonical F G] in
/-- Without conceal randomness a coin cannot be concealed, and trying leaves it as it is. -/
theorem runOn_concealInPlace_of_gone (hgone : coin.sharedConcealRandom = none) (publicView : G) :
    ∃ fault, (concealInPlace publicView).runOn coin = (.error fault, coin) := by
  rw [runOn_concealInPlace, conceal, hgone]
  cases ensure (!coin.isEncrypted) (.invalidInput "coin is already concealed") with
  | error fault => exact ⟨fault, rfl⟩
  | ok _ => exact ⟨_, rfl⟩

end ShieldedPayments.OneTimeCoin
