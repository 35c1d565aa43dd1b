import Mathlib.Data.List.Nodup
import ShieldedPayments.Proofs.Coin.Recipient

/-!
# A coin of a confidential asset keeps its token

The sender blinds the raw tag of a token under a secret, the recipient computes the secret from the
randomness of the coin and takes the blinder off again. In between the raw tag may be remembered, be lost
with the encoding, and be computed anew when the recipient looks at the coin. What a coin says of its
token depends on none of this: it carries one raw tag (`OneTimeCoin.Carries`), whatever its recipient does
to it (`OneTimeCoin.Operation.carries`, `OneTimeCoin.carries_afterAll`).

* `TagTable.find?_ofTokens`: a table names the last token with a raw tag.
* `OneTimeCoin.Carries.token_eq`: the token of a coin is what a table names for the raw tag it carries.
* `OneTimeCoin.token_kept`: which tokens the coin is of, at any time.
-/

namespace ShieldedPayments

open PointGroup

/-! ## Tables of raw tags -/

namespace TagTable

theorem lookup_filter_ne (table : TagTable) {tag other : Bytes} (h : other ≠ tag) :
    (table.filter fun entry => entry.1 != tag).lookup other = table.lookup other := by
  induction table with
  | nil => rfl
  | cons entry table ih =>
    by_cases hentry : entry.1 = tag
    · have hne : (other == entry.1) = false := by
        rw [hentry]
        exact beq_false_of_ne h
      rw [List.filter_cons_of_neg (by simpa using hentry), ih, List.lookup_cons, hne]
    · rw [List.filter_cons_of_pos (by simpa using hentry), List.lookup_cons, List.lookup_cons, ih]

theorem lookup_filter_self (table : TagTable) (tag : Bytes) :
    (table.filter fun entry => entry.1 != tag).lookup tag = none := by
  rw [List.lookup_eq_none_iff]
  intro entry hentry
  have hne := (List.mem_filter.mp hentry).2
  rw [bne_iff_ne] at hne
  exact bne_iff_ne.mpr hne.symm

/-- A token that is put into a table is the one that its raw tag names, and no other tag is affected. -/
theorem find?_insert (table : TagTable) (tag other : Bytes) (t : TokenId) :
    (table.insert tag t).find? other = if tag = other then some t else table.find? other := by
  unfold find? insert
  rw [List.lookup_append]
  split_ifs with h
  · obtain rfl := h
    rw [lookup_filter_self, List.lookup_cons, BEq.rfl]
    rfl
  · rw [lookup_filter_ne table (Ne.symm h), List.lookup_cons, beq_false_of_ne (Ne.symm h)]
    exact Option.or_none

variable {F G : Type} [ScalarField F] [PointGroup F G]

/-- A table names the last one of its tokens with a raw tag. -/
theorem find?_ofTokens (tokens : List TokenId) (tag : Bytes) :
    (ofTokens G tokens).find? tag =
      tokens.reverse.find? fun t => encode (t.rawTag : G) == tag := by
  induction tokens using List.reverseRecOn with
  | nil => rfl
  | append_singleton tokens t ih =>
    have hlast : ofTokens G (tokens ++ [t]) =
        (ofTokens G tokens).insert (encode (t.rawTag : G)) t := by
      unfold ofTokens
      rw [List.foldl_append]
      rfl
    rw [hlast, find?_insert, ih, List.reverse_append, List.reverse_singleton, List.singleton_append,
      List.find?_cons]
    by_cases h : encode (t.rawTag : G) = tag
    · rw [if_pos h, beq_iff_eq.mpr h]
    · rw [if_neg h, beq_false_of_ne h]

variable [PointGroup.Canonical F G]

/-- Among tokens with different raw tags, each is the one that its tag names. -/
theorem find?_ofTokens_of_mem {tokens : List TokenId} {t : TokenId} (hmem : t ∈ tokens)
    (hnodup : (tokens.map (TokenId.rawTag : TokenId → G)).Nodup) :
    (ofTokens G tokens).find? (encode (t.rawTag : G)) = some t := by
  rw [find?_ofTokens]
  cases hfound : tokens.reverse.find? fun u => encode (u.rawTag : G) == encode (t.rawTag : G) with
  | none =>
    have hmiss := List.find?_eq_none.mp hfound t (List.mem_reverse.mpr hmem)
    exact absurd BEq.rfl hmiss
  | some u =>
    have hmatch := List.find?_some hfound
    have hu := List.mem_reverse.mp (List.mem_of_find?_eq_some hfound)
    have htag : (u.rawTag : G) = t.rawTag := encode_injective (beq_iff_eq.mp hmatch)
    rw [List.inj_on_of_nodup_map hnodup hu hmem htag]

theorem find?_ofTokens_of_forall_ne {tokens : List TokenId} {raw : G}
    (h : ∀ u ∈ tokens, (u.rawTag : G) ≠ raw) : (ofTokens G tokens).find? (encode raw) = none := by
  rw [find?_ofTokens, List.find?_eq_none]
  intro u hu hmatch
  exact h u (List.mem_reverse.mp hu) (encode_injective (beq_iff_eq.mp hmatch))

end TagTable

variable {F G : Type} [ScalarField F] [PointGroup F G]

/-! ## Blinding -/

namespace AssetTag

variable [PointGroup.Lawful F G]

theorem unblind_blind (raw : G) (blinder : F) : unblind (blind raw blinder) blinder = raw :=
  add_sub_cancel_right raw _

theorem blind_inj {raw other : G} {blinder : F} : blind raw blinder = blind other blinder ↔ raw = other :=
  add_left_inj _

end AssetTag

/-- A key set has the one-time-address key of its own address. -/
structure KeySet.Receives (keys : KeySet F G) (ota : OtaKey F G) : Prop where
  otaKey_eq : keys.otaKey = some ota
  publicSpend_eq : keys.address.publicSpend = ota.publicSpend
  publicOta_eq : keys.address.publicOta = some ota.publicOta

theorem KeySet.receives_ofPrivateKey (sk : PrivateKey F) :
    (ofPrivateKey sk : KeySet F G).Receives ⟨sk.publicSpend, sk.otaSecret⟩ :=
  ⟨rfl, rfl, rfl⟩

namespace OneTimeCoin

variable {coin : OneTimeCoin F G} {keys : KeySet F G} {ota : OtaKey F G} {secret raw : G}

/-- Who recognises a coin with a tag remembers the raw tag that the shared secret leads to. -/
theorem rawAssetTag_recognise {tag : G} (htag : coin.assetTag = some tag)
    (hsecret : (coin.recognise keys).sharedSecret = some secret) :
    (coin.recognise keys).coin.rawAssetTag =
      some (AssetTag.unblind tag (AssetTag.blinder secret)) := by
  unfold recognise at hsecret ⊢
  split at hsecret
  · simp only at hsecret ⊢
    split_ifs at hsecret ⊢ with howns
    rw [htag, Option.some.inj hsecret]
  · cases hsecret

/-- If a coin remembers a raw tag, it is this one. -/
def Remembers (coin : OneTimeCoin F G) (raw : G) : Prop :=
  coin.rawAssetTag = none ∨ coin.rawAssetTag = some raw

/-- A coin carries a raw tag to the owner of a one-time-address key. The one-time key belongs to the owner,
the asset tag is the raw tag, blinded under the secret that the owner computes, and if a raw tag is
remembered, it is this one. -/
structure Carries (coin : OneTimeCoin F G) (ota : OtaKey F G) (secret raw : G) : Prop where
  addressed : ∃ publicKey tx, coin.Addressed ota publicKey tx ∧ ota.otaSecret • tx.otaRandom = secret
  assetTag : coin.assetTag = some (AssetTag.blind raw (AssetTag.blinder secret))
  remembered : coin.Remembers raw
  fits : coin.Fits

/-- What is done to the other fields of a coin does not matter. -/
theorem Carries.of_keepsKey {later : OneTimeCoin F G} (h : coin.Carries ota secret raw)
    (hkeeps : coin.KeepsKey later) (hraw : later.Remembers raw) : later.Carries ota secret raw := by
  obtain ⟨publicKey, tx, haddressed, hsecret⟩ := h.addressed
  refine ⟨⟨publicKey, tx, ⟨?_, ?_, haddressed.key_eq⟩, hsecret⟩, hkeeps.assetTag.trans h.assetTag, hraw,
    hkeeps.fits⟩
  · exact hkeeps.publicKey.trans haddressed.publicKey_eq
  · exact hkeeps.txRandom.trans haddressed.txRandom_eq

variable [PointGroup.Lawful F G]

/-- A fresh coin of a token carries its raw tag, under the secret that the sender returns. -/
theorem carries_of_payAsset [ScalarField.Lawful F] {params : ShardParams} {request : CoinRequest G}
    {token : TokenId} (hkeys : keys.Receives ota) (haddress : request.payment.address = keys.address)
    (hpaid : (payAsset params request token).Returns (coin, secret)) :
    coin.Carries ota secret token.rawTag ∧ coin.rawAssetTag = some token.rawTag := by
  obtain ⟨publicOta, draws, hota, rfl, rfl⟩ := made_of_payAsset hpaid
  rw [haddress, hkeys.publicOta_eq] at hota
  obtain rfl := Option.some.inj hota
  have hshared : ota.otaSecret • (baseMultiple draws.sharedRandom : G) =
      draws.sharedRandom • ota.publicOta := smul_baseMultiple _ _
  refine ⟨⟨⟨_, _, ⟨rfl, rfl, ?_⟩, hshared⟩, rfl, .inr rfl, fits_made _ _ _ _ _⟩, rfl⟩
  rw [hshared, haddress, hkeys.publicSpend_eq]
  rfl

/-- The owner recognises the coin, computes the sender's secret, and finds the raw tag. -/
theorem Carries.recognise (h : coin.Carries ota secret raw) (hkeys : keys.Receives ota) :
    (coin.recognise keys).belongs = true ∧ (coin.recognise keys).sharedSecret = some secret ∧
      (coin.recognise keys).coin.rawAssetTag = some raw := by
  obtain ⟨publicKey, tx, haddressed, rfl⟩ := h.addressed
  obtain ⟨hbelongs, hsecret⟩ := recognise_of_addressed hkeys.otaKey_eq haddressed
  refine ⟨hbelongs, hsecret, ?_⟩
  rw [rawAssetTag_recognise h.assetTag hsecret, AssetTag.unblind_blind]

/-- Whether it is remembered or has to be computed, the raw tag is there. -/
theorem Carries.exists_rememberTag (h : coin.Carries ota secret raw) (hkeys : keys.Receives ota) :
    ∃ found, coin.rememberTag keys = (.ok (), found) ∧ found.rawAssetTag = some raw := by
  obtain ⟨hbelongs, -, hraw⟩ := h.recognise hkeys
  unfold OneTimeCoin.rememberTag
  rcases h.remembered with hnone | hsome
  · refine ⟨(coin.recognise keys).coin, ?_, hraw⟩
    rw [hnone]
    show (ensure (coin.recognise keys).belongs _, _) = _
    rw [hbelongs]
    rfl
  · refine ⟨coin, ?_, hsome⟩
    rw [hsome]
    rfl

/-- The token of the coin is what a table names for the raw tag that it carries, which the coin then
remembers. -/
theorem Carries.token_eq (h : coin.Carries ota secret raw) (hkeys : keys.Receives ota)
    (table : TagTable) :
    (coin.token keys table).1 =
        require (table.find? (encode raw)) (.invalidInput "unknown asset tag") ∧
      (coin.token keys table).2.rawAssetTag = some raw := by
  obtain ⟨found, hfound, hraw⟩ := h.exists_rememberTag hkeys
  have htagged : ¬ coin.assetTag.isNone = true := by
    rw [h.assetTag]
    exact Bool.false_ne_true
  unfold OneTimeCoin.token
  rw [if_neg htagged, hfound]
  refine ⟨?_, hraw⟩
  show require found.rawAssetTag _ >>= _ = _
  rw [hraw]
  rfl

/-- With the shared secret, the coin is of the tokens with the raw tag that it carries. -/
theorem Carries.isOfToken_iff (h : coin.Carries ota secret raw) (t : TokenId) :
    coin.isOfToken secret t = true ↔ (t.rawTag : G) = raw := by
  unfold isOfToken
  rw [h.assetTag]
  show (_ == _) = true ↔ _
  rw [beq_iff_eq, AssetTag.blind_inj]

/-! ## What its recipient does to a coin -/

omit [PointGroup.Lawful F G] in
/-- What can be done to a coin, other than redacting it or looking at it with foreign keys. -/
def Operation.ByRecipient (keys : KeySet F G) : Operation F G → Prop
  | redact => False
  | recognise other => other = keys
  | token other _ => other = keys
  | _ => True

variable [ScalarField.Canonical F] [PointGroup.Canonical F G]

/-- **One operation.** -/
theorem Operation.carries (operation : Operation F G) (hkeys : keys.Receives ota)
    (hby : operation.ByRecipient keys) (h : coin.Carries ota secret raw) :
    (operation.run coin).2.Carries ota secret raw := by
  have hredact : operation ≠ .redact := by
    rintro rfl
    exact hby
  refine h.of_keepsKey (operation.keepsKey hredact h.fits) ?_
  cases operation with
  | conceal publicView =>
    rw [run, runOn_concealInPlace]
    refine delivered_snd (P := (Remembers · raw)) h.remembered fun later hlater => ?_
    obtain ⟨random, -, rfl⟩ := concealedTo_of_conceal hlater
    exact h.remembered
  | redact => exact hby.elim
  | reveal other =>
    refine delivered_snd (P := (Remembers · raw)) h.remembered fun later hlater => ?_
    rw [eq_of_reveal hlater]
    exact h.remembered
  | recognise other =>
    obtain rfl : other = keys := hby
    exact .inr (h.recognise hkeys).2.2
  | token other table =>
    obtain rfl : other = keys := hby
    exact .inr (h.token_eq hkeys table).2
  | recode =>
    refine delivered_snd (P := (Remembers · raw)) h.remembered fun later hlater => ?_
    obtain rfl := Except.ok.inj ((ofBytes_toBytes h.fits).symm.trans hlater)
    exact .inl rfl
  | _ => exact h.remembered

/-- **Any number of operations.** -/
theorem carries_afterAll (operations : List (Operation F G)) (hkeys : keys.Receives ota)
    (hby : ∀ operation ∈ operations, operation.ByRecipient keys) (h : coin.Carries ota secret raw) :
    (afterAll operations coin).Carries ota secret raw :=
  List.foldlRecOn (motive := fun coin : OneTimeCoin F G => coin.Carries ota secret raw) operations _ h
    fun _ h operation hoperation => operation.carries hkeys (hby operation hoperation) h

/-- **A coin keeps its token.** Let a sender make a coin of a token for the address of a key set that has
the one-time-address key. The coin remembers the raw tag of the token, and whatever the recipient does to
the coin, this is the raw tag that is found by taking the blinder off and by recognising the coin again.
With the secret that the sender returned, the coin passes for the tokens with this raw tag and no others.
Its token is looked up as the one it was made with in every table of tokens with different raw tags that
has it, and as unknown in every table without its raw tag. -/
theorem token_kept [ScalarField.Lawful F] {params : ShardParams} {request : CoinRequest G}
    {token : TokenId} {coin : OneTimeCoin F G} {secret : G} {keys : KeySet F G} {ota : OtaKey F G}
    (hkeys : keys.Receives ota) (haddress : request.payment.address = keys.address)
    (hpaid : (payAsset params request token).Returns (coin, secret))
    (operations : List (Operation F G))
    (hby : ∀ operation ∈ operations, operation.ByRecipient keys)
    {later : OneTimeCoin F G} (hlater : afterAll operations coin = later) :
    coin.rawAssetTag = some token.rawTag ∧
    (later.assetTag.map fun tag => AssetTag.unblind tag (AssetTag.blinder secret)) =
      coin.rawAssetTag ∧
    (later.recognise keys).sharedSecret = some secret ∧
    (later.recognise keys).coin.rawAssetTag = coin.rawAssetTag ∧
    (∀ other : TokenId, later.isOfToken secret other = true ↔ (other.rawTag : G) = token.rawTag) ∧
    (∀ tokens : List TokenId, token ∈ tokens →
      (tokens.map (TokenId.rawTag : TokenId → G)).Nodup →
      (later.token keys (.ofTokens G tokens)).1 = .ok token) ∧
    ∀ tokens : List TokenId, (∀ other ∈ tokens, (other.rawTag : G) ≠ token.rawTag) →
      (later.token keys (.ofTokens G tokens)).1 = .error (.invalidInput "unknown asset tag") := by
  obtain ⟨hfresh, hraw⟩ := carries_of_payAsset hkeys haddress hpaid
  have h := carries_afterAll operations hkeys hby hfresh
  rw [hlater] at h
  obtain ⟨-, hsecret, hfound⟩ := h.recognise hkeys
  refine ⟨hraw, ?_, hsecret, hfound.trans hraw.symm, h.isOfToken_iff, ?_, ?_⟩
  · rw [h.assetTag, Option.map_some, AssetTag.unblind_blind, hraw]
  · intro tokens hmem hnodup
    rw [(h.token_eq hkeys _).1, TagTable.find?_ofTokens_of_mem hmem hnodup]
    rfl
  · intro tokens hnone
    rw [(h.token_eq hkeys _).1, TagTable.find?_ofTokens_of_forall_ne hnone]
    rfl

/-! ## A coin that is concealed, read back, recognised and opened -/

section

open Curve (Scalar)

/-- A token other than the native one. -/
def mintedToken : TokenId :=
  ⟨List.replicate tokenSize 1, by decide⟩

theorem nodup_rawTag_mintedToken :
    ([.native, mintedToken].map (TokenId.rawTag : TokenId → Exponent)).Nodup := by
  decide +kernel

/-- The owner of a key finds the token that was minted in a table of two. -/
theorem token_kept_minted :
    ∃ (coin : OneTimeCoin Scalar Exponent) (secret : Exponent),
      (payAsset { numShards := 1, maxTries := 2 } minterRequest mintedToken).Returns (coin, secret) ∧
      ((afterAll [.conceal minterRequest.payment.address.publicView, .recode,
          .recognise (.ofPrivateKey minterKey), .reveal (.ofPrivateKey minterKey)] coin).token
        (.ofPrivateKey minterKey) (.ofTokens Exponent [.native, mintedToken])).1 =
        .ok mintedToken := by
  have hpaid : (payAsset { numShards := 1, maxTries := 2 } minterRequest mintedToken).Returns _ :=
    Proving.returns_iff.mpr
      ⟨zeroTape, runOn_payAsset_eq_ok_iff.mpr ⟨_, _, routed_minterRequest, rfl, rfl⟩⟩
  have hby : ∀ operation ∈ [Operation.conceal minterRequest.payment.address.publicView, .recode,
      .recognise (.ofPrivateKey minterKey), .reveal (.ofPrivateKey minterKey)],
      operation.ByRecipient (.ofPrivateKey minterKey) := by
    simp only [List.forall_mem_cons, Operation.ByRecipient, List.not_mem_nil, false_imp_iff,
      implies_true, and_self]
  obtain ⟨-, -, -, -, -, hkept, -⟩ :=
    token_kept (KeySet.receives_ofPrivateKey minterKey) rfl hpaid _ hby rfl
  exact ⟨_, _, hpaid, hkept _ (by decide) nodup_rawTag_mintedToken⟩

end

end OneTimeCoin

end ShieldedPayments
