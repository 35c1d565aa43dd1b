import ShieldedPayments.Proofs.Coin.Concealing
import ShieldedPayments.Proofs.Group.Exponents
import ShieldedPayments.Proofs.Group.Framing

/-!
# What secrets are hashed from

Seven kinds of scalars are hashed: three for keys, three for one-time coins and one for asset tags
(`HashedScalar`). One is hashed from a seed of any length, each of the others from a label or an index
next to the encoding of a key or of a shared secret. Which use it is can be told from the parts
(`HashUse.ofParts`), although not all of them start with a label: an encoding is longer than any label.
Within one use the parts determine what the scalar belongs to, and as the hashed bytes determine the
parts, no two of these scalars are hashed from the same bytes
(`HashedScalar.hashed_bytes_determine_scalar`).
-/

namespace ShieldedPayments

variable {F G : Type}

/-- A use that scalars are hashed for. -/
inductive HashUse where
  | seedKey
  | viewSecret
  | otaSecret
  | keyOffset
  | tagBlinder
  | maskOffset
  | amountOffset
  deriving DecidableEq, Repr

/-- A scalar that is hashed, by what it belongs to. -/
inductive HashedScalar (F G : Type) where
  /-- The private key of a seed. -/
  | seedKey (seed : Bytes)
  /-- The view secret of a private key. -/
  | viewSecret (key : PrivateKey F)
  /-- The one-time-address secret of a private key. -/
  | otaSecret (key : PrivateKey F)
  /-- The offset of a one-time key. -/
  | keyOffset (sharedSecret : G) (index : UInt32)
  /-- The blinder of an asset tag. -/
  | tagBlinder (sharedSecret : G)
  /-- What conceals the mask of a coin. -/
  | maskOffset (sharedSecret : G)
  /-- What conceals the amount of a coin. -/
  | amountOffset (sharedSecret : G)

namespace HashedScalar

/-- What a scalar is hashed for. -/
def use : HashedScalar F G → HashUse
  | seedKey _ => .seedKey
  | viewSecret _ => .viewSecret
  | otaSecret _ => .otaSecret
  | keyOffset _ _ => .keyOffset
  | tagBlinder _ => .tagBlinder
  | maskOffset _ => .maskOffset
  | amountOffset _ => .amountOffset

theorem exists_seed {s : HashedScalar F G} (h : s.use = .seedKey) : ∃ seed, s = seedKey seed := by
  cases s with
  | seedKey seed => exact ⟨seed, rfl⟩
  | _ => cases h

variable [ScalarField F] [PointGroup F G]

/-- The parts that a scalar is hashed from. -/
def parts : HashedScalar F G → List Bytes
  | seedKey seed => [seed]
  | viewSecret key => key.viewParts
  | otaSecret key => key.otaParts
  | keyOffset sharedSecret index => OneTimeKey.offsetParts (PointGroup.encode sharedSecret) index
  | tagBlinder sharedSecret => AssetTag.blinderParts sharedSecret
  | maskOffset sharedSecret => OneTimeCoin.maskParts sharedSecret
  | amountOffset sharedSecret => OneTimeCoin.amountParts sharedSecret

/-- The scalar, as wallets and coins compute it. -/
def scalar : HashedScalar F G → F
  | seedKey seed => (PrivateKey.ofSeed seed).secret
  | viewSecret key => key.privateView
  | otaSecret key => key.otaSecret
  | keyOffset sharedSecret index => OneTimeKey.offset sharedSecret index
  | tagBlinder sharedSecret => AssetTag.blinder sharedSecret
  | maskOffset sharedSecret => hashToScalar (OneTimeCoin.maskParts sharedSecret)
  | amountOffset sharedSecret => hashToScalar (OneTimeCoin.amountParts sharedSecret)

theorem scalar_eq (s : HashedScalar F G) : s.scalar = hashToScalar s.parts := by
  cases s <;> rfl

end HashedScalar

/-! ## Telling uses apart -/

namespace HashUse

/-- The use for which a list of parts is hashed. The labels come first: parts that start with none of
them start with the encoding of a shared secret. -/
def ofParts : List Bytes → Option HashUse
  | [_] => some .seedKey
  | [first, second] =>
    if first = Bytes.ascii "view" then some .viewSecret
    else if first = Bytes.ascii "ota" then some .otaSecret
    else if first = Bytes.ascii "mask" then some .maskOffset
    else if first = Bytes.ascii "amount" then some .amountOffset
    else if second = Bytes.ascii "assettag" then some .tagBlinder
    else some .keyOffset
  | _ => none

variable [ScalarField F] [PointGroup F G]

/-- No label is as long as the encoding of a point. -/
theorem encode_ne_label [PointGroup.Sized F G] (p : G) {label : Bytes}
    (h : label.length ≠ elementSize) : PointGroup.encode p ≠ label :=
  fun heq => h (heq ▸ PointGroup.Sized.length_encode p)

theorem ofParts_parts [PointGroup.Sized F G] (s : HashedScalar F G) :
    ofParts s.parts = some s.use := by
  have hother : ∀ (p : G) (second : Bytes), ofParts [PointGroup.encode p, second] =
      if second = Bytes.ascii "assettag" then some .tagBlinder else some .keyOffset := by
    intro p second
    rw [ofParts, if_neg (encode_ne_label p (by decide)), if_neg (encode_ne_label p (by decide)),
      if_neg (encode_ne_label p (by decide)), if_neg (encode_ne_label p (by decide))]
  cases s with
  | seedKey seed => rfl
  | viewSecret key => rfl
  | otaSecret key => rfl
  | keyOffset sharedSecret index =>
    have hindex : Bytes.ofNatBE 4 index.toNat ≠ Bytes.ascii "assettag" := by
      intro heq
      have hlength := congrArg List.length heq
      rw [Bytes.length_ofNatBE] at hlength
      exact absurd hlength (by decide)
    exact (hother sharedSecret _).trans (if_neg hindex)
  | tagBlinder sharedSecret => exact (hother sharedSecret _).trans (if_pos rfl)
  | maskOffset sharedSecret => rfl
  | amountOffset sharedSecret => rfl

end HashUse

/-! ## What a scalar is hashed from determines what it belongs to -/

section

variable [ScalarField F] [ScalarField.Canonical F]

theorem PrivateKey.toBytes_injective : Function.Injective (toBytes : PrivateKey F → Bytes) := by
  rintro ⟨secret⟩ ⟨secret'⟩ h
  obtain rfl : secret = secret' := ScalarField.encode_injective h
  rfl

end

theorem pair_inj {a b c d : Bytes} : [a, b] = [c, d] ↔ a = c ∧ b = d := by
  simp only [List.cons.injEq, and_true]

/-- An index is written in as many bytes as it has. -/
theorem ofNatBE_toNat_inj {i j : UInt32} : Bytes.ofNatBE 4 i.toNat = Bytes.ofNatBE 4 j.toNat ↔ i = j := by
  refine ⟨fun h => ?_, fun h => by rw [h]⟩
  have hi : i.toNat < 256 ^ 4 := i.toNat_lt
  have hj : j.toNat < 256 ^ 4 := j.toNat_lt
  have hread := congrArg Bytes.toNatBE h
  rw [Bytes.toNatBE_ofNatBE, Bytes.toNatBE_ofNatBE, Nat.mod_eq_of_lt hi, Nat.mod_eq_of_lt hj] at hread
  exact UInt32.toNat_inj.mp hread

namespace HashedScalar

variable [ScalarField F] [PointGroup F G] [ScalarField.Canonical F] [PointGroup.Canonical F G]
  {s t : HashedScalar F G}

theorem parts_inj : s.parts = t.parts ↔ s = t := by
  refine ⟨fun h => ?_, congrArg _⟩
  have huse : s.use = t.use := by
    apply Option.some.inj
    rw [← HashUse.ofParts_parts, h, HashUse.ofParts_parts]
  -- what is left is to compare two scalars of one use
  cases s with
  | seedKey seed =>
    cases t with
    | seedKey seed' => rw [List.singleton_inj.mp h]
    | _ => cases huse
  | viewSecret key =>
    cases t with
    | viewSecret key' => rw [PrivateKey.toBytes_injective (pair_inj.mp h).2]
    | _ => cases huse
  | otaSecret key =>
    cases t with
    | otaSecret key' => rw [PrivateKey.toBytes_injective (pair_inj.mp h).2]
    | _ => cases huse
  | keyOffset sharedSecret index =>
    cases t with
    | keyOffset sharedSecret' index' =>
      obtain ⟨hsecret, hindex⟩ := pair_inj.mp h
      rw [PointGroup.encode_injective hsecret, ofNatBE_toNat_inj.mp hindex]
    | _ => cases huse
  | tagBlinder sharedSecret =>
    cases t with
    | tagBlinder sharedSecret' => rw [PointGroup.encode_injective (pair_inj.mp h).1]
    | _ => cases huse
  | maskOffset sharedSecret =>
    cases t with
    | maskOffset sharedSecret' => rw [PointGroup.encode_injective (pair_inj.mp h).2]
    | _ => cases huse
  | amountOffset sharedSecret =>
    cases t with
    | amountOffset sharedSecret' => rw [PointGroup.encode_injective (pair_inj.mp h).2]
    | _ => cases huse

/-- What everything but a seed is hashed from is short. -/
theorem length_frames_lt (h : s.use ≠ .seedKey) : (s.parts.flatMap framedPart).length < 2 ^ 32 := by
  have hframes : ∀ {first second : Bytes}, first.length ≤ elementSize →
      second.length ≤ elementSize → ([first, second].flatMap framedPart).length < 2 ^ 32 := by
    intro first second hfirst hsecond
    rw [List.flatMap_cons, List.flatMap_singleton, List.length_append, length_framedPart,
      length_framedPart]
    unfold elementSize at hfirst hsecond
    omega
  have hscalar (key : PrivateKey F) := (ScalarField.Canonical.length_encode key.secret).le
  have hpoint (p : G) := (PointGroup.Canonical.length_encode p).le
  cases s with
  | seedKey seed => exact absurd rfl h
  | viewSecret key => exact hframes (by decide) (hscalar key)
  | otaSecret key => exact hframes (by decide) (hscalar key)
  | keyOffset sharedSecret index =>
    exact hframes (hpoint sharedSecret) ((Bytes.length_ofNatBE 4 index.toNat).trans_le (by decide))
  | tagBlinder sharedSecret => exact hframes (hpoint sharedSecret) (by decide)
  | maskOffset sharedSecret => exact hframes (by decide) (hpoint sharedSecret)
  | amountOffset sharedSecret => exact hframes (by decide) (hpoint sharedSecret)

/-- No two scalars are hashed from the same bytes, however long their seeds are. -/
theorem scalarHashInput_parts_inj : scalarHashInput s.parts = scalarHashInput t.parts ↔ s = t := by
  refine ⟨fun h => ?_, fun h => by rw [h]⟩
  by_cases hs : s.use = .seedKey
  · by_cases ht : t.use = .seedKey
    · obtain ⟨seed, rfl⟩ := exists_seed hs
      obtain ⟨seed', rfl⟩ := exists_seed ht
      rw [scalarHashInput_singleton_inj.mp h]
    · exact (parts_inj.mp ((scalarHashInput_inj_of_length (length_frames_lt ht)).mp h.symm)).symm
  · exact parts_inj.mp ((scalarHashInput_inj_of_length (length_frames_lt hs)).mp h)

/-- **The hashed bytes determine what a scalar belongs to.** Lists of parts with lengths of four bytes are
hashed from different bytes unless they are equal. The private keys of seeds of any length, the view and
one-time-address secrets of private keys, the offsets of one-time keys, the blinders of asset tags and what
conceals masks and amounts are the reductions of the digests of their inputs; no two of them have the same
input, neither for two uses nor for one. -/
theorem hashed_bytes_determine_scalar :
    (∀ ps qs : List Bytes, (∀ p ∈ ps, p.length < 2 ^ 32) → (∀ q ∈ qs, q.length < 2 ^ 32) →
      (scalarHashInput ps = scalarHashInput qs ↔ ps = qs)) ∧
    (∀ s : HashedScalar F G,
      s.scalar = ScalarField.ofUniform (Hash.Blake2b.digest (scalarHashInput s.parts))) ∧
    (∀ (coin concealed : OneTimeCoin F G) (publicView : G),
      coin.conceal publicView = .ok concealed →
      ∃ random : F, coin.sharedConcealRandom = some random ∧
        concealed.mask = coin.mask.map (· + (maskOffset (random • publicView)).scalar) ∧
        concealed.amount = coin.amount.map (· + (amountOffset (random • publicView)).scalar)) ∧
    ∀ s t : HashedScalar F G, scalarHashInput s.parts = scalarHashInput t.parts ↔ s = t := by
  refine ⟨fun _ _ => scalarHashInput_inj, scalar_eq, ?_, fun _ _ => scalarHashInput_parts_inj⟩
  intro coin concealed publicView h
  obtain ⟨random, hrandom, rfl⟩ := OneTimeCoin.concealedTo_of_conceal h
  exact ⟨random, hrandom, rfl, rfl⟩

open Curve (Scalar)

/-- A seed that continues as the input of the view secret of the key five does behind its first length. -/
def forgedSeed : Bytes :=
  Bytes.ascii "view" ++ framedPart (PrivateKey.mk (5 : Scalar)).toBytes

/-- A coin worth five before it is concealed. -/
def freshFive : OneTimeCoin Scalar Exponent :=
  OneTimeCoin.made ⟨⟨⟨2⟩, ⟨3⟩, some ⟨4⟩⟩, 5, []⟩ ⟨4⟩ ⟨6, 7, 8, 1⟩ none none

/-- A boundary between parts does not shift. The view secret of the key five, what conceals masks under the
point five, and the private key of the forged seed are hashed from 71 bytes each, and from different ones;
the mask of a coin is concealed with the secret that its sender and its recipient share. -/
theorem hashed_bytes_determine_scalar_five :
    let view : HashedScalar Scalar Exponent := .viewSecret ⟨5⟩
    let mask : HashedScalar Scalar Exponent := .maskOffset ⟨5⟩
    let forged : HashedScalar Scalar Exponent := .seedKey forgedSeed
    scalarHashInput [Bytes.ascii "ab", Bytes.ascii "c"] ≠
      scalarHashInput [Bytes.ascii "a", Bytes.ascii "bc"] ∧
    (∀ s ∈ [view, mask, forged], (scalarHashInput s.parts).length = 71) ∧
    scalarHashInput view.parts ≠ scalarHashInput mask.parts ∧
    scalarHashInput view.parts ≠ scalarHashInput forged.parts ∧
    ∃ concealed, freshFive.conceal ⟨3⟩ = .ok concealed ∧
      concealed.mask = some (8 + (maskOffset ⟨21⟩ : HashedScalar Scalar Exponent).scalar) := by
  intro view mask forged
  obtain ⟨hparts, -, hconceal, hinputs⟩ :=
    hashed_bytes_determine_scalar (F := Scalar) (G := Exponent)
  refine ⟨(hparts _ _ (by decide) (by decide)).not.mpr (by decide), by decide +kernel,
    (hinputs view mask).not.mpr nofun, (hinputs view forged).not.mpr nofun, ?_⟩
  obtain ⟨concealed, hconcealed⟩ := OneTimeCoin.exists_conceal
    ⟨⟨⟨2⟩, ⟨3⟩, some ⟨4⟩⟩, 5, []⟩ ⟨4⟩ ⟨6, 7, 8, 1⟩ none none (⟨3⟩ : Exponent)
  obtain ⟨random, hrandom, hmask, -⟩ := hconceal freshFive concealed ⟨3⟩ hconcealed
  obtain rfl := Option.some.inj hrandom
  exact ⟨concealed, hconcealed, hmask⟩

end HashedScalar

end ShieldedPayments
