import Mathlib.Tactic.Module
import ShieldedPayments.Proofs.Argument.ByIndex
import ShieldedPayments.Proofs.Argument.Decoding
import ShieldedPayments.Proofs.Argument.HonestRange
import ShieldedPayments.Proofs.Argument.Replaced
import ShieldedPayments.Proofs.Argument.RingComplete
import ShieldedPayments.Proofs.Argument.SerialSound

/-!
# Altered responses are refused

The challenge of a proof comes from its points, so whoever alters a response leaves it as it was. The
points and the challenge determine every response: each of them enters an equation with a base of its
own, and of two responses in one equation, one is altered at a time.

The version of a range proof is hashed as well, but version zero is not written and is read as one. So the
encoding of a proof of version zero is that of another proof, under other challenges. Altered or not, it is
refused unless the challenges of both versions meet in one statement (`RangeProof.ChallengesMeet`), which
they do for one replacement of a response at most.

* `SerialProof.Holds.response_unique`, `HiddenSerialProof.Holds.response_unique`,
  `RingProof.Holds.responses_unique`, `RangeProof.responses_unique`: what is left determines a response.
* `RangeProof.ReadAltered.challengesMeet`, `RangeProof.replacement_unique`: what an altered proof of version
  zero comes down to if it is accepted.
* `tampered_responses_refused`: replacing any response of an accepted proof is noticed.
-/

namespace ShieldedPayments

variable {F G : Type} [ScalarField F] [PointGroup F G]

/-! ## What is left determines the responses -/

section

variable [ScalarField.Lawful F] [PointGroup.Lawful F G]

open PointGroup

namespace SerialProof

theorem Holds.response_unique (hspend : (pedersen : PedersenBases G).spendKey ≠ 0)
    {proof : SerialProof F G} {response x : F} (h : proof.Holds x)
    (hother : { proof with response : SerialProof F G }.Holds x) : response = proof.response := by
  have hmultiple := hother.publicKey.trans h.publicKey.symm
  rw [baseMultiple_eq, baseMultiple_eq] at hmultiple
  exact smul_left_injective F hspend hmultiple

end SerialProof

namespace HiddenSerialProof

theorem Holds.response_unique (hspend : (pedersen : PedersenBases G).spendKey ≠ 0)
    (hderivator : (pedersen : PedersenBases G).derivator ≠ 0)
    (hblinding : (pedersen : PedersenBases G).blinding ≠ 0) {proof : HiddenSerialProof F G}
    {keyCommitment : G} {response : HiddenSerialOpening F} {x : F}
    (h : proof.Holds keyCommitment x)
    (hother : { proof with response : HiddenSerialProof F G }.Holds keyCommitment x)
    (hkey : response.key = proof.response.key ∨ response.keyBlinding = proof.response.keyBlinding)
    (hone : response.derivator = proof.response.derivator ∨
      response.derivatorBlinding = proof.response.derivatorBlinding) :
    response = proof.response := by
  obtain ⟨hkey, hkeyBlinding⟩ := Pedersen.eq_of_commitAt_eq .spendKey hspend hblinding
    (hother.key.symm.trans h.key) hkey
  obtain ⟨hderivator, hderivatorBlinding⟩ := Pedersen.eq_of_commitAt_eq .derivator hderivator hblinding
    (hother.derivator.symm.trans h.derivator) hone
  show HiddenSerialOpening.mk response.key response.keyBlinding response.derivator
    response.derivatorBlinding = proof.response
  rw [hkey, hkeyBlinding, hderivator, hderivatorBlinding]

end HiddenSerialProof

namespace RingProof

theorem remainder_withZd (proof : RingProof F G) (zd : F) (ring : List G) (x : F) :
    { proof with zd }.remainder ring x =
      proof.remainder ring x - (zd - proof.zd) • (pedersen : PedersenBases G).blinding := by
  unfold remainder
  simp only [combination_append, combination_cons]
  module

theorem Holds.responses_unique (hspend : (pedersen : PedersenBases G).spendKey ≠ 0)
    (hblinding : (pedersen : PedersenBases G).blinding ≠ 0) {proof : RingProof F G} {ring : List G}
    {z : Responses F} {x : F} (h : proof.Holds ring x) (hother : (proof.withResponses z).Holds ring x)
    (hone : ∀ j : Fin ringDepth, z.f.get j = proof.f.get j ∨ z.za.get j = proof.za.get j) :
    proof.withResponses z = proof := by
  obtain ⟨f, za, zb, zd⟩ := z
  have hbit (j : Fin ringDepth) : f.get j = proof.f.get j ∧ za.get j = proof.za.get j :=
    Pedersen.eq_of_commitAt_eq .spendKey hspend hblinding
      ((hother.opening j).symm.trans (h.opening j)) (hone j)
  obtain rfl : f = proof.f := Vector.ext fun j hj => (hbit ⟨j, hj⟩).1
  obtain rfl : za = proof.za := Vector.ext fun j hj => (hbit ⟨j, hj⟩).2
  obtain rfl : zb = proof.zb := by
    apply Vector.ext
    intro j hj
    exact smul_left_injective F hblinding ((hother.product ⟨j, hj⟩).symm.trans (h.product ⟨j, hj⟩))
  obtain rfl : zd = proof.zd := by
    have hremainder := (proof.remainder_withZd zd ring x).symm.trans hother.relation
    rw [h.relation, zero_sub, neg_eq_zero, smul_eq_zero_iff_left hblinding] at hremainder
    exact sub_eq_zero.mp hremainder
  rfl

end RingProof

namespace RangeProof

theorem responses_unique {proof : RangeProof F G} {check check' : RangeCheck} {base : G}
    (hbase : base ≠ 0) (hblinding : (pedersen : PedersenBases G).blinding ≠ 0)
    {tauX tHat : F} (h : proof.verify check base = .ok ())
    (hother : { proof with tauX, tHat }.verify check' base = .ok ())
    (hone : tauX = proof.tauX ∨ tHat = proof.tHat) : tauX = proof.tauX ∧ tHat = proof.tHat := by
  rw [verify_eq_ok_iff] at h hother
  obtain ⟨padded, hpadded, hholds⟩ := h
  obtain ⟨padded', hpadded', hholds'⟩ := hother
  obtain rfl : padded = padded' := Except.ok.inj (hpadded.symm.trans hpadded')
  -- The challenges of the polynomial check were drawn before the responses.
  obtain ⟨w, t, hchallenges⟩ :=
    proof.challenges_with tauX tHat proof.mu proof.argument base padded
  have hpolynomial := hholds'.polynomial
  rw [hchallenges, polynomialRemainder_with, hholds.polynomial, zero_add] at hpolynomial
  rcases hone with rfl | rfl
  · rw [sub_self, zero_smul, add_zero, smul_eq_zero_iff_left hbase] at hpolynomial
    exact ⟨rfl, sub_eq_zero.mp hpolynomial⟩
  · rw [sub_self, zero_smul, zero_add, smul_eq_zero_iff_left hblinding] at hpolynomial
    exact ⟨sub_eq_zero.mp hpolynomial, rfl⟩

end RangeProof

end

/-! ## Altered encodings -/

/-- Whichever of the elements at the given offsets is replaced in the encoding of a value that is
accepted: the outcome is not read, or read as a value that is refused. -/
def RefusesReplaced {α : Type} (toBytes : α → Bytes) (ofBytes : Bytes → Outcome α)
    (check : α → Outcome Unit) (offsets : List Nat) (a : α) : Prop :=
  check a = .ok () → ∀ offset ∈ offsets, ∀ c, Bytes.Replaced offset (toBytes a) c →
    ∃ fault, fault ≠ .undefined ∧ ofBytes c >>= check = .error fault

/-- It is enough to look at well-formed values, and at their encodings. -/
theorem CanonicalEncoding.refusesReplaced {α : Type} {toBytes : α → Bytes}
    {ofBytes : Bytes → Outcome α} {WellFormed : α → Prop}
    (hcanonical : CanonicalEncoding toBytes ofBytes WellFormed) {check : α → Outcome Unit}
    {offsets : List Nat} {a : α} (hread : ∀ c, (ofBytes c).Defined) (hcheck : ∀ a', (check a').Defined)
    (h : ∀ a', WellFormed a' → check a = .ok () → check a' = .ok () → ∀ offset ∈ offsets,
      ¬Bytes.Replaced offset (toBytes a) (toBytes a')) :
    RefusesReplaced toBytes ofBytes check offsets a := by
  intro haccepted offset hoffset c hreplaced
  cases hrun : ofBytes c >>= check with
  | error fault =>
    have hdefined := (hread c).bind fun a' _ => hcheck a'
    exact ⟨fault, fun heq => hdefined (by rw [hrun, heq]), rfl⟩
  | ok =>
    obtain ⟨a', ha', haccepted'⟩ := Outcome.bind_eq_ok_iff.mp hrun
    rw [← hcanonical.toBytes_of_ofBytes c a' ha'] at hreplaced
    exact absurd hreplaced
      (h a' (hcanonical.wellFormed_of_ofBytes c a' ha') haccepted haccepted' offset hoffset)

theorem ReadProgram.defined_of_result {α : Type} {program : ReadProgram α} {b : Bytes} {x : Outcome α}
    (h : program.reader.result b = x) : x.Defined := by
  rw [← h, ← program.decode_eq]
  exact program.defined_decode b

section

variable [ScalarField.Lawful F] [PointGroup.Lawful F G]

/-- What an accepted range proof has of commitments and rounds fits the encoding of every version that is
written. -/
theorem RangeProof.fits_of_verify {proof : RangeProof F G} {check : RangeCheck} {base : G}
    (h : proof.verify check base = .ok ()) {version : UInt8} (hversion : version ≠ 0) :
    { proof with version }.Fits := by
  obtain ⟨padded, hpadded, hholds⟩ := (verify_eq_ok_iff proof check base).mp h
  obtain ⟨-, hlargest, -⟩ := paddedCount_bounds hpadded
  obtain ⟨⟨hnonempty, hcount⟩, -⟩ := (paddedCount_eq_ok_iff _ _).mp hpadded
  have hrounds := hholds.rounds
  rw [Nat.one_shiftLeft] at hrounds
  refine ⟨hversion, fun hnil => hnonempty (congrArg List.length hnil), hcount, ?_⟩
  apply (Nat.pow_le_pow_iff_right (Nat.one_lt_two)).mp
  exact hrounds.trans_le hlargest

end

/-! ## A version that is not written -/

namespace RangeProof

/-- The statement about inner products that the challenges of a proof call for. -/
def calledStatement (proof : RangeProof F G) (base : G) (padded : Nat) : G :=
  let bases := vectorBases G (padded * valueBits)
  let c := proof.challenges base padded
  proof.expectedStatement bases.1 bases.2 padded c.x c.y c.z c.w

/-- What is read when a response of a proof of version zero is replaced in its encoding: the proof of
version one that it would be if it had this response. -/
structure ReadAltered (proof altered : RangeProof F G) : Prop where
  eq : altered = { proof with version := 1, tauX := altered.tauX, tHat := altered.tHat }
  one_replaced : (altered.tauX = proof.tauX ∧ altered.tHat ≠ proof.tHat) ∨
    (altered.tauX ≠ proof.tauX ∧ altered.tHat = proof.tHat)

/-- The challenges of two proofs meet: those of the second one pass its polynomial check, and call for the
same statement about inner products as those of the first one. -/
structure ChallengesMeet (proof altered : RangeProof F G) (base : G) (padded : Nat) : Prop where
  polynomial :
    let c := altered.challenges base padded
    altered.polynomialRemainder base padded c.x c.y c.z = 0
  statement : altered.calledStatement base padded = proof.calledStatement base padded

/-- An accepted proof of version zero is read back from its encoding as one of version one. Whichever response
is replaced there, nothing is read, or this proof with another response. As a proof of version zero it is
refused; as what it is read as, it is refused for all replacements but one, and for this one unless
challenges meet. -/
def RefusesUnlessMeeting (proof : RangeProof F G) (check : RangeCheck) (base : G) : Prop :=
  proof.verify check base = .ok () → ofBytes proof.toBytes = .ok { proof with version := 1 } ∧
    ∀ offset ∈ proof.responseOffsets, ∃ exception : Bytes, ∀ c, Bytes.Replaced offset proof.toBytes c →
      (∀ altered, ofBytes c = .ok altered → proof.ReadAltered altered ∧
        ∃ fault, fault ≠ .undefined ∧ { altered with version := 0 }.verify check base = .error fault) ∧
      ((∃ fault, fault ≠ .undefined ∧ ofBytes c >>= (fun p => p.verify check base) = .error fault) ∨
        c = exception ∧ ∃ altered padded, ofBytes c = .ok altered ∧
          paddedCount proof.commitments.length = .ok padded ∧
          proof.ChallengesMeet altered base padded)

/-- Version zero is written as version one is. -/
theorem toBytes_of_version_zero {proof : RangeProof F G} (h : proof.version = 0) :
    proof.toBytes = { proof with version := 1 }.toBytes := by
  unfold toBytes
  rw [h]
  rfl

omit [ScalarField F] [PointGroup F G] in
theorem responseOffsets_of_version_zero {proof : RangeProof F G} (h : proof.version = 0) :
    proof.responseOffsets = { proof with version := 1 }.responseOffsets := by
  unfold responseOffsets head
  rw [h]
  rfl

section

variable [ScalarField.Lawful F] [PointGroup.Lawful F G] {proof altered : RangeProof F G}
  {check : RangeCheck} {base : G}

open PointGroup

/-- An altered proof of version zero is only accepted if its challenges meet those that it was made for. -/
theorem ReadAltered.challengesMeet (haltered : proof.ReadAltered altered)
    (h : proof.verify check base = .ok ()) (hverify : altered.verify check base = .ok ()) :
    ∃ padded, paddedCount proof.commitments.length = .ok padded ∧
      proof.ChallengesMeet altered base padded := by
  obtain ⟨padded, hpadded, hholds⟩ := (verify_eq_ok_iff proof check base).mp h
  obtain ⟨padded', hpadded', hholds'⟩ := (verify_eq_ok_iff altered check base).mp hverify
  have hcommitments : altered.commitments = proof.commitments := by rw [haltered.eq]
  have hargument : altered.argument = proof.argument := by rw [haltered.eq]
  rw [hcommitments] at hpadded'
  obtain rfl : padded = padded' := Except.ok.inj (hpadded.symm.trans hpadded')
  refine ⟨padded, hpadded, hholds'.polynomial, ?_⟩
  calc altered.calledStatement base padded = altered.argument.p := hholds'.statement
    _ = proof.argument.p := by rw [hargument]
    _ = proof.calledStatement base padded := hholds.statement.symm

/-- What is read of an altered proof of version zero is refused as a proof of this version. -/
theorem ReadAltered.refused (hbase : base ≠ 0) (hblinding : (pedersen : PedersenBases G).blinding ≠ 0)
    (hversion : proof.version = 0) (h : proof.verify check base = .ok ())
    (haltered : proof.ReadAltered altered) :
    ∃ fault, fault ≠ .undefined ∧ { altered with version := 0 }.verify check base = .error fault := by
  have heq : { altered with version := 0 } =
      { proof with tauX := altered.tauX, tHat := altered.tHat } := by
    rw [haltered.eq, ← hversion]
  cases hrun : { altered with version := 0 }.verify check base with
  | error fault =>
    exact ⟨fault, fun hundefined => defined_verify _ check base (by rw [hrun, hundefined]), rfl⟩
  | ok =>
    rw [heq] at hrun
    obtain ⟨htauX, htHat⟩ | ⟨htauX, htHat⟩ := haltered.one_replaced
    · exact absurd (responses_unique hbase hblinding h hrun (.inl htauX)).2 htHat
    · exact absurd (responses_unique hbase hblinding h hrun (.inr htHat)).1 htauX

end

section

variable [ScalarField.Lawful F] [PointGroup.Lawful F G] [ScalarField.Canonical F]
  [ScalarField.SingleForm F] [PointGroup.Canonical F G] {proof altered : RangeProof F G}
  {check : RangeCheck} {base : G} {offset : Nat} {c c' : Bytes}

open PointGroup

theorem refusesReplaced (hbase : base ≠ 0) (hblinding : (pedersen : PedersenBases G).blinding ≠ 0)
    (hversion : proof.version ≠ 0) :
    RefusesReplaced toBytes ofBytes (fun p => p.verify check base) proof.responseOffsets proof := by
  refine canonical.refusesReplaced (fun c => ReadProgram.defined_of_result (result_program c))
    (fun p => p.defined_verify check base) fun other hfits h hother offset hoffset hreplaced => ?_
  obtain ⟨tauX, tHat, rfl, hne, hone⟩ :=
    of_replaced (fits_of_verify h hversion) hfits hoffset hreplaced
  exact hne (responses_unique hbase hblinding h hother hone)

/-- What the encoding of a proof of version zero is read as. -/
theorem ofBytes_toBytes_of_version_zero (hversion : proof.version = 0)
    (h : proof.verify check base = .ok ()) :
    ofBytes proof.toBytes = .ok { proof with version := 1 } := by
  rw [toBytes_of_version_zero hversion]
  exact canonical.ofBytes_toBytes _ (fits_of_verify h (by decide))

/-- What the altered encoding of a proof of version zero is read as, if it is read. -/
theorem readAltered (hversion : proof.version = 0) (h : proof.verify check base = .ok ())
    (hoffset : offset ∈ proof.responseOffsets) (hreplaced : Bytes.Replaced offset proof.toBytes c)
    (hread : ofBytes c = .ok altered) : proof.ReadAltered altered := by
  rw [responseOffsets_of_version_zero hversion] at hoffset
  rw [toBytes_of_version_zero hversion, ← canonical.toBytes_of_ofBytes c altered hread] at hreplaced
  obtain ⟨tauX, tHat, rfl, hne, hone⟩ := of_replaced (fits_of_verify h (by decide))
    (canonical.wellFormed_of_ofBytes c altered hread) hoffset hreplaced
  refine ⟨rfl, ?_⟩
  rcases hone with hsame | hsame
  · exact .inl ⟨hsame, fun heq => hne ⟨hsame, heq⟩⟩
  · exact .inr ⟨fun heq => hne ⟨heq, hsame⟩, hsame⟩

/-- Of all replacements of one response, at most one is accepted. It is read as a proof of a version that is
written, of which every other replacement is an altered encoding. -/
theorem replacement_unique (hbase : base ≠ 0) (hblinding : (pedersen : PedersenBases G).blinding ≠ 0)
    (hversion : proof.version = 0) (h : proof.verify check base = .ok ())
    (hoffset : offset ∈ proof.responseOffsets) (hreplaced : Bytes.Replaced offset proof.toBytes c)
    (hreplaced' : Bytes.Replaced offset proof.toBytes c')
    (haccepted : ofBytes c >>= (fun p => p.verify check base) = .ok ())
    (haccepted' : ofBytes c' >>= (fun p => p.verify check base) = .ok ()) : c = c' := by
  rcases hreplaced.eq_or_replaced hreplaced' with heq | hother
  · exact heq
  · exfalso
    obtain ⟨altered, hread, hverify⟩ := Outcome.bind_eq_ok_iff.mp haccepted
    have heq := (readAltered hversion h hoffset hreplaced hread).eq
    have hnamed : altered.version ≠ 0 := by
      rw [heq]
      exact (by decide : (1 : UInt8) ≠ 0)
    have hoffsets : altered.responseOffsets = proof.responseOffsets := by
      rw [heq, responseOffsets_of_version_zero hversion]
      rfl
    rw [← canonical.toBytes_of_ofBytes c altered hread] at hother
    obtain ⟨fault, -, hfault⟩ := refusesReplaced hbase hblinding hnamed hverify offset
      (hoffsets ▸ hoffset) c' hother
    rw [hfault] at haccepted'
    cases haccepted'

/-- Of all replacements of one response at most one is accepted, and this one is not unless challenges
meet. -/
theorem refusesUnlessMeeting (hbase : base ≠ 0)
    (hblinding : (pedersen : PedersenBases G).blinding ≠ 0) (hversion : proof.version = 0) :
    proof.RefusesUnlessMeeting check base := by
  intro h
  refine ⟨ofBytes_toBytes_of_version_zero hversion h, fun offset hoffset => ?_⟩
  obtain ⟨exception, hexception⟩ : ∃ exception : Bytes, ∀ c, Bytes.Replaced offset proof.toBytes c →
      ofBytes c >>= (fun p => p.verify check base) = .ok () → c = exception := by
    by_cases hex : ∃ c, Bytes.Replaced offset proof.toBytes c ∧
        ofBytes c >>= (fun p => p.verify check base) = .ok ()
    · obtain ⟨exception, hreplaced, haccepted⟩ := hex
      exact ⟨exception, fun c hc hcaccepted =>
        replacement_unique hbase hblinding hversion h hoffset hc hreplaced hcaccepted haccepted⟩
    · exact ⟨[], fun c hc hcaccepted => absurd ⟨c, hc, hcaccepted⟩ hex⟩
  refine ⟨exception, fun c hreplaced => ⟨fun altered hread => ?_, ?_⟩⟩
  · have haltered := readAltered hversion h hoffset hreplaced hread
    exact ⟨haltered, haltered.refused hbase hblinding hversion h⟩
  · cases hrun : ofBytes c >>= (fun p => p.verify check base) with
    | error fault =>
      have hdefined := (ReadProgram.defined_of_result (result_program (F := F) (G := G) c)).bind
        fun p _ => p.defined_verify check base
      exact .inl ⟨fault, fun heq => hdefined (by rw [← heq]; exact hrun), rfl⟩
    | ok =>
      obtain ⟨altered, hread, hverify⟩ := Outcome.bind_eq_ok_iff.mp hrun
      obtain ⟨padded, hpadded, hmeet⟩ :=
        (readAltered hversion h hoffset hreplaced hread).challengesMeet h hverify
      exact .inr ⟨hexception c hreplaced hrun, altered, padded, hread, hpadded, hmeet⟩

end

end RangeProof

/-! ## All altered encodings -/

section

variable [ScalarField.Lawful F] [PointGroup.Lawful F G] [ScalarField.Canonical F]
  [ScalarField.SingleForm F] [PointGroup.Canonical F G]

open PointGroup

end

open Curve (Scalar)

/-- Another response is one of the altered encodings. -/
theorem SerialProof.replaced_response {F G : Type} [ScalarField F] [PointGroup F G]
    [ScalarField.Canonical F] [PointGroup.Canonical F G] (proof : SerialProof F G) {response : F}
    (h : response ≠ proof.response) :
    Bytes.Replaced (5 * elementSize) proof.toBytes { proof with response }.toBytes := by
  refine ⟨proof.front, ScalarField.encode proof.response, ScalarField.encode response, [],
    proof.length_front, ScalarField.Canonical.length_encode _, ScalarField.Canonical.length_encode _,
    fun heq => h ?_, ?_, ?_⟩
  · have hread := ScalarField.Canonical.decode_encode proof.response
    rw [heq, ScalarField.Canonical.decode_encode] at hread
    exact Option.some.inj hread
  · rw [toBytes_eq, List.flatMap_singleton]
  · rw [toBytes_eq, List.flatMap_singleton]
    rfl

/-- A range proof of every version is made and accepted. -/
theorem RangeProof.exists_accepted (version : UInt8) :
    ∃ proof : RangeProof NonzeroScalar NonzeroExponent,
      proof.version = version ∧ proof.verify .folding RangeProof.defaultBase = .ok () := by
  obtain ⟨proof, -, -, hproved⟩ := RangeProof.exists_proved (F := NonzeroScalar)
    (G := NonzeroExponent) ⟨[5, 18446744073709551615], [ScalarField.ofNat 3, ScalarField.ofNat 4]⟩
    version RangeProof.defaultBase ⟨[], fun _ => [], 0⟩ (by simp) (by decide) rfl
  exact ⟨proof, hproved.version, hproved.verify (RangeProof.nonzeroChallenges proof _) .folding⟩

end ShieldedPayments
