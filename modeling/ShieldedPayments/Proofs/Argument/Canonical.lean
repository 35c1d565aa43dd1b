import ShieldedPayments.Proofs.Argument.Codec
import ShieldedPayments.Proofs.Consumed
import ShieldedPayments.Proofs.Group.Exponents

/-!
# Arguments have one encoding each

An encoding is canonical for a kind of argument if well-formed ones are read back as they were written,
and whatever is read is well formed and written as it was read (`CanonicalEncoding`). For the arguments
of fixed size this follows from the fields alone; an inner-product argument has a count that decides how
much is read, and a range proof a version that only a zero byte announces.

* `SerialProof.toBytes_of_ofBytes` and the like: what was read is written as it was read.
* `RangeProof.head_of_ofBytes`: the first byte tells the layout with a version from the one without.
* `argument_encodings_canonical`: all of it, for the five kinds of arguments.
-/

namespace ShieldedPayments

/-- Writing and reading are inverse to each other, between the well-formed values and the byte strings
that are accepted; so no two byte strings are read as the same value. -/
structure CanonicalEncoding {α : Type} (toBytes : α → Bytes) (ofBytes : Bytes → Outcome α)
    (WellFormed : α → Prop) : Prop where
  ofBytes_toBytes : ∀ a, WellFormed a → ofBytes (toBytes a) = .ok a
  wellFormed_of_ofBytes : ∀ b a, ofBytes b = .ok a → WellFormed a
  toBytes_of_ofBytes : ∀ b a, ofBytes b = .ok a → toBytes a = b
  ofBytes_inj : ∀ b c a, ofBytes b = .ok a → ofBytes c = .ok a → b = c

/-- The last part follows from the one before. -/
theorem canonicalEncoding_of_inverse {α : Type} {toBytes : α → Bytes} {ofBytes : Bytes → Outcome α}
    {WellFormed : α → Prop} (hread : ∀ a, WellFormed a → ofBytes (toBytes a) = .ok a)
    (hformed : ∀ b a, ofBytes b = .ok a → WellFormed a)
    (hwritten : ∀ b a, ofBytes b = .ok a → toBytes a = b) :
    CanonicalEncoding toBytes ofBytes WellFormed := by
  refine ⟨hread, hformed, hwritten, fun b c a hb hc => ?_⟩
  rw [← hwritten b a hb, hwritten c a hc]

variable {F G : Type} [ScalarField F] [PointGroup F G] [ScalarField.Canonical F]
  [ScalarField.SingleForm F] [PointGroup.Canonical F G]

/-! ## Arguments of fixed size -/

namespace RingProof

omit [ScalarField F] [PointGroup F G] [ScalarField.Canonical F] [ScalarField.SingleForm F]
  [PointGroup.Canonical F G] in
theorem consumes_perBit {α : Type} {r : Reader α} {item : α → Bytes}
    (hr : r.Consumes fun c a => c = item a) :
    (perBit r).Consumes fun c v => c = v.toList.flatMap item := by
  refine hr.bind fun _ a ha => hr.bind fun _ b hb => hr.bind_pure fun _ c hc => ?_
  rw [ha, hb, hc]
  show _ = [a, b, c].flatMap item
  rw [List.flatMap_cons, List.flatMap_cons, List.flatMap_cons, List.flatMap_nil, List.append_nil]

theorem toBytes_of_ofBytes {b : Bytes} {proof : RingProof F G} (h : ofBytes b = .ok proof) :
    proof.toBytes = b := by
  have hconsumes : (reader : Reader (RingProof F G)).Consumes fun c proof => c = proof.toBytes := by
    refine (consumes_perBit Reader.consumes_point).bind fun _ cl hcl => ?_
    refine (consumes_perBit Reader.consumes_point).bind fun _ ca hca => ?_
    refine (consumes_perBit Reader.consumes_point).bind fun _ cb hcb => ?_
    refine (consumes_perBit Reader.consumes_point).bind fun _ cd hcd => ?_
    refine (consumes_perBit Reader.consumes_scalar).bind fun _ f hf => ?_
    refine (consumes_perBit Reader.consumes_scalar).bind fun _ za hza => ?_
    refine (consumes_perBit Reader.consumes_scalar).bind fun _ zb hzb => ?_
    refine Reader.consumes_scalar.bind_pure fun _ zd hzd => ?_
    simp only [toBytes, hcl, hca, hcb, hcd, hf, hza, hzb, hzd, List.append_assoc]
  rw [ofBytes, ensure_bind_eq_ok_iff, beq_iff_eq] at h
  exact hconsumes.result_of_length (h.1.trans (length_toBytes proof).symm) h.2

theorem canonical :
    CanonicalEncoding toBytes (ofBytes : Bytes → Outcome (RingProof F G)) fun _ => True :=
  canonicalEncoding_of_inverse (fun proof _ => ofBytes_toBytes proof) (fun _ _ _ => trivial)
    fun _ _ => toBytes_of_ofBytes

end RingProof

namespace SerialProof

theorem toBytes_of_ofBytes {b : Bytes} {proof : SerialProof F G} (h : ofBytes b = .ok proof) :
    proof.toBytes = b := by
  have hconsumes : (reader : Reader (SerialProof F G)).Consumes fun c proof => c = proof.toBytes := by
    refine Reader.consumes_point.bind fun _ serial hserial => ?_
    refine Reader.consumes_point.bind fun _ publicKey hpublicKey => ?_
    refine Reader.consumes_scalar.bind fun _ derivator hderivator => ?_
    refine Reader.consumes_point.bind fun _ keyMask hkeyMask => ?_
    refine Reader.consumes_point.bind fun _ serialMask hserialMask => ?_
    refine Reader.consumes_scalar.bind_pure fun _ response hresponse => ?_
    simp only [toBytes, hserial, hpublicKey, hderivator, hkeyMask, hserialMask, hresponse,
      List.append_assoc]
  rw [ofBytes, ensure_bind_eq_ok_iff, beq_iff_eq] at h
  exact hconsumes.result_of_length (h.1.trans (length_toBytes proof).symm) h.2

theorem canonical :
    CanonicalEncoding toBytes (ofBytes : Bytes → Outcome (SerialProof F G)) fun _ => True :=
  canonicalEncoding_of_inverse (fun proof _ => ofBytes_toBytes proof) (fun _ _ _ => trivial)
    fun _ _ => toBytes_of_ofBytes

end SerialProof

namespace HiddenSerialProof

theorem toBytes_of_ofBytes {b : Bytes} {proof : HiddenSerialProof F G} (h : ofBytes b = .ok proof) :
    proof.toBytes = b := by
  have hconsumes : (reader : Reader (HiddenSerialProof F G)).Consumes fun c proof =>
      c = proof.toBytes := by
    refine Reader.consumes_point.bind fun _ serial hserial => ?_
    refine Reader.consumes_point.bind fun _ derivatorCommitment hcommitment => ?_
    refine Reader.consumes_point.bind fun _ keyMask hkeyMask => ?_
    refine Reader.consumes_point.bind fun _ derivatorMask hderivatorMask => ?_
    refine Reader.consumes_point.bind fun _ serialMask hserialMask => ?_
    refine Reader.consumes_scalar.bind fun _ key hkey => ?_
    refine Reader.consumes_scalar.bind fun _ keyBlinding hkeyBlinding => ?_
    refine Reader.consumes_scalar.bind fun _ derivator hderivator => ?_
    refine Reader.consumes_scalar.bind_pure fun _ derivatorBlinding hderivatorBlinding => ?_
    simp only [toBytes, hserial, hcommitment, hkeyMask, hderivatorMask, hserialMask, hkey,
      hkeyBlinding, hderivator, hderivatorBlinding, List.append_assoc]
  rw [ofBytes, ensure_bind_eq_ok_iff, beq_iff_eq] at h
  exact hconsumes.result_of_length (h.1.trans (length_toBytes proof).symm) h.2

theorem canonical :
    CanonicalEncoding toBytes (ofBytes : Bytes → Outcome (HiddenSerialProof F G)) fun _ => True :=
  canonicalEncoding_of_inverse (fun proof _ => ofBytes_toBytes proof) (fun _ _ _ => trivial)
    fun _ _ => toBytes_of_ofBytes

end HiddenSerialProof

/-! ## Inner-product arguments -/

namespace InnerProductProof

omit [ScalarField.Canonical F] in
theorem consumes_reader :
    (reader : Reader (InnerProductProof F G)).Consumes fun c proof =>
      proof.rounds.length ≤ maxRounds ∧ c = proof.toBytes := by
  have hround : (roundReader : Reader (G × G)).Consumes fun c round =>
      c = PointGroup.encode round.1 ++ PointGroup.encode round.2 := by
    refine Reader.consumes_point.bind fun _ l hl => ?_
    refine Reader.consumes_point.bind_pure fun _ r hr => ?_
    rw [hl, hr]
  refine Reader.consumes_byte.bind fun _ count hcount => ?_
  simp only
  split
  · exact Reader.consumes_throw_bind _ _
  · next hle =>
    refine (Reader.consumes_times hround _).bind ?_
    rintro _ rounds ⟨hlength, hrounds⟩
    refine Reader.consumes_scalar.bind fun _ a ha => ?_
    refine Reader.consumes_scalar.bind fun _ b hb => ?_
    refine Reader.consumes_point.bind_pure fun _ p hp => ?_
    -- The count that was read is that of the rounds, so it is what is written.
    have hwritten : Writer.count rounds.length = [count] := by
      rw [Writer.count, hlength, Nat.toUInt8_eq, UInt8.ofNat_toNat]
    refine ⟨by simp only; omega, ?_⟩
    simp only [toBytes, Writer.counted, hwritten, hcount, hrounds, ha, hb, hp, List.append_assoc]

theorem canonical :
    CanonicalEncoding toBytes (ofBytes : Bytes → Outcome (InnerProductProof F G)) fun proof =>
      proof.rounds.length ≤ maxRounds := by
  have hall : ∀ b (proof : InnerProductProof F G), ofBytes b = .ok proof →
      proof.rounds.length ≤ maxRounds ∧ b = proof.toBytes := by
    intro b proof h
    have hconsumes := consumes_reader.bind_all (Q := fun c (proof : InnerProductProof F G) =>
        proof.rounds.length ≤ maxRounds ∧ c = proof.toBytes) fun c proof hproof =>
      Reader.consumesAll_finish (by rwa [List.append_nil])
    exact hconsumes.result h
  refine canonicalEncoding_of_inverse (fun proof hle => ?_) (fun b proof h => (hall b proof h).1)
    fun b proof h => (hall b proof h).2.symm
  exact ((reads_reader hle).bind_finish id).result_eq

end InnerProductProof

/-! ## Range proofs -/

namespace RangeProof

omit [ScalarField F] [PointGroup F G] [ScalarField.Canonical F] [ScalarField.SingleForm F]
  [PointGroup.Canonical F G] in
/-- A version that is named is not the first, so the bytes of the head tell version and count. -/
theorem consumes_headReader :
    headReader.Consumes fun c head => c = versionBytes head.1 ++ Writer.count head.2 := by
  have hcount : ∀ x : UInt8, Writer.count x.toNat = [x] := by
    intro x
    rw [Writer.count, Nat.toUInt8_eq, UInt8.ofNat_toNat]
  refine Reader.consumes_byte.bind fun _ first hfirst => ?_
  split
  · refine Reader.consumes_pure ?_
    rw [hfirst, hcount]
    rfl
  · next hzero =>
    refine Reader.consumes_byte.bind fun _ version hversion => ?_
    simp only
    split
    · exact Reader.consumes_throw_bind _ _
    · next hnamed =>
      refine Reader.consumes_byte.bind_pure fun _ x hx => ?_
      rw [hfirst, hversion, hx, hcount, versionBytes, if_pos (UInt8.not_lt.mp hnamed),
        not_not.mp hzero]
      rfl

omit [ScalarField.Canonical F] in
theorem consumesAll_reader :
    (reader : Reader (RangeProof F G)).ConsumesAll fun b proof => b = proof.toBytes := by
  refine consumes_headReader.bind_all ?_
  rintro _ ⟨version, count⟩ hhead
  simp only
  split
  · exact Reader.consumesAll_throw_bind _ _
  · refine (Reader.consumes_times Reader.consumes_point count).bind_all ?_
    rintro _ commitments ⟨hlength, hcommitments⟩
    refine Reader.consumes_point.bind_all fun _ a ha => ?_
    refine Reader.consumes_point.bind_all fun _ s hs => ?_
    refine Reader.consumes_point.bind_all fun _ t1 ht1 => ?_
    refine Reader.consumes_point.bind_all fun _ t2 ht2 => ?_
    refine Reader.consumes_scalar.bind_all fun _ tauX htauX => ?_
    refine Reader.consumes_scalar.bind_all fun _ tHat htHat => ?_
    refine Reader.consumes_scalar.bind_all fun _ mu hmu => ?_
    refine InnerProductProof.consumes_reader.bind_all ?_
    rintro _ argument ⟨-, hargument⟩
    refine Reader.consumesAll_finish ?_
    rw [toBytes_eq]
    simp only [hlength, hhead, hcommitments, ha, hs, ht1, ht2, htauX, htHat, hmu, hargument,
      List.append_assoc, List.append_nil]

theorem canonical :
    CanonicalEncoding toBytes (ofBytes : Bytes → Outcome (RangeProof F G)) Fits :=
  canonicalEncoding_of_inverse (fun _ => ofBytes_toBytes) (fun _ _ => fits_of_ofBytes)
    fun _ _ h => (consumesAll_reader.result h).symm

/-- An encoding starts with a zero byte, and the version behind it, or with the number of commitments if
the version is the first one. -/
theorem head_of_ofBytes {b : Bytes} {proof : RangeProof F G} (h : ofBytes b = .ok proof) :
    (proof.version = 1 ∧ b.head? = some proof.commitments.length.toUInt8 ∧
        proof.commitments.length.toUInt8 ≠ 0) ∨
      (firstNamedVersion ≤ proof.version ∧ b.take 2 = [0, proof.version]) := by
  have hfits := fits_of_ofBytes h
  rw [← canonical.toBytes_of_ofBytes b proof h, toBytes_eq, versionBytes]
  split
  · next hnamed => exact Or.inr ⟨hnamed, rfl⟩
  · next hunnamed =>
    have hnonzero : proof.version.toNat ≠ 0 := fun hzero => hfits.version (UInt8.toNat_inj.mp hzero)
    have hlt : ¬(2 ≤ proof.version.toNat) := fun hle => hunnamed (UInt8.le_iff_toNat_le.mpr hle)
    have hcount : proof.commitments.length ≤ 255 := hfits.count.trans (by decide)
    refine Or.inl ⟨UInt8.toNat_inj.mp (show proof.version.toNat = 1 by omega), rfl, fun hzero => ?_⟩
    have hlength := toNat_toUInt8 hcount
    rw [hzero] at hlength
    exact hfits.nonempty (List.eq_nil_of_length_eq_zero hlength.symm)

end RangeProof

/-! ## The five kinds of arguments -/

/-- **Every argument has exactly one encoding.** Proofs of serial numbers and ring proofs are read back as
they were written, inner-product arguments with at most eleven rounds and range proofs within their bounds
as well; nothing else is ever read, and it is written as it was read. A range proof that starts with a
zero byte names a version from two on behind it, and any other starts with its count of commitments and is
of version one. -/
theorem argument_encodings_canonical :
    CanonicalEncoding SerialProof.toBytes (SerialProof.ofBytes : Bytes → Outcome (SerialProof F G))
        (fun _ => True) ∧
      CanonicalEncoding HiddenSerialProof.toBytes
        (HiddenSerialProof.ofBytes : Bytes → Outcome (HiddenSerialProof F G)) (fun _ => True) ∧
      CanonicalEncoding RingProof.toBytes (RingProof.ofBytes : Bytes → Outcome (RingProof F G))
        (fun _ => True) ∧
      CanonicalEncoding InnerProductProof.toBytes
        (InnerProductProof.ofBytes : Bytes → Outcome (InnerProductProof F G))
        (fun proof => proof.rounds.length ≤ InnerProductProof.maxRounds) ∧
      CanonicalEncoding RangeProof.toBytes (RangeProof.ofBytes : Bytes → Outcome (RangeProof F G))
        RangeProof.Fits ∧
      ∀ (b : Bytes) (proof : RangeProof F G), RangeProof.ofBytes b = .ok proof →
        (proof.version = 1 ∧ b.head? = some proof.commitments.length.toUInt8 ∧
            proof.commitments.length.toUInt8 ≠ 0) ∨
          (RangeProof.firstNamedVersion ≤ proof.version ∧ b.take 2 = [0, proof.version]) :=
  ⟨SerialProof.canonical, HiddenSerialProof.canonical, RingProof.canonical,
    InnerProductProof.canonical, RangeProof.canonical, fun _ _ => RangeProof.head_of_ofBytes⟩

open Curve (Scalar)

/-- A range proof about one commitment, of a given version. -/
def RangeProof.aboutOne (version : UInt8) : RangeProof Scalar Exponent :=
  { version, commitments := [⟨5⟩], a := ⟨1⟩, s := ⟨2⟩, t1 := ⟨3⟩, t2 := ⟨4⟩, tauX := 6, tHat := 7, mu := 8
    argument := ⟨[(⟨1⟩, ⟨2⟩)], 9, 10, ⟨11⟩⟩ }

theorem RangeProof.fits_aboutOne {version : UInt8} (h : version ≠ 0) : (aboutOne version).Fits where
  version := h
  nonempty := List.cons_ne_nil _ _
  count := show 1 ≤ maxOutputs by decide
  rounds := show 1 ≤ InnerProductProof.maxRounds by decide

/-- Two range proofs that differ in their version only are read back, and nothing else is read as either
of them. -/
theorem argument_encodings_canonical_exponents :
    RangeProof.ofBytes (RangeProof.aboutOne 1).toBytes = .ok (RangeProof.aboutOne 1) ∧
      RangeProof.ofBytes (RangeProof.aboutOne 2).toBytes = .ok (RangeProof.aboutOne 2) ∧
      ∀ b, RangeProof.ofBytes b = .ok (RangeProof.aboutOne 2) → b = (RangeProof.aboutOne 2).toBytes := by
  obtain ⟨-, -, -, -, hrange, -⟩ := argument_encodings_canonical (F := Scalar) (G := Exponent)
  have hone := hrange.ofBytes_toBytes (RangeProof.aboutOne 1) (RangeProof.fits_aboutOne (by decide))
  have htwo := hrange.ofBytes_toBytes (RangeProof.aboutOne 2) (RangeProof.fits_aboutOne (by decide))
  exact ⟨hone, htwo, fun b hb => hrange.ofBytes_inj b _ _ hb htwo⟩

end ShieldedPayments
