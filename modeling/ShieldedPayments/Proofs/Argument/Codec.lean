import ShieldedPayments.Argument.HiddenSerial
import ShieldedPayments.Argument.Range
import ShieldedPayments.Argument.RingMember
import ShieldedPayments.Argument.Serial
import ShieldedPayments.Proofs.Delivered

/-!
# The encoding of arguments

Ring proofs and proofs of serial numbers have one size each, and are read back from their encodings. A
range proof is read back if it is about one to 32 commitments, has at most eleven rounds, and a version
that is not zero (`RangeProof.Fits`); what was read has all of this.
-/

namespace ShieldedPayments

variable {F G : Type} [ScalarField F] [PointGroup F G]

section

variable [ScalarField.Canonical F] [PointGroup.Canonical F G]

/-! ## Ring proofs -/

namespace RingProof

omit [ScalarField F] [PointGroup F G] [ScalarField.Canonical F] [PointGroup.Canonical F G] in
theorem reads_perBit {α : Type} {r : Reader α} {item : α → Bytes} (h : ∀ a, r.Reads (item a) a)
    (v : Vector α ringDepth) : (perBit r).Reads (v.toList.flatMap item) v := by
  obtain ⟨⟨as⟩, hsize⟩ := v
  match as, hsize with
  | [a, b, c], _ =>
    show (perBit r).Reads ([a, b, c].flatMap item) #v[a, b, c]
    rw [List.flatMap_cons, List.flatMap_cons, List.flatMap_cons, List.flatMap_nil, List.append_nil]
    exact (h a).bind ((h b).bind ((h c).bind_pure fun c => #v[a, b, c]))

omit [ScalarField F] [PointGroup F G] [ScalarField.Canonical F] [PointGroup.Canonical F G] in
theorem length_perBit {α : Type} {item : α → Bytes} (h : ∀ a, (item a).length = elementSize)
    (v : Vector α ringDepth) : (v.toList.flatMap item).length = ringDepth * elementSize := by
  rw [length_flatMap_of_forall h, Vector.length_toList]

theorem length_toBytes (proof : RingProof F G) : proof.toBytes.length = size := by
  have hpoint : ∀ p : G, (PointGroup.encode p).length = elementSize :=
    PointGroup.Canonical.length_encode
  have hscalar : ∀ s : F, (ScalarField.encode s).length = elementSize :=
    ScalarField.Canonical.length_encode
  unfold toBytes
  simp only [List.length_append, length_perBit hpoint, length_perBit hscalar, hscalar]
  rfl

theorem ofBytes_toBytes (proof : RingProof F G) : ofBytes proof.toBytes = .ok proof := by
  have hread : (reader : Reader (RingProof F G)).Reads proof.toBytes proof := by
    unfold toBytes
    simp only [List.append_assoc]
    refine (reads_perBit Reader.reads_point proof.cl).bind ?_
    refine (reads_perBit Reader.reads_point proof.ca).bind ?_
    refine (reads_perBit Reader.reads_point proof.cb).bind ?_
    refine (reads_perBit Reader.reads_point proof.cd).bind ?_
    refine (reads_perBit Reader.reads_scalar proof.f).bind ?_
    refine (reads_perBit Reader.reads_scalar proof.za).bind ?_
    refine (reads_perBit Reader.reads_scalar proof.zb).bind ?_
    exact (Reader.reads_scalar proof.zd).bind_pure fun zd => { proof with zd }
  rw [ofBytes, ensure_bind_eq_ok_iff, beq_iff_eq]
  exact ⟨length_toBytes proof, hread.result_eq⟩

end RingProof

/-! ## Proofs of serial numbers -/

namespace SerialProof

theorem length_toBytes (proof : SerialProof F G) : proof.toBytes.length = size := by
  simp [toBytes, PointGroup.Canonical.length_encode, ScalarField.Canonical.length_encode, size,
    elementSize]

theorem ofBytes_toBytes (proof : SerialProof F G) : ofBytes proof.toBytes = .ok proof := by
  have hread : (reader : Reader (SerialProof F G)).Reads proof.toBytes proof := by
    unfold toBytes
    simp only [List.append_assoc]
    refine (Reader.reads_point _).bind ?_
    refine (Reader.reads_point _).bind ?_
    refine (Reader.reads_scalar _).bind ?_
    refine (Reader.reads_point _).bind ?_
    refine (Reader.reads_point _).bind ?_
    exact (Reader.reads_scalar proof.response).bind_pure fun response => { proof with response }
  rw [ofBytes, ensure_bind_eq_ok_iff, beq_iff_eq]
  exact ⟨length_toBytes proof, hread.result_eq⟩

end SerialProof

namespace HiddenSerialProof

theorem length_toBytes (proof : HiddenSerialProof F G) : proof.toBytes.length = size := by
  simp [toBytes, PointGroup.Canonical.length_encode, ScalarField.Canonical.length_encode, size,
    elementSize]

theorem ofBytes_toBytes (proof : HiddenSerialProof F G) : ofBytes proof.toBytes = .ok proof := by
  have hread : (reader : Reader (HiddenSerialProof F G)).Reads proof.toBytes proof := by
    unfold toBytes
    simp only [List.append_assoc]
    refine (Reader.reads_point _).bind ?_
    refine (Reader.reads_point _).bind ?_
    refine (Reader.reads_point _).bind ?_
    refine (Reader.reads_point _).bind ?_
    refine (Reader.reads_point _).bind ?_
    refine (Reader.reads_scalar _).bind ?_
    refine (Reader.reads_scalar _).bind ?_
    refine (Reader.reads_scalar _).bind ?_
    exact (Reader.reads_scalar _).bind_pure fun derivatorBlinding =>
      { proof with response := { proof.response with derivatorBlinding } }
  rw [ofBytes, ensure_bind_eq_ok_iff, beq_iff_eq]
  exact ⟨length_toBytes proof, hread.result_eq⟩

end HiddenSerialProof

/-! ## Inner-product arguments -/

namespace InnerProductProof

theorem reads_reader {proof : InnerProductProof F G} (h : proof.rounds.length ≤ maxRounds) :
    (reader : Reader (InnerProductProof F G)).Reads proof.toBytes proof := by
  have hround : ∀ round : G × G, (roundReader : Reader (G × G)).Reads
      (PointGroup.encode round.1 ++ PointGroup.encode round.2) round := by
    intro round
    exact (Reader.reads_point round.1).bind ((Reader.reads_point round.2).bind_pure (Prod.mk round.1))
  have hcount : proof.rounds.length ≤ 255 := h.trans (by decide)
  have htimes := Reader.reads_times_self fun round (_ : round ∈ proof.rounds) => hround round
  unfold toBytes Writer.counted
  simp only [List.append_assoc]
  refine (Reader.reads_byte _).bind ?_
  simp only [toNat_toUInt8 hcount]
  rw [if_neg (by omega)]
  refine htimes.bind ?_
  refine (Reader.reads_scalar _).bind ?_
  refine (Reader.reads_scalar _).bind ?_
  exact (Reader.reads_point proof.p).bind_pure fun p => { proof with p }

omit [ScalarField.Canonical F] [PointGroup.Canonical F G] in
theorem takes_reader :
    (reader : Reader (InnerProductProof F G)).Takes fun _ proof =>
      proof.rounds.length ≤ maxRounds := by
  have hround : (roundReader : Reader (G × G)).Takes fun _ _ => True :=
    Reader.takes_point.bind fun _ _ _ => Reader.takes_point.bind_pure fun _ _ _ => trivial
  refine Reader.takes_byte.bind fun _ x _ => ?_
  simp only
  split
  · exact Reader.takes_throw_bind _ _
  · next hcount =>
    refine (Reader.takes_times hround _).bind ?_
    rintro _ rounds ⟨hlength, _⟩
    refine Reader.takes_scalar.bind fun _ a _ => ?_
    refine Reader.takes_scalar.bind fun _ b _ => ?_
    refine Reader.takes_point.bind_pure fun _ p _ => ?_
    simp only
    omega

theorem length_toBytes (proof : InnerProductProof F G) :
    proof.toBytes.length = 1 + proof.rounds.length * (2 * elementSize) + 3 * elementSize := by
  have hround : ∀ round : G × G,
      (PointGroup.encode round.1 ++ PointGroup.encode round.2).length = 2 * elementSize := by
    intro round
    rw [List.length_append, PointGroup.Canonical.length_encode, PointGroup.Canonical.length_encode,
      Nat.two_mul]
  unfold toBytes Writer.counted Writer.count
  simp only [List.length_append, length_flatMap_of_forall hround, PointGroup.Canonical.length_encode,
    ScalarField.Canonical.length_encode, List.length_cons, List.length_nil]
  omega

end InnerProductProof

/-! ## Range proofs -/

namespace RangeProof

/-- The counts of a range proof are within the bounds that it is read with, and its version is not
zero. -/
structure Fits (proof : RangeProof F G) : Prop where
  version : proof.version ≠ 0
  nonempty : proof.commitments ≠ []
  count : proof.commitments.length ≤ maxOutputs
  rounds : proof.argument.rounds.length ≤ InnerProductProof.maxRounds

/-- The bytes that a version is written in. -/
def versionBytes (version : UInt8) : Bytes :=
  if firstNamedVersion ≤ version then [0, version] else []

omit [ScalarField F] [PointGroup F G] [ScalarField.Canonical F] [PointGroup.Canonical F G] in
theorem reads_headReader {version : UInt8} {count : Nat} (hversion : version ≠ 0)
    (hpos : count ≠ 0) (hcount : count ≤ 255) :
    headReader.Reads (versionBytes version ++ Writer.count count) (version, count) := by
  have hn := toNat_toUInt8 hcount
  have hfirst : count.toUInt8 ≠ 0 := by
    intro hzero
    rw [hzero] at hn
    exact hpos hn.symm
  unfold versionBytes
  split
  · next hnamed =>
    refine (Reader.reads_byte 0).bind ?_
    rw [if_neg (not_not_intro rfl)]
    refine (Reader.reads_byte version).bind ?_
    simp only
    rw [if_neg (UInt8.not_lt.mpr hnamed)]
    have hlast := (Reader.reads_byte count.toUInt8).bind_pure fun x => (version, x.toNat)
    rwa [hn] at hlast
  · next hunnamed =>
    have hone : version = 1 := by
      have hnonzero : version.toNat ≠ 0 := fun h => hversion (UInt8.toNat_inj.mp h)
      have hlt : ¬(2 ≤ version.toNat) := fun h => hunnamed (UInt8.le_iff_toNat_le.mpr h)
      apply UInt8.toNat_inj.mp
      show version.toNat = 1
      omega
    refine (Reader.reads_byte count.toUInt8).bind_nil ?_
    rw [if_pos hfirst, hn, hone]
    exact Reader.reads_pure _

omit [ScalarField.Canonical F] [PointGroup.Canonical F G] in
theorem toBytes_eq (proof : RangeProof F G) :
    proof.toBytes = (versionBytes proof.version ++ Writer.count proof.commitments.length)
      ++ (proof.commitments.flatMap PointGroup.encode
      ++ (PointGroup.encode proof.a ++ (PointGroup.encode proof.s ++ (PointGroup.encode proof.t1
      ++ (PointGroup.encode proof.t2 ++ (ScalarField.encode proof.tauX
      ++ (ScalarField.encode proof.tHat ++ (ScalarField.encode proof.mu
      ++ proof.argument.toBytes)))))))) := by
  unfold toBytes Writer.counted versionBytes
  simp only [List.append_assoc]

theorem ofBytes_toBytes {proof : RangeProof F G} (h : proof.Fits) :
    ofBytes proof.toBytes = .ok proof := by
  have hpos : proof.commitments.length ≠ 0 := fun hzero =>
    h.nonempty (List.eq_nil_of_length_eq_zero hzero)
  have hcount : proof.commitments.length ≤ 255 := h.count.trans (by decide)
  have hpoints := Reader.reads_times_self fun p (_ : p ∈ proof.commitments) => Reader.reads_point p
  have hread : (reader : Reader (RangeProof F G)).ReadsAll proof.toBytes proof := by
    rw [toBytes_eq]
    refine (reads_headReader h.version hpos hcount).bind_all ?_
    simp only
    rw [if_neg (not_or_intro hpos (Nat.not_lt.mpr h.count))]
    refine hpoints.bind_all ?_
    refine (Reader.reads_point _).bind_all ?_
    refine (Reader.reads_point _).bind_all ?_
    refine (Reader.reads_point _).bind_all ?_
    refine (Reader.reads_point _).bind_all ?_
    refine (Reader.reads_scalar _).bind_all ?_
    refine (Reader.reads_scalar _).bind_all ?_
    refine (Reader.reads_scalar _).bind_all ?_
    exact (InnerProductProof.reads_reader h.rounds).bind_finish fun argument =>
      { proof with argument }
  exact hread.result_eq

theorem length_toBytes_bounds {proof : RangeProof F G} (h : proof.Fits) :
    1 ≤ proof.toBytes.length ∧ proof.toBytes.length < 256 ^ 2 := by
  have hpoints := length_flatMap_of_forall (PointGroup.Canonical.length_encode (F := F) (G := G))
    proof.commitments
  have hversion : (versionBytes proof.version).length ≤ 2 := by
    unfold versionBytes
    split <;> simp
  have hcount := h.count
  have hrounds := h.rounds
  have helement : elementSize = 32 := rfl
  have hmaxOutputs : maxOutputs = 32 := rfl
  have hmaxRounds : InnerProductProof.maxRounds = 11 := rfl
  rw [toBytes_eq]
  simp only [List.length_append, hpoints, PointGroup.Canonical.length_encode,
    ScalarField.Canonical.length_encode, InnerProductProof.length_toBytes, Writer.count,
    List.length_cons, List.length_nil, helement]
  omega

omit [ScalarField.Canonical F] [PointGroup.Canonical F G] in
theorem fits_of_ofBytes {b : Bytes} {proof : RangeProof F G} (h : ofBytes b = .ok proof) :
    proof.Fits := by
  have hhead : headReader.Takes fun _ head => head.1 ≠ 0 := by
    refine Reader.takes_byte.bind fun _ first _ => ?_
    split
    · exact Reader.takes_pure (show (1 : UInt8) ≠ 0 by decide)
    · refine Reader.takes_byte.bind fun _ version _ => ?_
      simp only
      split
      · exact Reader.takes_throw_bind _ _
      · next hnamed =>
        refine Reader.takes_byte.bind_pure fun _ _ _ => ?_
        rintro rfl
        exact hnamed (by decide)
  have htakes : (reader : Reader (RangeProof F G)).Takes fun _ proof => proof.Fits := by
    refine hhead.bind ?_
    rintro _ ⟨version, count⟩ hversion
    simp only
    split
    · exact Reader.takes_throw_bind _ _
    · next hcount =>
      rw [not_or, Nat.not_lt] at hcount
      refine (Reader.takes_times (Reader.takes_point.mono fun _ _ _ => trivial) count).bind ?_
      rintro _ commitments ⟨hlength, _⟩
      refine Reader.takes_point.bind fun _ a _ => ?_
      refine Reader.takes_point.bind fun _ s _ => ?_
      refine Reader.takes_point.bind fun _ t1 _ => ?_
      refine Reader.takes_point.bind fun _ t2 _ => ?_
      refine Reader.takes_scalar.bind fun _ tauX _ => ?_
      refine Reader.takes_scalar.bind fun _ tHat _ => ?_
      refine Reader.takes_scalar.bind fun _ mu _ => ?_
      refine InnerProductProof.takes_reader.bind fun _ argument hrounds => ?_
      refine Reader.takes_finish_pure ⟨hversion, ?_, ?_, hrounds⟩
      · rintro rfl
        exact hcount.1 hlength.symm
      · rw [hlength]
        exact hcount.2
  obtain ⟨_, _, hfits⟩ := htakes.result h
  exact hfits

end RangeProof

end

end ShieldedPayments
