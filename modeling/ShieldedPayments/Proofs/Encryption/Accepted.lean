import ShieldedPayments.Proofs.Consumed
import ShieldedPayments.Proofs.Encryption.Hybrid
import ShieldedPayments.Proofs.Group.Exponents

/-!
# The byte strings that are ciphertexts

A hybrid ciphertext starts with two points, each behind its length byte (`PointAt`), and goes on with at
least the 16 bytes in which the counter starts. Just the byte strings of this form are read as ciphertexts,
they are written as they were read, and every key decrypts them to something: nothing in a ciphertext says
whom it is for (`HybridCiphertext.accepted_iff_two_points`). What was encrypted for the owner of the key is
decrypted to the message.
-/

namespace ShieldedPayments

variable {F G : Type} [ScalarField F] [PointGroup F G]

/-- At position `i` of some bytes stands a point of the group `G` behind its length byte. -/
def PointAt (G : Type) {F : Type} [PointGroup F G] (b : Bytes) (i : Nat) : Prop :=
  b[i]? = some 0x20 ∧ ∃ p : G, PointGroup.decode ((b.drop (i + 1)).take 32) = some p

/-- Bytes with a point in front are those that start with its encoding and the length of this. -/
theorem pointAt_zero_iff [PointGroup.Canonical F G] {b : Bytes} :
    PointAt G b 0 ↔ ∃ p : G, b.take (elementSize + 1) = Writer.optPoint (some p) := by
  unfold PointAt
  simp only [PointGroup.decode_eq_some_iff]
  cases b with
  | nil =>
    constructor
    · rintro ⟨h, -⟩
      cases h
    · rintro ⟨p, h⟩
      cases h
  | cons x b =>
    show some x = some 0x20 ∧ (∃ p : G, PointGroup.encode p = b.take elementSize) ↔
      ∃ p : G, x :: b.take elementSize = 0x20 :: PointGroup.encode p
    simp only [Option.some_inj, List.cons.injEq, exists_and_left, eq_comm]

omit [ScalarField F] in
theorem pointAt_drop {b : Bytes} {i : Nat} : PointAt G b i ↔ PointAt G (b.drop i) 0 := by
  unfold PointAt
  rw [List.getElem?_drop, List.drop_drop]
  rfl

namespace ElGamalCiphertext

variable [PointGroup.Canonical F G]

theorem consumes_reader :
    (reader : Reader (ElGamalCiphertext G)).Consumes fun c ct => c = ct.toBytes := by
  refine Reader.consumes_prefixedPoint.bind ?_
  rintro _ c1 rfl
  refine Reader.consumes_prefixedPoint.bind_pure ?_
  rintro _ c2 rfl
  rfl

/-- The bytes that are read as a hidden point are its encoding. -/
theorem ofBytes_eq_ok_iff {b : Bytes} {ct : ElGamalCiphertext G} :
    ofBytes b = .ok ct ↔ b = ct.toBytes := by
  constructor
  · intro h
    rw [ofBytes, ensure_bind_eq_ok_iff, beq_iff_eq] at h
    obtain ⟨hsize, h⟩ := h
    exact (consumes_reader.result_of_length (hsize.trans (length_toBytes ct).symm) h).symm
  · rintro rfl
    exact ofBytes_toBytes ct

/-- The bytes of a hidden point are two points behind their length bytes. -/
theorem exists_ofBytes_iff {b : Bytes} (h : size ≤ b.length) :
    (∃ ct : ElGamalCiphertext G, ofBytes (b.take size) = .ok ct) ↔ PointAt G b 0 ∧ PointAt G b 33 := by
  have hfront : ∀ p : G, (b.take (elementSize + 1)).length = (Writer.optPoint (some p)).length := by
    intro p
    rw [Writer.optPoint, List.length_append, PointGroup.Canonical.length_encode, List.length_take_of_le]
    · rfl
    · exact le_trans (by decide) h
  have hsplit : b.take size = b.take (elementSize + 1) ++ (b.drop 33).take (elementSize + 1) := by
    rw [size, Nat.two_mul, List.take_add]
    rfl
  rw [pointAt_drop (i := 33), pointAt_zero_iff, pointAt_zero_iff, hsplit]
  constructor
  · rintro ⟨ct, hct⟩
    obtain ⟨hfirst, hsecond⟩ := List.append_inj (ofBytes_eq_ok_iff.mp hct) (hfront ct.c1)
    exact ⟨⟨ct.c1, hfirst⟩, ⟨ct.c2, hsecond⟩⟩
  · rintro ⟨⟨c1, hfirst⟩, ⟨c2, hsecond⟩⟩
    refine ⟨⟨c1, c2⟩, ofBytes_eq_ok_iff.mpr ?_⟩
    rw [hfirst, hsecond]
    rfl

end ElGamalCiphertext

namespace HybridCiphertext

variable [PointGroup.Canonical F G]

theorem exists_ofBytes_iff {b : Bytes} :
    (∃ ct, ofBytes G b = .ok ct) ↔ 82 ≤ b.length ∧ PointAt G b 0 ∧ PointAt G b 33 := by
  have hmin : minSize = 82 := rfl
  have hsize : ElGamalCiphertext.size = 66 := rfl
  constructor
  · rintro ⟨ct, h⟩
    obtain ⟨hlength, hkey, -⟩ := ofBytes_eq_ok_iff.mp h
    exact ⟨hlength, (ElGamalCiphertext.exists_ofBytes_iff (by omega)).mp hkey⟩
  · rintro ⟨hlength, hpoints⟩
    have hkey := (ElGamalCiphertext.exists_ofBytes_iff (by omega)).mpr hpoints
    exact ⟨_, ofBytes_eq_ok_iff.mpr ⟨hlength, hkey, rfl⟩⟩

omit [PointGroup.Canonical F G] in
/-- Whatever was read as a ciphertext is decrypted by every key, to as many bytes as there are behind the
first 82. -/
theorem exists_decrypt_of_ofBytes {b : Bytes} {ct : HybridCiphertext} (h : ofBytes G b = .ok ct)
    (secretKey : F) :
    ∃ message, ct.decrypt G secretKey = .ok message ∧ message.length + 82 = b.length := by
  have hmin : minSize = 82 := rfl
  have hsize : ElGamalCiphertext.size = 66 := rfl
  have hiv : ivSize = 16 := rfl
  obtain ⟨hlength, ⟨key, hkey⟩, rfl⟩ := ofBytes_eq_ok_iff.mp h
  refine ⟨Cipher.Counter.apply (PointGroup.encode (key.decrypt secretKey))
    ((b.drop ElGamalCiphertext.size).take ivSize) ((b.drop ElGamalCiphertext.size).drop ivSize), ?_, ?_⟩
  · rw [decrypt, ensure_bind_eq_ok_iff, decide_eq_true_iff, List.length_drop]
    refine ⟨by omega, ?_⟩
    rw [hkey]
    rfl
  · rw [Cipher.Counter.length_apply, List.length_drop, List.length_drop]
    omega

/-- **What is encrypted is decrypted, and whatever looks like a ciphertext is one.** A message that was
encrypted to a public key is decrypted with the secret key from its encoding, which is 82 bytes longer than
the message. A byte string is read as a ciphertext exactly if it has at least 82 bytes and points stand
behind the length bytes at 0 and at 33. It is written as it was read then, and every secret key decrypts it
to as many bytes as it has more than 82. -/
theorem accepted_iff_two_points [ScalarField.Lawful F] [PointGroup.Lawful F G] :
    (∀ (message : Bytes) (secretKey : F) (t : Tape),
      decryptBytes G ((encrypt message (baseMultiple secretKey : G)).run t).1.toBytes secretKey =
          .ok message ∧
        ((encrypt message (baseMultiple secretKey : G)).run t).1.toBytes.length =
          message.length + 82) ∧
    ∀ b : Bytes,
      ((∃ ct, ofBytes G b = .ok ct) ↔ 82 ≤ b.length ∧ PointAt G b 0 ∧ PointAt G b 33) ∧
      ∀ ct, ofBytes G b = .ok ct → ct.toBytes = b ∧ ∀ secretKey : F, ∃ message,
        ct.decrypt G secretKey = .ok message ∧ message.length + 82 = b.length := by
  refine ⟨fun message secretKey t => ?_, fun b => ⟨exists_ofBytes_iff, fun ct hct =>
    ⟨(toBytes_of_ofBytes hct).1, exists_decrypt_of_ofBytes hct⟩⟩⟩
  obtain ⟨hread, hlength⟩ := ofBytes_encrypt message (baseMultiple secretKey : G) t
  refine ⟨?_, hlength.trans (Nat.add_comm _ _)⟩
  rw [decryptBytes, Outcome.bind_eq_ok_iff]
  exact ⟨_, hread, decrypt_encrypt message secretKey t⟩

/-! ## A ciphertext that nobody encrypted -/

open Curve (Scalar)

/-- Two points, sixteen bytes for the counter, and two bytes more. -/
def foundBytes : Bytes :=
  (⟨⟨3⟩, ⟨4⟩⟩ : ElGamalCiphertext Exponent).toBytes ++ List.replicate 18 7

/-- The bytes are a ciphertext of two bytes for every key, but not with another length byte in front. A
message of 17 bytes, one more than a block, is decrypted from 99 bytes. -/
theorem accepted_iff_two_points_foundBytes :
    (∃ ct, ofBytes Exponent foundBytes = .ok ct ∧ ct.toBytes = foundBytes ∧
      ∀ secretKey : Scalar, ∃ message, ct.decrypt Exponent secretKey = .ok message ∧
        message.length = 2) ∧
    (¬∃ ct, ofBytes Exponent (0x21 :: foundBytes.tail) = .ok ct) ∧
    ∃ b, b.length = 99 ∧ decryptBytes Exponent b (5 : Scalar) = .ok (List.replicate 17 9) := by
  obtain ⟨hround, haccepted⟩ := accepted_iff_two_points (F := Scalar) (G := Exponent)
  have hlength : foundBytes.length = 84 := by
    rw [foundBytes, List.length_append, ElGamalCiphertext.length_toBytes]
    rfl
  have hpoints : PointAt Exponent foundBytes 0 ∧ PointAt Exponent foundBytes 33 := by
    refine (ElGamalCiphertext.exists_ofBytes_iff (by rw [hlength]; decide)).mp ⟨⟨⟨3⟩, ⟨4⟩⟩, ?_⟩
    rw [foundBytes, List.take_left' (ElGamalCiphertext.length_toBytes _)]
    exact ElGamalCiphertext.ofBytes_toBytes _
  obtain ⟨hread, hwritten⟩ := haccepted foundBytes
  obtain ⟨ct, hct⟩ := hread.mpr ⟨by omega, hpoints⟩
  obtain ⟨hbytes, hdecrypts⟩ := hwritten ct hct
  refine ⟨⟨ct, hct, hbytes, fun secretKey => ?_⟩, ?_, ?_⟩
  · obtain ⟨message, hmessage, hshorter⟩ := hdecrypts secretKey
    exact ⟨message, hmessage, by omega⟩
  · intro hother
    obtain ⟨-, ⟨hfirst, -⟩, -⟩ := (haccepted (0x21 :: foundBytes.tail)).1.mp hother
    cases hfirst
  · obtain ⟨hmessage, hlonger⟩ := hround (List.replicate 17 9) 5 ⟨[], fun _ => [], 0⟩
    exact ⟨_, hlonger, hmessage⟩

end HybridCiphertext

end ShieldedPayments
