import Mathlib.Tactic.Module
import ShieldedPayments.Proofs.Wire
import ShieldedPayments.Proofs.Tape
import ShieldedPayments.Encryption.Hybrid

/-!
# Decryption undoes encryption

Adding a key stream twice gives the message back (`Cipher.Counter.apply_apply`). A point that is hidden
with ElGamal is found again with the secret key (`ElGamalCiphertext.decrypt_eq`), and so is the message of a
hybrid ciphertext, whose key is such a point (`HybridCiphertext.decrypt_encrypt`).
-/

namespace ShieldedPayments

/-! ## Adding the key stream -/

namespace Cipher.Counter

theorem length_streamBlock (keys : List Aes.Block) (start i : Nat) :
    (streamBlock keys start i).length = blockSize := by
  simp [streamBlock, blockSize]

theorem length_keyStream (key iv : Bytes) (n : Nat) : (keyStream key iv n).length = n := by
  unfold keyStream
  rw [List.length_take, length_flatMap_of_forall (length_streamBlock _ _), List.length_range, blockSize]
  omega

theorem length_apply (key iv message : Bytes) : (apply key iv message).length = message.length := by
  simp [apply, Bytes.xor, length_keyStream]

theorem apply_apply (key iv message : Bytes) : apply key iv (apply key iv message) = message := by
  rw [apply, length_apply, apply, Bytes.xor_xor_cancel _ _ (length_keyStream key iv _).symm]

end Cipher.Counter

/-! ## Encryption and decryption -/

variable {F G : Type} [ScalarField F] [PointGroup F G]

namespace ElGamalCiphertext

theorem length_toBytes [PointGroup.Canonical F G] (ct : ElGamalCiphertext G) :
    ct.toBytes.length = size := by
  unfold toBytes Writer.optPoint Writer.count size
  simp only [List.length_append, List.length_cons, List.length_nil,
    PointGroup.Canonical.length_encode]
  rfl

theorem ofBytes_toBytes [PointGroup.Canonical F G] (ct : ElGamalCiphertext G) :
    ofBytes ct.toBytes = .ok ct := by
  have hreads : (reader : Reader (ElGamalCiphertext G)).Reads ct.toBytes ct :=
    (Reader.reads_prefixedPoint ct.c1).bind
      ((Reader.reads_prefixedPoint ct.c2).bind_pure (ElGamalCiphertext.mk ct.c1))
  rw [ofBytes, ensure_bind_eq_ok_iff, beq_iff_eq]
  exact ⟨length_toBytes ct, hreads.result_eq⟩

/-- The point that was hidden with the factor `k` from all but the owner of `secretKey`. -/
theorem decrypt_eq [ScalarField.Lawful F] [PointGroup.Lawful F G] (k secretKey : F) (message : G) :
    (⟨baseMultiple k, k • baseMultiple secretKey + message⟩ : ElGamalCiphertext G).decrypt secretKey =
      message := by
  unfold decrypt
  rw [PointGroup.baseMultiple_eq, PointGroup.baseMultiple_eq]
  module

end ElGamalCiphertext

namespace HybridCiphertext

/-- What encryption makes of the randomness that it draws. -/
theorem encrypt_eq (message : Bytes) (publicKey : G) (t : Tape) :
    ∃ (keyPoint : G) (k : F) (iv : Bytes), iv.length = ivSize ∧
      ((encrypt message publicKey).run t).1 =
        ⟨(⟨baseMultiple k, k • publicKey + keyPoint⟩ : ElGamalCiphertext G).toBytes,
          iv ++ Cipher.Counter.apply (PointGroup.encode keyPoint) iv message⟩ := by
  unfold encrypt ElGamalCiphertext.encrypt
  simp only [Drawing.run_bind, Drawing.run_pure]
  exact ⟨_, _, _, Drawing.length_run_bytes _ _, rfl⟩

/-- **The owner of the secret key reads the message that was encrypted**, whatever randomness it was
encrypted with. -/
theorem decrypt_encrypt [ScalarField.Lawful F] [PointGroup.Lawful F G] [PointGroup.Canonical F G]
    (message : Bytes) (secretKey : F) (t : Tape) :
    ((encrypt message (baseMultiple secretKey : G)).run t).1.decrypt G secretKey = .ok message := by
  obtain ⟨keyPoint, k, iv, hiv, hencrypt⟩ := encrypt_eq message (baseMultiple secretKey : G) t
  rw [hencrypt, decrypt, ensure_bind_eq_ok_iff, Outcome.bind_eq_ok_iff]
  refine ⟨?_, ⟨baseMultiple k, k • baseMultiple secretKey + keyPoint⟩, ?_, ?_⟩
  · simp [hiv]
  · rw [Outcome.mapError_eq_ok_iff]
    exact ElGamalCiphertext.ofBytes_toBytes _
  · rw [ElGamalCiphertext.decrypt_eq, Outcome.pure_eq_ok_iff, ← hiv, List.take_left, List.drop_left,
      Cipher.Counter.apply_apply]

/-! ## Encodings -/

/-- Bytes that are long enough are split behind the encrypted key, which is all that is looked at. -/
theorem ofBytes_eq_ok_iff {b : Bytes} {ct : HybridCiphertext} :
    ofBytes G b = .ok ct ↔ minSize ≤ b.length ∧
      (∃ key : ElGamalCiphertext G,
        ElGamalCiphertext.ofBytes (b.take ElGamalCiphertext.size) = .ok key) ∧
      ct = ⟨b.take ElGamalCiphertext.size, b.drop ElGamalCiphertext.size⟩ := by
  rw [ofBytes, ensure_bind_eq_ok_iff, Outcome.bind_eq_ok_iff, decide_eq_true_iff]
  simp only [exists_and_right, Outcome.pure_eq_ok_iff, eq_comm (b := ct)]

/-- A ciphertext that was read is written as it was read. -/
theorem toBytes_of_ofBytes {b : Bytes} {ct : HybridCiphertext} (h : ofBytes G b = .ok ct) :
    ct.toBytes = b ∧ minSize ≤ b.length := by
  obtain ⟨hsize, -, rfl⟩ := ofBytes_eq_ok_iff.mp h
  exact ⟨List.take_append_drop _ b, hsize⟩

/-- An encrypted message is read back as it was written, in as many bytes as the message and 82
more. -/
theorem ofBytes_encrypt [PointGroup.Canonical F G] (message : Bytes) (publicKey : G) (t : Tape) :
    ofBytes G ((encrypt message publicKey).run t).1.toBytes = .ok ((encrypt message publicKey).run t).1 ∧
      ((encrypt message publicKey).run t).1.toBytes.length = minSize + message.length := by
  obtain ⟨keyPoint, k, iv, hiv, hencrypt⟩ := encrypt_eq message publicKey t
  rw [hencrypt]
  generalize hkey : (⟨baseMultiple k, k • publicKey + keyPoint⟩ : ElGamalCiphertext G) = key
  have hsize := ElGamalCiphertext.length_toBytes key
  have hlength : (toBytes ⟨key.toBytes,
      iv ++ Cipher.Counter.apply (PointGroup.encode keyPoint) iv message⟩).length =
        minSize + message.length := by
    rw [toBytes, List.length_append, List.length_append, hsize, hiv, Cipher.Counter.length_apply,
      minSize, Nat.add_assoc]
  refine ⟨ofBytes_eq_ok_iff.mpr ⟨?_, ⟨key, ?_⟩, ?_⟩, hlength⟩
  · rw [hlength]
    exact Nat.le_add_right _ _
  · rw [toBytes, List.take_left' hsize]
    exact ElGamalCiphertext.ofBytes_toBytes key
  · rw [toBytes, List.take_left' hsize, List.drop_left' hsize]

end HybridCiphertext

end ShieldedPayments
