import ShieldedPayments.Coin.Basic
import ShieldedPayments.Proofs.Coin.AccountCodec
import ShieldedPayments.Proofs.Group.Exponents

/-!
# Lengths of one or two bytes are never misread

Where a coin stands behind a length, writers have used one byte for lengths below 256 and two for longer
ones, or two bytes throughout (`LengthForm`), and readers are not told which. They take one byte first.
If a length has two bytes and is below 256, its first byte is zero, which is not a length of one byte. If
it is not below 256, its first byte is 1 or 2, as no coin has 768 bytes, and neither one nor two bytes are
a coin, so the first trial fails (`Reader.reads_lengthForm`).

The prefix is nested: a sealed coin has one around its fields, and a payment one around the sealed coin.
All four combinations are read back (`SealedCoin.lengths_never_misread`).
-/

namespace ShieldedPayments

/-! ## Both ways to write a length -/

/-- How a length is written: in one byte if that is enough, or in two bytes in any case. -/
inductive LengthForm where
  | shortest
  | wide
  deriving DecidableEq, Repr

/-- A byte string behind its length. -/
def LengthForm.prefixed : LengthForm → Bytes → Bytes
  | shortest, b => dualLength b.length ++ b
  | wide, b => Writer.prefixed 2 b

theorem LengthForm.length_prefixed_le (form : LengthForm) (b : Bytes) :
    (form.prefixed b).length ≤ 2 + b.length := by
  cases form with
  | shortest =>
    have hdual := SealedCoin.length_dualLength b.length
    rw [prefixed, List.length_append]
    omega
  | wide => rw [prefixed, Writer.prefixed, List.length_append, Writer.number, Bytes.length_ofNatBE]

namespace Reader

variable {α : Type} {parse : Bytes → Outcome α} {b : Bytes} {a : α}

/-- A length of two bytes is read as one where one byte would have been enough: it starts with zero. -/
theorem reads_widePrefixed_of_le (hparse : parse b = .ok a) (hle : b.length ≤ 255) :
    (dualPrefixed parse).Reads (Writer.prefixed 2 b) a := by
  intro rest
  have hhigh : (b.length / 256).toUInt8.toNat = 0 := by
    rw [toNat_toUInt8 (by omega)]
    omega
  have hbytes : Writer.prefixed 2 b ++ rest =
      (b.length / 256).toUInt8 :: (b.length.toUInt8 :: b ++ rest) := rfl
  have hreads : (prefixed 2 >>= fun b => liftM (parse b) : Reader α).Reads (Writer.prefixed 2 b) a :=
    reads_parsed (by omega) hparse
  have hread := hreads rest
  rw [hbytes] at hread ⊢
  rw [runOn_dualPrefixed, if_pos hhigh]
  exact hread

/-- Bytes behind a length in either form are read as they were written if there are fewer than 768, and
one or two bytes cannot be parsed. -/
theorem reads_lengthForm (form : LengthForm) (hparse : parse b = .ok a)
    (hshort : ∀ c x, c.length ≤ 2 → parse c ≠ .ok x) (hlength : b.length < 768) :
    (dualPrefixed parse).Reads (form.prefixed b) a := by
  have hshortest := reads_dualPrefixed hparse hshort hlength
  cases form with
  | shortest => exact hshortest
  | wide =>
    by_cases hle : b.length ≤ 255
    · exact reads_widePrefixed_of_le hparse hle
    · rw [dualLength, if_neg hle] at hshortest
      exact hshortest

end Reader

/-! ## Ciphertexts -/

variable {F G : Type} [ScalarField F] [PointGroup F G]

/-- The ciphertexts there are: those that were encrypted, and those that were read. -/
inductive HybridCiphertext.Arises (G : Type) {F : Type} [ScalarField F] [PointGroup F G] :
    HybridCiphertext → Prop
  | encrypt (message : Bytes) (publicKey : G) (t : Tape) :
      Arises G ((HybridCiphertext.encrypt message publicKey).run t).1
  | ofBytes {b : Bytes} {ct : HybridCiphertext} (h : HybridCiphertext.ofBytes G b = .ok ct) :
      Arises G ct

/-- A ciphertext is read back from its encoding, wherever it came from. -/
theorem HybridCiphertext.Arises.ofBytes_toBytes [PointGroup.Canonical F G] {ct : HybridCiphertext}
    (h : ct.Arises G) : HybridCiphertext.ofBytes G ct.toBytes = .ok ct := by
  cases h with
  | encrypt message publicKey t => exact (HybridCiphertext.ofBytes_encrypt message publicKey t).1
  | ofBytes hread => rwa [(HybridCiphertext.toBytes_of_ofBytes hread).1]

/-! ## Coins -/

/-- The encoding of a sealed coin by a writer that uses a given form of lengths. -/
def SealedCoin.bytesWith (coin : SealedCoin F G) (form : LengthForm) : Bytes :=
  Writer.shortPrefixed coin.encryptedBytes ++ form.prefixed coin.details.toBytes

theorem SealedCoin.toBytes_eq_bytesWith (coin : SealedCoin F G) :
    coin.toBytes = coin.bytesWith .shortest :=
  coin.toBytes_eq

variable [PointGroup.Canonical F G] [ScalarField.Canonical F]

namespace AccountCoin

theorem reads_lengthForm {coin : AccountCoin F G} (h : coin.Fits) (form : LengthForm) :
    (Reader.dualPrefixed (ofBytes : Bytes → Outcome (AccountCoin F G))).Reads
      (form.prefixed coin.toBytes) coin := by
  have hbounds := length_toBytes_bounds h
  have hinfo : coin.info.length ≤ 255 := h
  exact Reader.reads_lengthForm form (ofBytes_toBytes h)
    (fun _ coin hshort => ofBytes_ne_ok_of_short coin hshort) (by omega)

omit [PointGroup.Canonical F G] [ScalarField.Canonical F] in
/-- The first byte of a coin is 0 or 32. -/
theorem head_toBytes (coin : AccountCoin F G) :
    ∃ x tail, coin.toBytes = x :: tail ∧ x ≠ OneTimeCoin.version := by
  unfold toBytes
  cases coin.publicKey with
  | none => exact ⟨0, _, rfl, by decide⟩
  | some p => exact ⟨elementSize.toUInt8, _, rfl, by decide⟩

theorem inputOfBytes_toBytes {coin : AccountCoin F G} (h : coin.Fits) :
    InputCoin.ofBytes coin.toBytes = .ok (.account coin) := by
  have hread := ofBytes_toBytes h
  obtain ⟨x, tail, hbytes, hx⟩ := coin.head_toBytes
  rw [hbytes] at hread ⊢
  rw [InputCoin.ofBytes, if_neg hx, hread]
  rfl

end AccountCoin

namespace SealedCoin

theorem length_bytesWith_lt {coin : SealedCoin F G} (h : coin.Fits) (form : LengthForm) :
    (coin.bytesWith form).length < 768 := by
  have hencrypted := h.length_encryptedBytes
  have hdetails := AccountCoin.length_toBytes_bounds h.details
  have hinfo : coin.details.info.length ≤ 255 := h.details
  have hprefixed := form.length_prefixed_le coin.details.toBytes
  rw [bytesWith, Reader.shortPrefixed_eq hencrypted]
  simp only [List.length_append, Writer.prefixed, Writer.number, Bytes.length_ofNatBE]
  omega

omit [PointGroup.Canonical F G] [ScalarField.Canonical F] in
/-- The first byte of a sealed coin is the length of its sealed opening: 0, or at least 82. -/
theorem head_bytesWith {coin : SealedCoin F G} (h : coin.Fits) (form : LengthForm) :
    ∃ x tail, coin.bytesWith form = x :: tail ∧ x ≠ OneTimeCoin.version := by
  have hencrypted := h.length_encryptedBytes
  have hsize : coin.encryptedBytes.length ≠ 2 := by
    unfold encryptedBytes
    cases hct : coin.encrypted with
    | none => decide
    | some ct =>
      have hmin : HybridCiphertext.minSize = 82 := rfl
      have hle := (HybridCiphertext.toBytes_of_ofBytes (h.encrypted ct hct).1).2
      simp only
      omega
  refine ⟨coin.encryptedBytes.length.toUInt8, coin.encryptedBytes ++ form.prefixed coin.details.toBytes,
    ?_, ?_⟩
  · rw [bytesWith, Reader.shortPrefixed_eq hencrypted]
    rfl
  · intro hversion
    have hnat := congrArg UInt8.toNat hversion
    rw [toNat_toUInt8 hencrypted] at hnat
    exact hsize hnat

theorem ofBytes_bytesWith {coin : SealedCoin F G} (h : coin.Fits) (form : LengthForm) :
    ofBytes (coin.bytesWith form) = .ok coin := by
  obtain ⟨x, tail, hbytes, -⟩ := head_bytesWith h form
  have hread := reads_reader_of_details h (AccountCoin.reads_lengthForm h.details form)
  rw [ofBytes, ensure_bind_eq_ok_iff]
  refine ⟨?_, hread.result_eq⟩
  rw [hbytes]
  rfl

theorem outputOfBytes_bytesWith {coin : SealedCoin F G} (h : coin.Fits) (form : LengthForm) :
    OutputCoin.ofBytes (coin.bytesWith form) = .ok (.account coin) := by
  have hread := ofBytes_bytesWith h form
  obtain ⟨x, tail, hbytes, hx⟩ := head_bytesWith h form
  rw [hbytes] at hread ⊢
  rw [OutputCoin.ofBytes, if_neg hx, hread]
  rfl

theorem reads_lengthForm {coin : SealedCoin F G} (h : coin.Fits) (inner outer : LengthForm) :
    (Reader.dualPrefixed (ofBytes : Bytes → Outcome (SealedCoin F G))).Reads
      (outer.prefixed (coin.bytesWith inner)) coin := by
  refine Reader.reads_lengthForm outer (ofBytes_bytesWith h inner) ?_ (length_bytesWith_lt h inner)
  intro b coin hshort hcoin
  have hlength := (fits_of_ofBytes hcoin).2
  omega

/-- **A length of one or two bytes is never misread.** A coin with a memo of at most 255 bytes, nothing
sealed or a sealed opening of at most 255 bytes, is read back from its encoding, by the readers of account
coins and by those of coins of any version, and from its encoding behind its length, whatever follows, of
which nothing is consumed. The same holds if writers have used two bytes for one of the two lengths, or
for both. -/
theorem lengths_never_misread {coin : SealedCoin F G} (hinfo : coin.details.info.length ≤ 255)
    (hencrypted : ∀ ct, coin.encrypted = some ct → ct.Arises G ∧ ct.toBytes.length ≤ 255) :
    (AccountCoin.ofBytes coin.details.toBytes = .ok coin.details ∧
        InputCoin.ofBytes coin.details.toBytes = .ok (.account coin.details)) ∧
      (ofBytes coin.toBytes = .ok coin ∧ OutputCoin.ofBytes coin.toBytes = .ok (.account coin)) ∧
      (∀ tail, (Reader.dualPrefixed ofBytes).runOn
        (dualLength coin.toBytes.length ++ coin.toBytes ++ tail) = (.ok coin, tail)) ∧
      ∀ inner outer : LengthForm,
        ofBytes (coin.bytesWith inner) = .ok coin ∧
          OutputCoin.ofBytes (coin.bytesWith inner) = .ok (.account coin) ∧
          (∀ tail, (Reader.dualPrefixed ofBytes).runOn
            (outer.prefixed (coin.bytesWith inner) ++ tail) = (.ok coin, tail)) ∧
          ∀ tail, (Reader.dualPrefixed AccountCoin.ofBytes).runOn
            (inner.prefixed coin.details.toBytes ++ tail) = (.ok coin.details, tail) := by
  have hfits : coin.Fits := by
    refine ⟨hinfo, fun ct hct => ?_⟩
    obtain ⟨harises, hlength⟩ := hencrypted ct hct
    exact ⟨harises.ofBytes_toBytes, hlength⟩
  refine ⟨⟨AccountCoin.ofBytes_toBytes hinfo, AccountCoin.inputOfBytes_toBytes hinfo⟩,
    ⟨ofBytes_toBytes hfits, ?_⟩, reads_dual hfits, fun inner outer => ⟨ofBytes_bytesWith hfits inner,
      outputOfBytes_bytesWith hfits inner, reads_lengthForm hfits inner outer,
      AccountCoin.reads_lengthForm hinfo inner⟩⟩
  rw [toBytes_eq_bytesWith]
  exact outputOfBytes_bytesWith hfits .shortest

open Curve (Scalar)

/-- A coin with a memo, sealed with an empty opening. -/
def sealedNothing : SealedCoin Scalar Exponent where
  details := { publicKey := some ⟨3⟩, value := 5, info := [7] }
  encrypted := some ((HybridCiphertext.encrypt [] (⟨1⟩ : Exponent)).run ⟨[], fun _ => [], 0⟩).1

/-- The coin is read back where both of its lengths below 256 are written in two bytes, and what follows
is left. -/
theorem lengths_never_misread_sealedNothing :
    OutputCoin.ofBytes sealedNothing.toBytes = .ok (.account sealedNothing) ∧
      (Reader.dualPrefixed ofBytes).runOn
        (LengthForm.wide.prefixed (sealedNothing.bytesWith .wide) ++ [9]) =
          (.ok sealedNothing, [9]) := by
  have hsealed : ∀ ct, sealedNothing.encrypted = some ct →
      ct.Arises Exponent ∧ ct.toBytes.length ≤ 255 := by
    rintro _ ⟨⟩
    refine ⟨.encrypt _ _ _, ?_⟩
    rw [(HybridCiphertext.ofBytes_encrypt _ _ _).2]
    decide
  have hinfo : sealedNothing.details.info.length ≤ 255 := by decide
  obtain ⟨-, ⟨-, houtput⟩, -, hforms⟩ := lengths_never_misread hinfo hsealed
  exact ⟨houtput, (hforms .wide .wide).2.2.1 [9]⟩

end SealedCoin

end ShieldedPayments
