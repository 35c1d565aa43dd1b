import ShieldedPayments.Proofs.Delivered
import ShieldedPayments.Proofs.Encryption.Hybrid

/-!
# The encoding of account coins

A coin whose memo and sealed opening fit their length bytes is read back as it was written, and
whatever was read fits. Where a coin stands behind a length of one or two bytes, reading tries one byte
first. A length of two bytes starts with the byte 1 or 2, as no coin has 768 bytes, so that trial is
made on one or two bytes, and these are never a coin (`Reader.reads_dualPrefixed`).

* `AccountCoin.ofBytes_toBytes`, `SealedCoin.ofBytes_toBytes`: round trips.
* `AccountCoin.takes_reader`, `SealedCoin.takes_reader`: what was read fits.
* `AccountCoin.reads_dual`, `SealedCoin.reads_dual`: lengths are read with the width they have.
-/

namespace ShieldedPayments

/-! ## Coins in the open -/

variable {F G : Type} [ScalarField F] [PointGroup F G]

namespace AccountCoin

/-- The memo of a coin fits its length byte. -/
def Fits (coin : AccountCoin F G) : Prop :=
  coin.info.length ≤ 255

/-- The bytes of a coin that are not its value or memo: a length byte for each field, and the elements
that are there. -/
theorem length_toBytes [PointGroup.Canonical F G] [ScalarField.Canonical F]
    {coin : AccountCoin F G} (h : coin.Fits) :
    coin.toBytes.length = (Writer.optPoint coin.publicKey).length
      + (Writer.optPoint coin.commitment).length + (Writer.optScalar coin.derivator).length
      + (Writer.optPoint coin.serialNumber).length + (Writer.optScalar coin.randomness).length
      + (1 + (trimmedNumber coin.value).length) + (1 + coin.info.length) := by
  have hvalue := length_trimmedNumber_le coin.value
  unfold toBytes
  rw [Reader.shortPrefixed_eq (by omega), Reader.shortPrefixed_eq h]
  simp only [List.length_append, Writer.prefixed, Writer.number, Bytes.length_ofNatBE]

theorem length_toBytes_bounds [PointGroup.Canonical F G] [ScalarField.Canonical F]
    {coin : AccountCoin F G} (h : coin.Fits) :
    7 ≤ coin.toBytes.length ∧ coin.toBytes.length ≤ 175 + coin.info.length := by
  have hvalue := length_trimmedNumber_le coin.value
  have hkey := Writer.length_optPoint coin.publicKey
  have hcommitment := Writer.length_optPoint coin.commitment
  have hderivator := Writer.length_optScalar coin.derivator
  have hserial := Writer.length_optPoint coin.serialNumber
  have hrandomness := Writer.length_optScalar coin.randomness
  rw [length_toBytes h]
  omega

theorem reads_reader [PointGroup.Canonical F G] [ScalarField.Canonical F] {coin : AccountCoin F G}
    (h : coin.Fits) : (reader : Reader (AccountCoin F G)).Reads coin.toBytes coin := by
  have hvalue := length_trimmedNumber_le coin.value
  unfold toBytes
  simp only [List.append_assoc]
  refine (Reader.reads_optPoint _).bind ?_
  refine (Reader.reads_optPoint _).bind ?_
  refine (Reader.reads_optScalar _).bind ?_
  refine (Reader.reads_optPoint _).bind ?_
  refine (Reader.reads_optScalar _).bind ?_
  refine (Reader.reads_shortPrefixed (by omega)).bind ?_
  refine Reader.Reads.outcome_bind (numberOfTrimmed_trimmedNumber coin.value) ?_
  exact (Reader.reads_shortPrefixed h).bind_pure fun info => { coin with info }

theorem ofBytes_toBytes [PointGroup.Canonical F G] [ScalarField.Canonical F] {coin : AccountCoin F G}
    (h : coin.Fits) : ofBytes coin.toBytes = .ok coin := by
  have hlength := (length_toBytes_bounds h).1
  rw [ofBytes, ensure_bind_eq_ok_iff]
  refine ⟨?_, (reads_reader h).result_eq⟩
  cases hb : coin.toBytes with
  | nil =>
    rw [hb] at hlength
    cases hlength
  | cons x b => rfl

/-- A coin that was read fits, and is written in no more bytes than it was read from. -/
theorem takes_reader [PointGroup.Canonical F G] [ScalarField.Canonical F] :
    (reader : Reader (AccountCoin F G)).Takes fun n coin =>
      coin.Fits ∧ coin.toBytes.length ≤ n := by
  refine Reader.takes_optPoint.bind fun _ publicKey hkey => ?_
  refine Reader.takes_optPoint.bind fun _ commitment hcommitment => ?_
  refine Reader.takes_optScalar.bind fun _ derivator hderivator => ?_
  refine Reader.takes_optPoint.bind fun _ serialNumber hserial => ?_
  refine Reader.takes_optScalar.bind fun _ randomness hrandomness => ?_
  refine (Reader.takes_prefixed 1).bind ?_
  rintro _ valueBytes ⟨rfl, _⟩
  refine (Reader.takes_outcome (P := fun n v => n = 0 ∧ numberOfTrimmed valueBytes = .ok v)
    fun v hv => ⟨rfl, hv⟩).bind ?_
  rintro _ value ⟨rfl, hvalue⟩
  refine (Reader.takes_prefixed 1).bind_pure ?_
  rintro _ info ⟨rfl, hinfo⟩
  have hfits : (⟨publicKey, commitment, derivator, serialNumber, randomness, value, info⟩ :
      AccountCoin F G).Fits := Nat.le_of_lt_succ hinfo
  have htrimmed := length_trimmedNumber_of_numberOfTrimmed hvalue
  refine ⟨hfits, ?_⟩
  rw [length_toBytes hfits]
  simp only
  omega

theorem fits_of_ofBytes [PointGroup.Canonical F G] [ScalarField.Canonical F] {b : Bytes}
    {coin : AccountCoin F G} (h : ofBytes b = .ok coin) :
    coin.Fits ∧ coin.toBytes.length ≤ b.length := by
  rw [ofBytes, ensure_bind_eq_ok_iff] at h
  obtain ⟨n, hn, hfits, hlength⟩ := takes_reader.result h.2
  exact ⟨hfits, hlength.trans hn⟩

end AccountCoin

/-! ## Lengths of two widths -/

namespace Reader

variable {α : Type}

/-- What reading behind a length of either width does, by the first byte. -/
theorem runOn_dualPrefixed (parse : Bytes → Outcome α) (first : UInt8) (tail : Bytes) :
    (dualPrefixed parse).runOn (first :: tail) =
      if first.toNat = 0 then
        (prefixed 2 >>= fun b => liftM (parse b) : Reader α).runOn (first :: tail)
      else if (tail.take first.toNat).length = first.toNat then
        match parse (tail.take first.toNat) with
        | .ok a => (.ok a, tail.drop first.toNat)
        | .error _ => (prefixed 2 >>= fun b => liftM (parse b) : Reader α).runOn (first :: tail)
      else (.error (.malformedEncoding "length prefix past end"), first :: tail) := by
  unfold dualPrefixed
  rw [runOn_rest_bind]
  simp only
  split
  · rfl
  · split
    · cases parse (tail.take first.toNat) with
      | ok a => rfl
      | error e => rfl
    · rfl

/-- Bytes behind a length of one or two bytes are read as they were written if there are fewer than
768, and one or two bytes cannot be parsed. -/
theorem reads_dualPrefixed {parse : Bytes → Outcome α} {b : Bytes} {a : α}
    (hparse : parse b = .ok a) (hshort : ∀ c x, c.length ≤ 2 → parse c ≠ .ok x)
    (hlength : b.length < 768) :
    (dualPrefixed parse).Reads (dualLength b.length ++ b) a := by
  have hlong : 2 < b.length := by
    by_contra hle
    exact hshort b a (by omega) hparse
  intro rest
  by_cases hone : b.length ≤ 255
  · -- one byte: the trial is made on the bytes themselves
    have hzero : b.length ≠ 0 := by omega
    rw [dualLength, if_pos hone, Writer.count, List.append_assoc, List.cons_append, List.nil_append,
      runOn_dualPrefixed, toNat_toUInt8 hone, if_neg hzero, List.take_left, if_pos rfl, hparse,
      List.drop_left]
  · -- two bytes: the trial is made on the second one and what follows it
    have hbytes : Writer.number 2 b.length = [(b.length / 256).toUInt8, b.length.toUInt8] := rfl
    have hhigh : (b.length / 256).toUInt8.toNat = b.length / 256 := toNat_toUInt8 (by omega)
    have hzero : b.length / 256 ≠ 0 := by omega
    have htake : ((b.length.toUInt8 :: (b ++ rest)).take (b.length / 256)).length =
        b.length / 256 := by
      rw [List.length_take, List.length_cons, List.length_append]
      omega
    have hread : (prefixed 2 >>= fun b => liftM (parse b) : Reader α).Reads
        (Writer.prefixed 2 b) a := reads_parsed (by omega) hparse
    have hwide := hread rest
    rw [Writer.prefixed, hbytes] at hwide
    rw [dualLength, if_neg hone, hbytes, List.append_assoc, List.cons_append, List.cons_append,
      List.nil_append, runOn_dualPrefixed, hhigh, if_neg hzero, if_pos htake]
    split
    · next x hx => exact absurd hx (hshort _ _ (by omega))
    · exact hwide

end Reader

namespace AccountCoin

variable [PointGroup.Canonical F G] [ScalarField.Canonical F]

theorem ofBytes_ne_ok_of_short {b : Bytes} (coin : AccountCoin F G) (h : b.length ≤ 2) :
    ofBytes b ≠ .ok coin := by
  intro hcoin
  obtain ⟨hfits, hlength⟩ := fits_of_ofBytes hcoin
  have hbounds := length_toBytes_bounds hfits
  omega

theorem reads_dual {coin : AccountCoin F G} (h : coin.Fits) :
    (Reader.dualPrefixed (AccountCoin.ofBytes : Bytes → Outcome (AccountCoin F G))).Reads
      (dualLength coin.toBytes.length ++ coin.toBytes) coin := by
  have hbounds := length_toBytes_bounds h
  have hinfo : coin.info.length ≤ 255 := h
  exact Reader.reads_dualPrefixed (ofBytes_toBytes h)
    (fun _ coin hshort => ofBytes_ne_ok_of_short coin hshort) (by omega)

end AccountCoin

/-! ## Sealed coins -/

namespace SealedCoin

/-- The memo and the sealed opening of a coin fit their length bytes, and the opening is a
ciphertext. -/
structure Fits (coin : SealedCoin F G) : Prop where
  details : coin.details.Fits
  encrypted : ∀ ct, coin.encrypted = some ct →
    HybridCiphertext.ofBytes G ct.toBytes = .ok ct ∧ ct.toBytes.length ≤ 255

/-- The bytes of the sealed opening of a coin, none if there is none. -/
def encryptedBytes (coin : SealedCoin F G) : Bytes :=
  match coin.encrypted with
  | some ct => ct.toBytes
  | none => []

theorem toBytes_eq (coin : SealedCoin F G) :
    coin.toBytes = Writer.shortPrefixed coin.encryptedBytes
      ++ (dualLength coin.details.toBytes.length ++ coin.details.toBytes) := by
  rw [← List.append_assoc]
  rfl

theorem Fits.length_encryptedBytes {coin : SealedCoin F G} (h : coin.Fits) :
    coin.encryptedBytes.length ≤ 255 := by
  unfold encryptedBytes
  cases hct : coin.encrypted with
  | none => exact Nat.zero_le _
  | some ct => exact (h.encrypted ct hct).2

theorem length_dualLength (n : Nat) : 1 ≤ (dualLength n).length ∧ (dualLength n).length ≤ 2 := by
  unfold dualLength
  split
  · exact ⟨Nat.le_refl 1, Nat.le_succ 1⟩
  · rw [Writer.number, Bytes.length_ofNatBE]
    decide

/-- However the coin behind the sealed opening is read, both are read one after the other. -/
theorem reads_reader_of_details {coin : SealedCoin F G} (h : coin.Fits) {b : Bytes}
    (hdetails : (Reader.dualPrefixed AccountCoin.ofBytes).Reads b coin.details) :
    (reader : Reader (SealedCoin F G)).Reads (Writer.shortPrefixed coin.encryptedBytes ++ b) coin := by
  refine (Reader.reads_shortPrefixed h.length_encryptedBytes).bind ?_
  obtain ⟨details, encrypted⟩ := coin
  cases encrypted with
  | none =>
    have hread := hdetails.bind_pure fun details => (⟨details, none⟩ : SealedCoin F G)
    exact hread
  | some ct =>
    obtain ⟨hct, _⟩ := h.encrypted ct rfl
    have hnonempty : ct.toBytes.isEmpty = false := by
      have hsize := (HybridCiphertext.toBytes_of_ofBytes hct).2
      cases hb : ct.toBytes with
      | nil =>
        rw [hb] at hsize
        cases hsize
      | cons x b => rfl
    simp only [encryptedBytes, hnonempty]
    have hread := hdetails.bind_pure fun details => (⟨details, some ct⟩ : SealedCoin F G)
    exact Reader.Reads.outcome_bind hct hread

variable [PointGroup.Canonical F G] [ScalarField.Canonical F]

theorem length_toBytes_bounds {coin : SealedCoin F G} (h : coin.Fits) :
    9 ≤ coin.toBytes.length ∧ coin.toBytes.length < 768 := by
  have hencrypted := h.length_encryptedBytes
  have hdetails := AccountCoin.length_toBytes_bounds h.details
  have hinfo : coin.details.info.length ≤ 255 := h.details
  have hdual := length_dualLength coin.details.toBytes.length
  rw [toBytes_eq, Reader.shortPrefixed_eq hencrypted]
  simp only [List.length_append, Writer.prefixed, Writer.number, Bytes.length_ofNatBE]
  omega

/-- A sealed opening is a ciphertext of 82 bytes and those of the randomness and the value. -/
theorem fits_strip_encrypt {coin : AccountCoin F G} (hinfo : coin.Fits) (randomness : F) (publicView : G)
    (t : Tape) : (strip ⟨coin, some ((HybridCiphertext.encrypt (opening randomness coin.value)
      publicView).run t).1⟩).Fits := by
  refine ⟨hinfo, fun ct hct => ?_⟩
  obtain rfl := Option.some.inj hct
  obtain ⟨hread, hlength⟩ :=
    HybridCiphertext.ofBytes_encrypt (opening randomness coin.value) publicView t
  refine ⟨hread, ?_⟩
  have hvalue := length_trimmedNumber_le coin.value
  rw [hlength, opening, List.length_append, ScalarField.Canonical.length_encode]
  show ElGamalCiphertext.size + 16 + (32 + (trimmedNumber coin.value).length) ≤ 255
  have hsize : ElGamalCiphertext.size = 66 := by decide
  omega

theorem reads_reader {coin : SealedCoin F G} (h : coin.Fits) :
    (reader : Reader (SealedCoin F G)).Reads coin.toBytes coin := by
  rw [toBytes_eq]
  exact reads_reader_of_details h (AccountCoin.reads_dual h.details)

theorem ofBytes_toBytes {coin : SealedCoin F G} (h : coin.Fits) : ofBytes coin.toBytes = .ok coin := by
  have hlength := (length_toBytes_bounds h).1
  rw [ofBytes, ensure_bind_eq_ok_iff]
  refine ⟨?_, (reads_reader h).result_eq⟩
  cases hb : coin.toBytes with
  | nil =>
    rw [hb] at hlength
    cases hlength
  | cons x b => rfl

/-- A coin that was read fits, and was read from at least nine bytes. -/
theorem takes_reader : (reader : Reader (SealedCoin F G)).Takes fun n coin => coin.Fits ∧ 9 ≤ n := by
  have hdetails : ∀ encrypted : Option HybridCiphertext,
      (∀ ct, encrypted = some ct →
        HybridCiphertext.ofBytes G ct.toBytes = .ok ct ∧ ct.toBytes.length ≤ 255) →
      (Reader.dualPrefixed AccountCoin.ofBytes >>= fun details : AccountCoin F G =>
          pure (⟨details, encrypted⟩ : SealedCoin F G) : Reader (SealedCoin F G)).Takes
        fun n coin => coin.Fits ∧ 8 ≤ n := by
    intro encrypted hencrypted
    refine (Reader.takes_dualPrefixed (P := fun n coin => coin.Fits ∧ coin.toBytes.length ≤ n)
      fun _ _ hcoin => AccountCoin.fits_of_ofBytes hcoin).bind_pure ?_
    rintro n details ⟨m, hm, hfits, hlength⟩
    have hbounds := AccountCoin.length_toBytes_bounds hfits
    exact ⟨⟨hfits, hencrypted⟩, by omega⟩
  refine (Reader.takes_prefixed 1).bind ?_
  rintro _ b ⟨rfl, hb⟩
  simp only
  split
  · refine (hdetails none fun _ h => by cases h).mono ?_
    rintro n coin ⟨hfits, hn⟩
    exact ⟨hfits, by omega⟩
  · refine (Reader.takes_outcome (P := fun n ct => n = 0 ∧ HybridCiphertext.ofBytes G b = .ok ct)
      fun ct hct => ⟨rfl, hct⟩).bind ?_
    rintro _ ct ⟨rfl, hct⟩
    obtain ⟨hbytes, _⟩ := HybridCiphertext.toBytes_of_ofBytes hct
    refine (hdetails (some ct) ?_).mono ?_
    · rintro _ ⟨⟩
      rw [hbytes]
      exact ⟨hct, by omega⟩
    · rintro n coin ⟨hfits, hn⟩
      exact ⟨hfits, by omega⟩

theorem fits_of_ofBytes {b : Bytes} {coin : SealedCoin F G} (h : ofBytes b = .ok coin) :
    coin.Fits ∧ 9 ≤ b.length := by
  rw [ofBytes, ensure_bind_eq_ok_iff] at h
  obtain ⟨n, hn, hfits, hlength⟩ := takes_reader.result h.2
  exact ⟨hfits, hlength.trans hn⟩

theorem reads_dual {coin : SealedCoin F G} (h : coin.Fits) :
    (Reader.dualPrefixed (SealedCoin.ofBytes : Bytes → Outcome (SealedCoin F G))).Reads
      (dualLength coin.toBytes.length ++ coin.toBytes) coin := by
  refine Reader.reads_dualPrefixed (ofBytes_toBytes h) ?_ (length_toBytes_bounds h).2
  intro b coin hshort hcoin
  have hlength := (fits_of_ofBytes hcoin).2
  omega

end SealedCoin

end ShieldedPayments
