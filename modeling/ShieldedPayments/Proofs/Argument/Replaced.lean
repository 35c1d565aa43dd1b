import ShieldedPayments.Proofs.Argument.Canonical
import ShieldedPayments.Proofs.Argument.HonestRing

/-!
# Replaced responses

In the encoding of every kind of proof, the responses stand behind each other, and behind all points that
the challenge comes from. If the bytes of one of them are replaced and the outcome is still an encoding,
it is that of a proof with the same front and with one other response.

* `Bytes.Replaced`: the bytes of one element are replaced by others.
* `SerialProof.of_replaced`, `HiddenSerialProof.of_replaced`, `RingProof.of_replaced`,
  `RangeProof.of_replaced`: what the two proofs share.
-/

namespace ShieldedPayments

/-! ## Replaced elements -/

/-- The bytes of the element behind the first `offset` bytes are replaced by others. -/
def Bytes.Replaced (offset : Nat) (b c : Bytes) : Prop :=
  ∃ front old new back : Bytes, front.length = offset ∧ old.length = elementSize ∧
    new.length = elementSize ∧ old ≠ new ∧ b = front ++ (old ++ back) ∧ c = front ++ (new ++ back)

namespace Bytes.Replaced

/-- What stands in front of an element is left alone. -/
theorem of_append {n : Nat} {front b c : Bytes} (h : Replaced (front.length + n) (front ++ b) c) :
    ∃ c', c = front ++ c' ∧ Replaced n b c' := by
  obtain ⟨before, old, new, back, hbefore, hold, hnew, hne, hb, rfl⟩ := h
  have hprefix : front <+: before := by
    apply List.prefix_of_prefix_length_le (List.prefix_append front b)
    · exact ⟨old ++ back, hb.symm⟩
    · omega
  obtain ⟨middle, rfl⟩ := hprefix
  rw [List.length_append] at hbefore
  rw [List.append_assoc, List.append_cancel_left_eq] at hb
  exact ⟨middle ++ (new ++ back), List.append_assoc _ _ _,
    middle, old, new, back, by omega, hold, hnew, hne, hb, rfl⟩

/-- The first element is another one, and the rest is left alone. -/
theorem of_zero {old new b c : Bytes} (hold : old.length = elementSize)
    (hnew : new.length = elementSize) (h : Replaced 0 (old ++ b) (new ++ c)) : old ≠ new ∧ b = c := by
  obtain ⟨front, old', new', back, hfront, hold', hnew', hne, hb, hc⟩ := h
  obtain rfl := List.eq_nil_of_length_eq_zero hfront
  rw [List.nil_append] at hb hc
  obtain ⟨rfl, rfl⟩ := List.append_inj hb (hold.trans hold'.symm)
  obtain ⟨rfl, rfl⟩ := List.append_inj hc (hnew.trans hnew'.symm)
  exact ⟨hne, rfl⟩

variable {F : Type} [ScalarField F] [ScalarField.Canonical F]

/-- Two byte strings that differ from a third in one element differ in it from each other. -/
theorem eq_or_replaced {offset : Nat} {b c c' : Bytes} (h : Replaced offset b c)
    (h' : Replaced offset b c') : c = c' ∨ Replaced offset c c' := by
  obtain ⟨front, old, new, back, hfront, hold, hnew, -, hb, rfl⟩ := h
  obtain ⟨front', old', new', back', hfront', hold', hnew', -, hb', rfl⟩ := h'
  obtain ⟨rfl, hrest⟩ := List.append_inj (hb.symm.trans hb') (hfront.trans hfront'.symm)
  obtain ⟨-, rfl⟩ := List.append_inj hrest (hold.trans hold'.symm)
  by_cases hne : new = new'
  · exact .inl (by rw [hne])
  · exact .inr ⟨front, new, new', back, hfront, hnew, hnew', hne, rfl, rfl⟩

/-- Of the scalars that stand behind each other, just the one whose bytes are replaced is another one,
and what stands behind them is left alone. -/
theorem scalars {zs zs' : List F} {back back' : Bytes} {i : Nat} (hi : i < zs.length)
    (hlength : zs'.length = zs.length)
    (h : Replaced (i * elementSize) (zs.flatMap ScalarField.encode ++ back)
      (zs'.flatMap ScalarField.encode ++ back')) :
    zs' ≠ zs ∧ back' = back ∧ ∀ j, j ≠ i → zs'[j]? = zs[j]? := by
  induction i generalizing zs zs' with
  | zero =>
    match zs, zs', hi, hlength with
    | z :: zs, z' :: zs', _, hlength =>
      rw [Nat.zero_mul, List.flatMap_cons, List.flatMap_cons, List.append_assoc,
        List.append_assoc] at h
      obtain ⟨hne, hrest⟩ := h.of_zero (ScalarField.Canonical.length_encode z)
        (ScalarField.Canonical.length_encode z')
      -- The scalars behind the replaced one are read from the same bytes.
      have hread := Reader.reads_times_self fun s (_ : s ∈ zs) => Reader.reads_scalar s
      have hread' := Reader.reads_times_self fun s (_ : s ∈ zs') => Reader.reads_scalar s
      rw [Nat.succ_inj.mp hlength] at hread'
      obtain ⟨rfl, rfl⟩ := hread.unique hread' hrest
      refine ⟨fun heq => hne ?_, rfl, fun j hj => ?_⟩
      · rw [(List.cons.inj heq).1]
      · cases j with
        | zero => exact absurd rfl hj
        | succ j => rfl
  | succ i ih =>
    match zs, zs', hi, hlength with
    | z :: zs, z' :: zs', hi, hlength =>
      rw [Nat.succ_mul, Nat.add_comm, ← ScalarField.Canonical.length_encode z, List.flatMap_cons,
        List.flatMap_cons, List.append_assoc, List.append_assoc] at h
      obtain ⟨rest, hrest, hreplaced⟩ := h.of_append
      obtain ⟨rfl, rfl⟩ := (Reader.reads_scalar z').unique (Reader.reads_scalar z) hrest
      rw [ScalarField.Canonical.length_encode] at hreplaced
      obtain ⟨hne, hback, hsame⟩ := ih (Nat.lt_of_succ_lt_succ hi) (Nat.succ_inj.mp hlength) hreplaced
      refine ⟨fun heq => hne (List.cons.inj heq).2, hback, fun j hj => ?_⟩
      cases j with
      | zero => rfl
      | succ j => exact hsame j fun heq => hj (congrArg _ heq)

end Bytes.Replaced

variable {F G : Type} [ScalarField F] [PointGroup F G]

/-! ## Where the responses stand -/

/-- The offsets of elements that stand behind each other. -/
def elementsBehind (front count : Nat) : List Nat :=
  (List.range count).map fun i => front + i * elementSize

/-- If one of several scalars behind a front is replaced, the front is left alone, and so are the other
scalars and what stands behind them. -/
theorem Bytes.Replaced.responses [ScalarField.Canonical F] {front front' back back' : Bytes}
    {zs zs' : List F} {offset : Nat}
    (h : Bytes.Replaced offset (front ++ (zs.flatMap ScalarField.encode ++ back))
      (front' ++ (zs'.flatMap ScalarField.encode ++ back')))
    (hoffset : offset ∈ elementsBehind front.length zs.length) (hlength : zs'.length = zs.length)
    (hfront : ∀ x y, front ++ x = front' ++ y → front.length = front'.length) :
    front' = front ∧ back' = back ∧ zs' ≠ zs ∧ ∃ i : Nat, ∀ j, j ≠ i → zs'[j]? = zs[j]? := by
  obtain ⟨i, hi, rfl⟩ := List.mem_map.mp hoffset
  obtain ⟨rest, hrest, hreplaced⟩ := h.of_append
  obtain ⟨rfl, rfl⟩ := List.append_inj hrest (hfront _ _ hrest.symm).symm
  obtain ⟨hne, hback, hsame⟩ := hreplaced.scalars (List.mem_range.mp hi) hlength
  exact ⟨rfl, hback, hne, i, hsame⟩

section

variable [ScalarField.Canonical F] [ScalarField.SingleForm F] [PointGroup.Canonical F G]

theorem CanonicalEncoding.toBytes_inj {α : Type} {toBytes : α → Bytes} {ofBytes : Bytes → Outcome α}
    {WellFormed : α → Prop} (h : CanonicalEncoding toBytes ofBytes WellFormed) {a a' : α}
    (ha : WellFormed a) (ha' : WellFormed a') (heq : toBytes a = toBytes a') : a = a' := by
  have hread := h.ofBytes_toBytes a ha
  rw [heq, h.ofBytes_toBytes a' ha'] at hread
  exact (Except.ok.inj hread).symm

namespace SerialProof

/-- The bytes in front of the response. -/
def front (proof : SerialProof F G) : Bytes :=
  PointGroup.encode proof.statement.serial ++ PointGroup.encode proof.statement.publicKey
    ++ ScalarField.encode proof.statement.derivator ++ PointGroup.encode proof.keyMask
    ++ PointGroup.encode proof.serialMask

/-- The offset of the response. -/
def responseOffsets : List Nat :=
  elementsBehind (5 * elementSize) 1

omit [ScalarField.SingleForm F] in
theorem length_front (proof : SerialProof F G) : proof.front.length = 5 * elementSize := by
  simp [front, PointGroup.Canonical.length_encode, ScalarField.Canonical.length_encode, elementSize]

omit [ScalarField.Canonical F] [ScalarField.SingleForm F] [PointGroup.Canonical F G] in
theorem toBytes_eq (proof : SerialProof F G) :
    proof.toBytes = proof.front ++ ([proof.response].flatMap ScalarField.encode ++ []) := by
  simp [toBytes, front]

theorem of_replaced {p q : SerialProof F G} {offset : Nat} (hoffset : offset ∈ responseOffsets)
    (h : Bytes.Replaced offset p.toBytes q.toBytes) :
    ∃ response, response ≠ p.response ∧ q = { p with response } := by
  rw [toBytes_eq, toBytes_eq] at h
  rw [responseOffsets, ← p.length_front] at hoffset
  obtain ⟨hfront, -, hne, -⟩ := h.responses hoffset rfl fun _ _ _ => p.length_front.trans q.length_front.symm
  refine ⟨q.response, fun heq => hne (by rw [heq]), ?_⟩
  apply canonical.toBytes_inj trivial trivial
  rw [toBytes_eq, hfront, toBytes_eq]
  rfl

end SerialProof

namespace HiddenSerialProof

/-- The bytes in front of the responses. -/
def front (proof : HiddenSerialProof F G) : Bytes :=
  PointGroup.encode proof.serial ++ PointGroup.encode proof.derivatorCommitment
    ++ PointGroup.encode proof.keyMask ++ PointGroup.encode proof.derivatorMask
    ++ PointGroup.encode proof.serialMask

/-- The responses in the order of their encodings. -/
def responses (proof : HiddenSerialProof F G) : List F :=
  [proof.response.key, proof.response.keyBlinding, proof.response.derivator,
    proof.response.derivatorBlinding]

/-- The offsets of the responses. -/
def responseOffsets : List Nat :=
  elementsBehind (5 * elementSize) 4

omit [ScalarField.Canonical F] [ScalarField.SingleForm F] in
theorem length_front (proof : HiddenSerialProof F G) : proof.front.length = 5 * elementSize := by
  simp [front, PointGroup.Canonical.length_encode, elementSize]

omit [ScalarField.Canonical F] [ScalarField.SingleForm F] [PointGroup.Canonical F G] in
theorem toBytes_eq (proof : HiddenSerialProof F G) :
    proof.toBytes = proof.front ++ (proof.responses.flatMap ScalarField.encode ++ []) := by
  simp [toBytes, front, responses]

theorem of_replaced {p q : HiddenSerialProof F G} {offset : Nat} (hoffset : offset ∈ responseOffsets)
    (h : Bytes.Replaced offset p.toBytes q.toBytes) :
    ∃ response, response ≠ p.response ∧ q = { p with response } ∧
      (response.key = p.response.key ∨ response.keyBlinding = p.response.keyBlinding) ∧
      (response.derivator = p.response.derivator ∨
        response.derivatorBlinding = p.response.derivatorBlinding) := by
  rw [toBytes_eq, toBytes_eq] at h
  rw [responseOffsets, ← p.length_front] at hoffset
  obtain ⟨hfront, -, hne, i, hsame⟩ :=
    h.responses hoffset rfl fun _ _ _ => p.length_front.trans q.length_front.symm
  refine ⟨q.response, fun heq => hne (by rw [responses, heq, responses]), ?_, ?_, ?_⟩
  · apply canonical.toBytes_inj trivial trivial
    rw [toBytes_eq, hfront, toBytes_eq]
    rfl
  · by_cases hi : i = 0
    · exact Or.inr (Option.some.inj (hsame 1 (by omega)))
    · exact Or.inl (Option.some.inj (hsame 0 (by omega)))
  · by_cases hi : i = 2
    · exact Or.inr (Option.some.inj (hsame 3 (by omega)))
    · exact Or.inl (Option.some.inj (hsame 2 (by omega)))

end HiddenSerialProof

namespace RingProof

/-- The bytes in front of the responses. -/
def front (proof : RingProof F G) : Bytes :=
  proof.cl.toList.flatMap PointGroup.encode ++ proof.ca.toList.flatMap PointGroup.encode
    ++ proof.cb.toList.flatMap PointGroup.encode ++ proof.cd.toList.flatMap PointGroup.encode

/-- The responses in the order of their encodings. -/
def responses (proof : RingProof F G) : List F :=
  proof.f.toList ++ (proof.za.toList ++ (proof.zb.toList ++ [proof.zd]))

/-- The offsets of the responses. -/
def responseOffsets : List Nat :=
  elementsBehind (4 * ringDepth * elementSize) (3 * ringDepth + 1)

omit [ScalarField.Canonical F] [ScalarField.SingleForm F] in
theorem length_front (proof : RingProof F G) :
    proof.front.length = 4 * ringDepth * elementSize := by
  unfold front
  simp only [List.length_append, length_perBit (PointGroup.Canonical.length_encode (F := F) (G := G))]
  rfl

omit [ScalarField F] [PointGroup F G] [ScalarField.Canonical F] [ScalarField.SingleForm F]
  [PointGroup.Canonical F G] in
theorem length_responses (proof : RingProof F G) : proof.responses.length = 3 * ringDepth + 1 := by
  simp only [responses, List.length_append, Vector.length_toList, List.length_cons, List.length_nil]
  omega

omit [ScalarField.Canonical F] [ScalarField.SingleForm F] [PointGroup.Canonical F G] in
theorem toBytes_eq (proof : RingProof F G) :
    proof.toBytes = proof.front ++ (proof.responses.flatMap ScalarField.encode ++ []) := by
  simp [toBytes, front, responses]

omit [ScalarField F] [PointGroup F G] [ScalarField.Canonical F] [ScalarField.SingleForm F]
  [PointGroup.Canonical F G] in
theorem responses_getElem? (proof : RingProof F G) (j : Fin ringDepth) :
    proof.responses[j.val]? = some (proof.f.get j) ∧
      proof.responses[ringDepth + j.val]? = some (proof.za.get j) := by
  have hvector (v : Vector F ringDepth) (rest : List F) :
      (v.toList ++ rest)[j.val]? = some (v.get j) := by
    rw [List.getElem?_append_left (by simp), Vector.getElem?_toList, Vector.getElem?_eq_getElem j.isLt]
    rfl
  refine ⟨hvector _ _, ?_⟩
  rw [responses, List.getElem?_append_right (by simp), Vector.length_toList, Nat.add_sub_cancel_left]
  exact hvector _ _

theorem of_replaced {p q : RingProof F G} {offset : Nat} (hoffset : offset ∈ responseOffsets)
    (h : Bytes.Replaced offset p.toBytes q.toBytes) :
    ∃ z, q = p.withResponses z ∧ q ≠ p ∧
      ∀ j : Fin ringDepth, z.f.get j = p.f.get j ∨ z.za.get j = p.za.get j := by
  rw [toBytes_eq, toBytes_eq] at h
  rw [responseOffsets, ← p.length_front, ← p.length_responses] at hoffset
  obtain ⟨hfront, -, hne, i, hsame⟩ := h.responses hoffset
    (q.length_responses.trans p.length_responses.symm)
    fun _ _ _ => p.length_front.trans q.length_front.symm
  refine ⟨⟨q.f, q.za, q.zb, q.zd⟩, ?_, fun heq => hne (by rw [heq]), fun j => ?_⟩
  · apply canonical.toBytes_inj trivial trivial
    rw [toBytes_eq, hfront, toBytes_eq]
    rfl
  · obtain ⟨hf, hza⟩ := p.responses_getElem? j
    obtain ⟨hf', hza'⟩ := q.responses_getElem? j
    by_cases hi : i = j.val
    · have hother := hsame (ringDepth + j.val) (by simp [hi, ringDepth])
      rw [hza, hza'] at hother
      exact Or.inr (Option.some.inj hother)
    · have hother := hsame j.val fun heq => hi heq.symm
      rw [hf, hf'] at hother
      exact Or.inl (Option.some.inj hother)

end RingProof

namespace RangeProof

/-- The version and the number of commitments. -/
def head (proof : RangeProof F G) : Bytes :=
  versionBytes proof.version ++ Writer.count proof.commitments.length

/-- The bytes in front of the responses. -/
def front (proof : RangeProof F G) : Bytes :=
  proof.head ++ (proof.commitments.flatMap PointGroup.encode
    ++ (PointGroup.encode proof.a ++ (PointGroup.encode proof.s ++ (PointGroup.encode proof.t1
    ++ PointGroup.encode proof.t2))))

/-- The offsets of the responses to the polynomial check. -/
def responseOffsets (proof : RangeProof F G) : List Nat :=
  elementsBehind (proof.head.length + (proof.commitments.length + 4) * elementSize) 2

omit [ScalarField.Canonical F] [ScalarField.SingleForm F] in
theorem length_front (proof : RangeProof F G) :
    proof.front.length = proof.head.length + (proof.commitments.length + 4) * elementSize := by
  simp only [front, List.length_append, PointGroup.Canonical.length_encode,
    length_flatMap_of_forall (PointGroup.Canonical.length_encode (F := F) (G := G)), Nat.add_mul]
  omega

omit [ScalarField.Canonical F] [ScalarField.SingleForm F] [PointGroup.Canonical F G] in
theorem toBytes_eq_front (proof : RangeProof F G) :
    proof.toBytes = proof.front ++ ([proof.tauX, proof.tHat].flatMap ScalarField.encode
      ++ (ScalarField.encode proof.mu ++ proof.argument.toBytes)) := by
  simp [toBytes_eq, front, head]

omit [ScalarField.Canonical F] [ScalarField.SingleForm F] in
/-- The head tells how long the front is. -/
theorem length_front_eq {p q : RangeProof F G} (hp : p.Fits) (hq : q.Fits) {x y : Bytes}
    (h : p.front ++ x = q.front ++ y) : p.front.length = q.front.length := by
  have hhead (proof : RangeProof F G) (hfits : proof.Fits) :
      headReader.Reads proof.head (proof.version, proof.commitments.length) :=
    reads_headReader hfits.version (fun hzero => hfits.nonempty (List.eq_nil_of_length_eq_zero hzero))
      (hfits.count.trans (by decide))
  simp only [front, List.append_assoc] at h
  obtain ⟨heq, -⟩ := (hhead p hp).unique (hhead q hq) h
  rw [Prod.mk.injEq] at heq
  rw [length_front, length_front, head, head, heq.1, heq.2]

theorem of_replaced {p q : RangeProof F G} (hp : p.Fits) (hq : q.Fits) {offset : Nat}
    (hoffset : offset ∈ p.responseOffsets) (h : Bytes.Replaced offset p.toBytes q.toBytes) :
    ∃ tauX tHat, q = { p with tauX, tHat } ∧ ¬(tauX = p.tauX ∧ tHat = p.tHat) ∧
      (tauX = p.tauX ∨ tHat = p.tHat) := by
  rw [toBytes_eq_front, toBytes_eq_front] at h
  rw [responseOffsets, ← p.length_front] at hoffset
  obtain ⟨hfront, hback, hne, i, hsame⟩ := h.responses hoffset rfl fun _ _ => length_front_eq hp hq
  refine ⟨q.tauX, q.tHat, ?_, fun heq => hne (by rw [heq.1, heq.2]), ?_⟩
  · refine canonical.toBytes_inj hq ⟨hp.version, hp.nonempty, hp.count, hp.rounds⟩ ?_
    rw [toBytes_eq_front, hfront, hback, toBytes_eq_front]
    rfl
  · by_cases hi : i = 0
    · exact Or.inr (Option.some.inj (hsame 1 (by omega)))
    · exact Or.inl (Option.some.inj (hsame 0 (by omega)))

end RangeProof

end

end ShieldedPayments
