import ShieldedPayments.Proofs.Delivered

/-!
# The bytes that readers consume

Whatever the bytes are, a reader that succeeds has taken some of them off the front, and these bytes and
the delivered value belong together (`Reader.Consumes`). The property passes through sequences of readers
with the bytes one after the other, so that a record which was read is found to stand there in just the
bytes in which it is written. A reader that refuses what follows consumes a whole byte string
(`Reader.ConsumesAll`).

Elements are the fields for which this needs more than their lengths: no two byte strings are read as one
point (`PointGroup.Canonical`) or as one scalar (`ScalarField.SingleForm`).
-/

namespace ShieldedPayments.Reader

variable {α β : Type} {P : Bytes → α → Prop} {Q : Bytes → β → Prop}

/-- A reader takes the bytes `c` off the front and delivers `a` only where `P c a` holds. -/
def Consumes (r : Reader α) (P : Bytes → α → Prop) : Prop :=
  ∀ b a rest, r.runOn b = (.ok a, rest) → ∃ c, b = c ++ rest ∧ P c a

/-- A reader delivers `a` from the whole byte string `b` only where `P b a` holds, and leaves nothing. -/
def ConsumesAll (r : Reader α) (P : Bytes → α → Prop) : Prop :=
  ∀ b a rest, r.runOn b = (.ok a, rest) → rest = [] ∧ P b a

/-! ## Sequences of readers -/

/-- A step that fails ends a sequence of readers, so one that succeeded was followed by the next. -/
theorem runOn_bind_eq_ok_iff {r : Reader α} {f : α → Reader β} {b rest : Bytes} {x : β} :
    (r >>= f).runOn b = (.ok x, rest) ↔
      ∃ a middle, r.runOn b = (.ok a, middle) ∧ (f a).runOn middle = (.ok x, rest) := by
  rw [runOn_bind]
  obtain ⟨a | a, middle⟩ := r.runOn b
  · constructor
    · intro h
      cases h
    · rintro ⟨_, _, h, _⟩
      cases h
  · constructor
    · intro h
      exact ⟨a, middle, rfl, h⟩
    · rintro ⟨_, _, h, hf⟩
      cases h
      exact hf

theorem Consumes.bind {r : Reader α} {f : α → Reader β} (hr : r.Consumes P)
    (hf : ∀ c a, P c a → (f a).Consumes fun d x => Q (c ++ d) x) : (r >>= f).Consumes Q := by
  intro b x rest h
  obtain ⟨a, middle, hrun, hnext⟩ := runOn_bind_eq_ok_iff.mp h
  obtain ⟨c, hc, ha⟩ := hr b a middle hrun
  obtain ⟨d, hd, hx⟩ := hf c a ha middle x rest hnext
  refine ⟨c ++ d, ?_, hx⟩
  rw [hc, hd, List.append_assoc]

theorem Consumes.bind_all {r : Reader α} {f : α → Reader β} (hr : r.Consumes P)
    (hf : ∀ c a, P c a → (f a).ConsumesAll fun d x => Q (c ++ d) x) : (r >>= f).ConsumesAll Q := by
  intro b x rest h
  obtain ⟨a, middle, hrun, hnext⟩ := runOn_bind_eq_ok_iff.mp h
  obtain ⟨c, hc, ha⟩ := hr b a middle hrun
  rw [hc]
  exact hf c a ha middle x rest hnext

theorem consumes_pure {a : α} (h : P [] a) : (pure a : Reader α).Consumes P := by
  intro b x rest hrun
  cases hrun
  exact ⟨[], rfl, h⟩

theorem consumes_throw (e : Fault) : (throw e : Reader α).Consumes P := by
  intro b x rest hrun
  cases hrun

/-- A refusal in the middle of a reader. -/
theorem consumes_throw_bind (e : Fault) (f : α → Reader β) :
    ((throw e : Reader α) >>= f).Consumes Q :=
  (consumes_throw (P := fun _ _ => False) e).bind fun _ _ h => h.elim

theorem consumesAll_throw_bind (e : Fault) (f : α → Reader β) :
    ((throw e : Reader α) >>= f).ConsumesAll Q :=
  (consumes_throw (P := fun _ _ => False) e).bind_all fun _ _ h => h.elim

theorem consumes_outcome {x : Outcome α} (h : ∀ a, x = .ok a → P [] a) :
    (liftM x : Reader α).Consumes P := by
  cases x with
  | error e => exact consumes_throw e
  | ok a => exact consumes_pure (h a rfl)

/-- The last step of a reader. -/
theorem Consumes.bind_pure {r : Reader α} {f : α → β} (hr : r.Consumes P)
    (h : ∀ c a, P c a → Q c (f a)) : (r >>= fun a => pure (f a)).Consumes Q := by
  refine hr.bind fun c a ha => consumes_pure ?_
  rw [List.append_nil]
  exact h c a ha

/-- The end of a reader that refuses bytes which are left over. -/
theorem consumesAll_finish {a : α} (h : P [] a) :
    (finish >>= fun _ => pure a : Reader α).ConsumesAll P := by
  intro b x rest hrun
  obtain ⟨_, middle, hfinish, hpure⟩ := runOn_bind_eq_ok_iff.mp hrun
  cases hpure
  unfold finish at hfinish
  rw [runOn_rest_bind] at hfinish
  split at hfinish
  · next hempty =>
    cases hfinish
    rw [List.isEmpty_iff.mp hempty]
    exact ⟨rfl, h⟩
  · cases hfinish

theorem ConsumesAll.result {r : Reader α} (hr : r.ConsumesAll P) {b : Bytes} {a : α}
    (h : r.result b = .ok a) : P b a := by
  unfold Reader.result at h
  cases hrun : r.runOn b with
  | mk outcome rest =>
    rw [hrun] at h
    exact (hr b a rest (by rw [hrun, ← h])).2

/-- A record of fixed size that was read from as many bytes is written in just these bytes. -/
theorem Consumes.result_of_length {r : Reader α} {write : α → Bytes} {b : Bytes} {a : α}
    (hr : r.Consumes fun c a => c = write a) (hlength : b.length = (write a).length)
    (h : r.result b = .ok a) : write a = b := by
  unfold Reader.result at h
  cases hrun : r.runOn b with
  | mk outcome rest =>
    rw [hrun] at h
    obtain ⟨c, hc, rfl⟩ := hr b a rest (by rw [hrun, ← h])
    rw [hc, List.length_append, Nat.add_eq_left, List.length_eq_zero_iff] at hlength
    rw [hc, hlength, List.append_nil]

/-! ## Fields -/

theorem consumes_byte : byte.Consumes fun c x => c = [x] := by
  intro b x rest h
  unfold byte at h
  rw [runOn_rest_bind] at h
  cases b with
  | nil => cases h
  | cons y b =>
    cases h
    exact ⟨[x], rfl, rfl⟩

theorem consumes_bytes (n : Nat) : (bytes n).Consumes fun c b => c = b ∧ b.length = n := by
  intro b taken rest h
  rw [runOn_bytes] at h
  split at h
  · next hle =>
    cases h
    exact ⟨b.take n, (List.take_append_drop n b).symm, rfl, List.length_take_of_le hle⟩
  · cases h

theorem consumes_times {r : Reader α} {item : α → Bytes} (hr : r.Consumes fun c a => c = item a)
    (count : Nat) :
    (times r count).Consumes fun c as => as.length = count ∧ c = as.flatMap item := by
  induction count with
  | zero => exact consumes_pure ⟨rfl, rfl⟩
  | succ count ih =>
    refine hr.bind fun c a ha => ih.bind_pure ?_
    rintro d as ⟨hlength, has⟩
    rw [List.length_cons, hlength, List.flatMap_cons, ha, has]
    exact ⟨rfl, rfl⟩

section Elements

variable {F G : Type} [ScalarField F] [PointGroup F G]

theorem consumes_point [PointGroup.Canonical F G] :
    (point : Reader G).Consumes fun c p => c = PointGroup.encode p := by
  refine (consumes_bytes elementSize).bind ?_
  rintro b _ ⟨rfl, hlength⟩
  refine consumes_outcome fun p hp => ?_
  rw [pointOfBytes, if_pos hlength, require_eq_ok_iff] at hp
  rw [List.append_nil, PointGroup.Canonical.encode_of_decode b p hp]

theorem consumes_optPoint [PointGroup.Canonical F G] :
    (optPoint : Reader (Option G)).Consumes fun c p => c = Writer.optPoint p := by
  refine consumes_byte.bind ?_
  rintro _ x rfl
  simp only
  split
  · next hzero =>
    obtain rfl : x = 0 := UInt8.toNat_inj.mp hzero
    exact consumes_pure rfl
  · split
    · next helement =>
      obtain rfl : x = elementSize.toUInt8 := UInt8.toNat_inj.mp helement
      refine consumes_point.bind_pure ?_
      rintro _ p rfl
      rfl
    · exact consumes_throw _

/-- A point that has to be there stands behind its length byte. -/
theorem consumes_prefixedPoint [PointGroup.Canonical F G] :
    (prefixedPoint : Reader G).Consumes fun c p => c = Writer.optPoint (some p) := by
  refine consumes_optPoint.bind ?_
  rintro c p rfl
  cases p with
  | none => exact consumes_throw _
  | some p => exact consumes_pure (List.append_nil _)

theorem consumes_scalar [ScalarField.SingleForm F] :
    (scalar : Reader F).Consumes fun c s => c = ScalarField.encode s := by
  refine (consumes_bytes elementSize).bind ?_
  rintro b _ ⟨rfl, hlength⟩
  refine consumes_outcome fun s hs => ?_
  rw [scalarOfBytes, if_pos hlength, require_eq_ok_iff] at hs
  rw [List.append_nil, ScalarField.SingleForm.encode_of_decode b s hs]

end Elements

end ShieldedPayments.Reader
