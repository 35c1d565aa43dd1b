import ShieldedPayments.Proofs.Group.Laws
import ShieldedPayments.Proofs.Bytes
import ShieldedPayments.Proofs.Fault

/-!
# Reading what was written

A reader reads a value from some bytes if it delivers the value and stops right behind them, whatever
follows (`Reader.Reads`). The property passes through sequences of readers, so the round trip of a
record follows from those of its fields, in the order in which they are written. A reader that
refuses what follows reads a value from a whole byte string (`Reader.ReadsAll`).

Counts and lengths are read back as they were written if they fit their width.
-/

namespace ShieldedPayments

namespace Reader

variable {α β : Type}

/-- A reader takes exactly the given bytes off the front, and delivers the given value. -/
def Reads (r : Reader α) (b : Bytes) (a : α) : Prop :=
  ∀ rest, r.runOn (b ++ rest) = (.ok a, rest)

theorem runOn_bind (r : Reader α) (f : α → Reader β) (b : Bytes) :
    (r >>= f).runOn b =
      match r.runOn b with
      | (.ok a, rest) => (f a).runOn rest
      | (.error e, rest) => (.error e, rest) := by
  show (ExceptT.run (r >>= f)).run b = _
  rw [ExceptT.run_bind, StateT.run_bind]
  unfold runOn
  obtain ⟨a | a, rest⟩ := (ExceptT.run r).run b <;> rfl

theorem runOn_rest_bind (f : Bytes → Reader α) (b : Bytes) :
    (rest >>= f).runOn b = (f b).runOn b := rfl

/-- Bytes that are not all there are not consumed. -/
theorem runOn_bytes (n : Nat) (b : Bytes) :
    (bytes n).runOn b =
      if n ≤ b.length then (.ok (b.take n), b.drop n)
      else (.error (.malformedEncoding "truncated buffer"), b) := by
  have htaken : (b.take n).length = n ↔ n ≤ b.length := by
    rw [List.length_take]
    omega
  unfold bytes
  rw [runOn_rest_bind]
  simp only [htaken]
  split
  · rfl
  · rfl

theorem reads_pure (a : α) : Reads (pure a) [] a := fun _ => rfl

theorem Reads.bind {r : Reader α} {f : α → Reader β} {b c : Bytes} {a : α} {x : β}
    (hr : r.Reads b a) (hf : (f a).Reads c x) : (r >>= f).Reads (b ++ c) x := by
  intro rest
  rw [runOn_bind, List.append_assoc, hr]
  exact hf rest

/-- A last step that takes no bytes. -/
theorem Reads.bind_nil {r : Reader α} {f : α → Reader β} {b : Bytes} {a : α} {x : β}
    (hr : r.Reads b a) (hf : (f a).Reads [] x) : (r >>= f).Reads b x := by
  have h := hr.bind hf
  rwa [List.append_nil] at h

/-- The last step of a reader, behind which nothing is read. -/
theorem Reads.bind_pure {r : Reader α} {b : Bytes} {a : α} (f : α → β) (hr : r.Reads b a) :
    (r >>= fun a => pure (f a)).Reads b (f a) :=
  hr.bind_nil (reads_pure (f a))

theorem Reads.result_eq {r : Reader α} {b : Bytes} {a : α} (h : r.Reads b a) :
    r.result b = .ok a := by
  have hrun := h []
  rw [List.append_nil] at hrun
  rw [result, hrun]

/-- What a reader takes off the front of some bytes, and what it leaves of them, is determined. -/
theorem Reads.unique {r : Reader α} {b c x y : Bytes} {a a' : α} (hb : r.Reads b a)
    (hc : r.Reads c a') (h : b ++ x = c ++ y) : a = a' ∧ x = y := by
  have hrun := hb x
  rw [h, hc y, Prod.mk.injEq] at hrun
  exact ⟨(Except.ok.inj hrun.1).symm, hrun.2.symm⟩

theorem reads_ok {x : Outcome α} {a : α} (h : x = .ok a) : Reads (liftM x : Reader α) [] a := by
  rw [h]
  exact reads_pure a

/-- A step that takes no bytes, in the middle of a reader. -/
theorem Reads.outcome_bind {x : Outcome α} {f : α → Reader β} {b : Bytes} {a : α} {y : β}
    (h : x = .ok a) (hf : (f a).Reads b y) : (liftM x >>= f).Reads b y :=
  (reads_ok h).bind hf

theorem reads_byte (x : UInt8) : byte.Reads [x] x := fun _ => rfl

theorem reads_bytes {n : Nat} {b : Bytes} (h : b.length = n) : (bytes n).Reads b b := by
  intro rest
  subst h
  have hle : b.length ≤ (b ++ rest).length := by
    rw [List.length_append]
    exact Nat.le_add_right _ _
  rw [runOn_bytes, if_pos hle, List.take_left, List.drop_left]

/-! ## Numbers and byte strings -/

theorem reads_count {n : Nat} (h : n ≤ 255) (f : Nat → Reader α) (c : Bytes) (x : α)
    (hf : (f n).Reads c x) : (byte >>= fun b => f b.toNat).Reads (Writer.count n ++ c) x := by
  refine (reads_byte _).bind ?_
  rwa [toNat_toUInt8 h]

theorem reads_number {width n : Nat} (h : n < 256 ^ width) :
    (number width).Reads (Writer.number width n) n := by
  have hb := (reads_bytes (Bytes.length_ofNatBE width n)).bind_pure Bytes.toNatBE
  rwa [Bytes.toNatBE_ofNatBE, Nat.mod_eq_of_lt h] at hb

theorem reads_prefixed {width : Nat} {b : Bytes} (h : b.length < 256 ^ width) :
    (prefixed width).Reads (Writer.prefixed width b) b :=
  (reads_number h).bind (reads_bytes rfl)

theorem number_one (n : Nat) : Writer.number 1 n = Writer.count n := rfl

theorem shortPrefixed_eq {b : Bytes} (h : b.length ≤ 255) :
    Writer.shortPrefixed b = Writer.prefixed 1 b := by
  rw [Writer.shortPrefixed, List.take_of_length_le h, Writer.prefixed, number_one]

theorem reads_shortPrefixed {b : Bytes} (h : b.length ≤ 255) :
    (prefixed 1).Reads (Writer.shortPrefixed b) b := by
  rw [shortPrefixed_eq h]
  exact reads_prefixed (by omega)

/-- A record inside a byte string with a length. -/
theorem reads_parsed {width : Nat} {parse : Bytes → Outcome α} {b : Bytes} {a : α}
    (h : b.length < 256 ^ width) (hparse : parse b = .ok a) :
    (prefixed width >>= fun b => liftM (parse b) : Reader α).Reads (Writer.prefixed width b) a :=
  (reads_prefixed h).bind_nil (reads_ok hparse)

theorem reads_shortParsed {parse : Bytes → Outcome α} {b : Bytes} {a : α} (h : b.length ≤ 255)
    (hparse : parse b = .ok a) :
    (prefixed 1 >>= fun b => liftM (parse b) : Reader α).Reads (Writer.shortPrefixed b) a := by
  rw [shortPrefixed_eq h]
  exact reads_parsed (by omega) hparse

/-! ## Lists -/

theorem reads_times {r : Reader β} (item : α → Bytes) (f : α → β) (as : List α)
    (h : ∀ a ∈ as, r.Reads (item a) (f a)) :
    (times r as.length).Reads (as.flatMap item) (as.map f) := by
  induction as with
  | nil => exact reads_pure []
  | cons a as ih =>
    rw [List.forall_mem_cons] at h
    rw [List.flatMap_cons]
    exact h.1.bind ((ih h.2).bind_pure (f a :: ·))

theorem reads_times_self {r : Reader α} {item : α → Bytes} {as : List α}
    (h : ∀ a ∈ as, r.Reads (item a) a) : (times r as.length).Reads (as.flatMap item) as := by
  have hread := reads_times item id as h
  rwa [List.map_id] at hread

theorem reads_counted {r : Reader β} (item : α → Bytes) (f : α → β) {as : List α}
    (hcount : as.length ≤ 255) (h : ∀ a ∈ as, r.Reads (item a) (f a)) :
    (counted r).Reads (Writer.counted item as) (as.map f) :=
  reads_count hcount (times r) _ _ (reads_times item f as h)

theorem reads_counted_self {r : Reader α} {item : α → Bytes} {as : List α}
    (hcount : as.length ≤ 255) (h : ∀ a ∈ as, r.Reads (item a) a) :
    (counted r).Reads (Writer.counted item as) as :=
  reads_count hcount (times r) _ _ (reads_times_self h)

/-! ## Whole byte strings -/

/-- A reader delivers a value from a whole byte string, and leaves nothing. -/
def ReadsAll (r : Reader α) (b : Bytes) (a : α) : Prop :=
  r.runOn b = (.ok a, [])

theorem Reads.bind_all {r : Reader α} {f : α → Reader β} {b c : Bytes} {a : α} {x : β}
    (hr : r.Reads b a) (hf : (f a).ReadsAll c x) : (r >>= f).ReadsAll (b ++ c) x := by
  unfold ReadsAll
  rw [runOn_bind, hr]
  exact hf

/-- The end of a reader that refuses bytes which are left over. -/
theorem Reads.bind_finish {r : Reader α} {b : Bytes} {a : α} (f : α → β) (hr : r.Reads b a) :
    (r >>= fun a => finish >>= fun _ => pure (f a)).ReadsAll b (f a) := by
  rw [← List.append_nil b]
  exact hr.bind_all (f := fun a => finish >>= fun _ => pure (f a)) rfl

/-- A first byte that a reader of a whole byte string looks at. -/
theorem ReadsAll.byte_bind {f : UInt8 → Reader α} {x : UInt8} {b : Bytes} {a : α}
    (hf : (f x).ReadsAll b a) : (byte >>= f).ReadsAll (x :: b) a :=
  (reads_byte x).bind_all hf

/-- A look at all bytes that are left. -/
theorem ReadsAll.rest_bind {f : Bytes → Reader α} {b : Bytes} {a : α} (hf : (f b).ReadsAll b a) :
    (rest >>= f).ReadsAll b a := hf

theorem ReadsAll.result_eq {r : Reader α} {b : Bytes} {a : α} (h : r.ReadsAll b a) :
    r.result b = .ok a := by
  rw [result, h]

end Reader

section Elements

variable {F G : Type} [ScalarField F] [PointGroup F G]

theorem pointOfBytes_encode [PointGroup.Canonical F G] (p : G) :
    pointOfBytes (PointGroup.encode p) = .ok p := by
  rw [pointOfBytes, if_pos (PointGroup.Canonical.length_encode p), PointGroup.Canonical.decode_encode,
    require_some]

theorem scalarOfBytes_encode [ScalarField.Canonical F] (s : F) :
    scalarOfBytes (ScalarField.encode s) = .ok s := by
  rw [scalarOfBytes, if_pos (ScalarField.Canonical.length_encode s),
    ScalarField.Canonical.decode_encode, require_some]

namespace Reader

theorem reads_point [PointGroup.Canonical F G] (p : G) :
    (point : Reader G).Reads (PointGroup.encode p) p :=
  (reads_bytes (PointGroup.Canonical.length_encode p)).bind_nil (reads_ok (pointOfBytes_encode p))

theorem reads_scalar [ScalarField.Canonical F] (s : F) :
    (scalar : Reader F).Reads (ScalarField.encode s) s :=
  (reads_bytes (ScalarField.Canonical.length_encode s)).bind_nil (reads_ok (scalarOfBytes_encode s))

/-- An optional element is told by its length byte. -/
theorem reads_optional_some {α : Type} {r : Reader α} {b : Bytes} {a : α} (subject : String)
    (h : r.Reads b a) :
    (optional r subject).Reads (Writer.count elementSize ++ b) (some a) := by
  have helement : (elementSize.toUInt8).toNat = elementSize := by decide
  refine (reads_byte _).bind ?_
  rw [helement, if_neg (by decide), if_pos rfl]
  exact h.bind_pure some

theorem reads_optional_none {α : Type} (r : Reader α) (subject : String) :
    (optional r subject).Reads (Writer.count 0) none := fun _ => rfl

theorem reads_optPoint [PointGroup.Canonical F G] (p : Option G) :
    (optPoint : Reader (Option G)).Reads (Writer.optPoint p) p := by
  cases p with
  | none => exact reads_optional_none _ _
  | some p => exact reads_optional_some _ (reads_point p)

theorem reads_optScalar [ScalarField.Canonical F] (s : Option F) :
    (optScalar : Reader (Option F)).Reads (Writer.optScalar s) s := by
  cases s with
  | none => exact reads_optional_none _ _
  | some s => exact reads_optional_some _ (reads_scalar s)

theorem reads_prefixedPoint [PointGroup.Canonical F G] (p : G) :
    (prefixedPoint : Reader G).Reads (Writer.optPoint (some p)) p :=
  (reads_optPoint (some p)).bind_nil (reads_pure p)

theorem reads_points [PointGroup.Canonical F G] {ps : List G} (h : ps.length ≤ 255) :
    (points : Reader (List G)).Reads (Writer.points ps) ps :=
  reads_counted_self h fun p _ => reads_prefixedPoint p

end Reader

namespace Writer

theorem length_optPoint [PointGroup.Canonical F G] (p : Option G) :
    1 ≤ (optPoint p).length ∧ (optPoint p).length ≤ 33 := by
  cases p with
  | none => exact ⟨Nat.le_refl 1, by simp [optPoint, count]⟩
  | some p =>
    have hp := PointGroup.Canonical.length_encode p
    simp [optPoint, count, hp, elementSize]

theorem length_optScalar [ScalarField.Canonical F] (s : Option F) :
    1 ≤ (optScalar s).length ∧ (optScalar s).length ≤ 33 := by
  cases s with
  | none => exact ⟨Nat.le_refl 1, by simp [optScalar, count]⟩
  | some s =>
    have hs := ScalarField.Canonical.length_encode s
    simp [optScalar, count, hs, elementSize]

end Writer

end Elements

end ShieldedPayments
