import ShieldedPayments.Coin.Account
import ShieldedPayments.Proofs.Wire

/-!
# What readers deliver

Whatever the bytes are, a reader that succeeds delivers a value within the bounds that its counts and
lengths set, and has taken a number of bytes that fits the value (`Reader.Takes`). The property passes
through sequences of readers, and holds for the result of a reader on a byte string
(`Reader.Takes.result`).
-/

namespace ShieldedPayments.Reader

variable {α β : Type} {P : Nat → α → Prop} {Q : Nat → β → Prop}

/-- A reader takes `n` bytes and delivers `a` only where `P n a` holds. -/
def Takes (r : Reader α) (P : Nat → α → Prop) : Prop :=
  ∀ b a rest, r.runOn b = (.ok a, rest) → ∃ n, b.length = n + rest.length ∧ P n a

/-! ## Sequences of readers -/

theorem Takes.bind {r : Reader α} {f : α → Reader β} (hr : r.Takes P)
    (hf : ∀ n a, P n a → (f a).Takes fun m x => Q (n + m) x) : (r >>= f).Takes Q := by
  intro b x rest h
  rw [runOn_bind] at h
  cases hrun : r.runOn b with
  | mk outcome middle =>
    rw [hrun] at h
    cases outcome with
    | error e => cases h
    | ok a =>
      obtain ⟨n, hn, ha⟩ := hr b a middle hrun
      obtain ⟨m, hm, hx⟩ := hf n a ha middle x rest h
      exact ⟨n + m, by omega, hx⟩

theorem Takes.mono {r : Reader α} {P' : Nat → α → Prop} (hr : r.Takes P)
    (h : ∀ n a, P n a → P' n a) : r.Takes P' := by
  intro b a rest hrun
  obtain ⟨n, hn, ha⟩ := hr b a rest hrun
  exact ⟨n, hn, h n a ha⟩

theorem takes_pure {a : α} (h : P 0 a) : (pure a : Reader α).Takes P := by
  intro b x rest hrun
  cases hrun
  exact ⟨0, (Nat.zero_add _).symm, h⟩

theorem takes_throw (e : Fault) : (throw e : Reader α).Takes P := by
  intro b x rest hrun
  cases hrun

/-- A refusal in the middle of a reader. -/
theorem takes_throw_bind (e : Fault) (f : α → Reader β) :
    ((throw e : Reader α) >>= f).Takes Q :=
  (takes_throw (P := fun _ _ => False) e).bind fun _ _ h => h.elim

theorem takes_outcome {x : Outcome α} (h : ∀ a, x = .ok a → P 0 a) :
    (liftM x : Reader α).Takes P := by
  cases x with
  | error e => exact takes_throw e
  | ok a => exact takes_pure (h a rfl)

/-- The last step of a reader. -/
theorem Takes.bind_pure {r : Reader α} {f : α → β} (hr : r.Takes P)
    (h : ∀ n a, P n a → Q n (f a)) : (r >>= fun a => pure (f a)).Takes Q :=
  hr.bind fun n a ha => takes_pure (h n a ha)

/-- A record inside a byte string that is read first. -/
theorem Takes.bind_outcome {r : Reader α} {f : α → Outcome β} (hr : r.Takes P)
    (h : ∀ n a x, P n a → f a = .ok x → Q n x) : (r >>= fun a => liftM (f a) : Reader β).Takes Q :=
  hr.bind fun n a ha => takes_outcome fun x hx => h n a x ha hx

theorem Takes.result {r : Reader α} (hr : r.Takes P) {b : Bytes} {a : α} (h : r.result b = .ok a) :
    ∃ n, n ≤ b.length ∧ P n a := by
  unfold Reader.result at h
  cases hrun : r.runOn b with
  | mk outcome rest =>
    rw [hrun] at h
    obtain ⟨n, hn, ha⟩ := hr b a rest (by rw [hrun, ← h])
    exact ⟨n, by omega, ha⟩

/-! ## Fields -/

theorem takes_rest : rest.Takes fun n _ => n = 0 := by
  intro b x rest h
  cases h
  exact ⟨0, (Nat.zero_add _).symm, rfl⟩

theorem takes_byte : byte.Takes fun n _ => n = 1 := by
  intro b x rest h
  unfold byte at h
  rw [runOn_rest_bind] at h
  cases b with
  | nil => cases h
  | cons y b =>
    cases h
    exact ⟨1, Nat.add_comm _ _, rfl⟩

theorem takes_bytes (k : Nat) : (bytes k).Takes fun n b => n = k ∧ b.length = k := by
  intro b x rest h
  rw [runOn_bytes] at h
  split at h
  · next hle =>
    cases h
    refine ⟨k, ?_, rfl, List.length_take_of_le hle⟩
    rw [List.length_drop]
    omega
  · cases h

theorem takes_number (width : Nat) :
    (number width).Takes fun n v => n = width ∧ v < 256 ^ width := by
  refine (takes_bytes width).bind_pure ?_
  rintro n b ⟨hn, hb⟩
  refine ⟨hn, ?_⟩
  rw [← hb]
  exact Bytes.toNatBE_lt b

theorem takes_prefixed (width : Nat) :
    (prefixed width).Takes fun n b => n = width + b.length ∧ b.length < 256 ^ width := by
  refine (takes_number width).bind ?_
  rintro n v ⟨rfl, hv⟩
  refine (takes_bytes v).mono ?_
  rintro m b ⟨rfl, hb⟩
  rw [hb]
  exact ⟨rfl, hv⟩

/-- A record behind a length, of which nothing is to be known. -/
theorem takes_parsed (width : Nat) (parse : Bytes → Outcome α) :
    (prefixed width >>= fun b => liftM (parse b) : Reader α).Takes fun _ _ => True :=
  (takes_prefixed width).bind_outcome fun _ _ _ _ _ => trivial

theorem takes_finish : finish.Takes fun n _ => n = 0 := by
  intro b x rest h
  unfold finish at h
  rw [runOn_rest_bind] at h
  split at h
  · cases h
    exact ⟨0, (Nat.zero_add _).symm, rfl⟩
  · cases h

/-- The end of a reader that refuses bytes which are left over. -/
theorem takes_finish_pure {a : α} (h : P 0 a) :
    (finish >>= fun _ => pure a : Reader α).Takes P := by
  refine takes_finish.bind_pure ?_
  rintro _ _ rfl
  exact h

theorem takes_times {r : Reader α} {P : α → Prop} (hr : r.Takes fun _ a => P a) (count : Nat) :
    (times r count).Takes fun _ as => as.length = count ∧ ∀ a ∈ as, P a := by
  induction count with
  | zero => exact takes_pure ⟨rfl, fun _ h => absurd h List.not_mem_nil⟩
  | succ count ih =>
    refine hr.bind fun _ a ha => ih.bind_pure ?_
    rintro _ as ⟨hlength, has⟩
    rw [List.length_cons, hlength, List.forall_mem_cons]
    exact ⟨rfl, ha, has⟩

theorem takes_counted {r : Reader α} {P : α → Prop} (hr : r.Takes fun _ a => P a) :
    (counted r).Takes fun _ as => as.length ≤ 255 ∧ ∀ a ∈ as, P a := by
  refine takes_byte.bind fun _ count _ => (takes_times hr count.toNat).mono ?_
  rintro _ as ⟨hlength, has⟩
  have hcount : count.toNat < 256 := count.toNat_lt
  exact ⟨by omega, has⟩

/-! ## Elements -/

section Elements

variable {F G : Type} [ScalarField F] [PointGroup F G]

omit [ScalarField F] in
theorem takes_point : (point : Reader G).Takes fun n _ => n = elementSize :=
  (takes_bytes elementSize).bind_outcome fun _ _ _ h _ => h.1

theorem takes_scalar : (scalar : Reader F).Takes fun n _ => n = elementSize :=
  (takes_bytes elementSize).bind_outcome fun _ _ _ h _ => h.1

theorem takes_optional {r : Reader α} (hr : r.Takes P) (subject : String) :
    (optional r subject).Takes fun n o =>
      (n = 1 ∧ o = none) ∨ ∃ m a, n = 1 + m ∧ o = some a ∧ P m a := by
  refine takes_byte.bind ?_
  rintro n x rfl
  simp only
  split
  · exact takes_pure (Or.inl ⟨rfl, rfl⟩)
  · split
    · exact hr.bind_pure fun m a ha => Or.inr ⟨m, a, rfl, rfl, ha⟩
    · exact takes_throw _

/-- An optional point takes as many bytes as it is written in. -/
theorem takes_optPoint [PointGroup.Canonical F G] :
    (optPoint : Reader (Option G)).Takes fun n p => n = (Writer.optPoint p).length := by
  refine (takes_optional takes_point _).mono ?_
  rintro n p (⟨rfl, rfl⟩ | ⟨m, q, rfl, rfl, rfl⟩)
  · rfl
  · rw [Writer.optPoint, List.length_append, PointGroup.Canonical.length_encode]
    rfl

theorem takes_optScalar [ScalarField.Canonical F] :
    (optScalar : Reader (Option F)).Takes fun n s => n = (Writer.optScalar s).length := by
  refine (takes_optional takes_scalar _).mono ?_
  rintro n s (⟨rfl, rfl⟩ | ⟨m, q, rfl, rfl, rfl⟩)
  · rfl
  · rw [Writer.optScalar, List.length_append, ScalarField.Canonical.length_encode]
    rfl

omit [ScalarField F] in
theorem takes_points : (points : Reader (List G)).Takes fun _ ps => ps.length ≤ 255 := by
  have hpoint : (prefixedPoint : Reader G).Takes fun _ _ => True := by
    unfold prefixedPoint
    refine (takes_optional takes_point _).bind fun _ p _ => ?_
    cases p with
    | none => exact takes_throw _
    | some p => exact takes_pure trivial
  exact (takes_counted hpoint).mono fun _ _ h => h.1

end Elements

/-- Bytes behind a length of either width have been parsed, whichever width was taken. -/
theorem takes_dualPrefixed {parse : Bytes → Outcome α}
    (h : ∀ b a, parse b = .ok a → P b.length a) :
    (dualPrefixed parse).Takes fun n a => ∃ m, m < n ∧ P m a := by
  have hwide : (do parse (← prefixed 2) : Reader α).Takes fun n a => ∃ m, m < n ∧ P m a := by
    refine (takes_prefixed 2).bind_outcome ?_
    rintro _ b a ⟨rfl, _⟩ ha
    exact ⟨b.length, by omega, h b a ha⟩
  intro b a rest hrun
  unfold dualPrefixed at hrun
  simp only at hrun
  rw [runOn_rest_bind] at hrun
  cases b with
  | nil => cases hrun
  | cons first tail =>
    simp only at hrun
    split at hrun
    · exact hwide _ a rest hrun
    · split at hrun
      · next hlength =>
        split at hrun
        · next parsed hparsed =>
          cases hrun
          have hvalue := h _ _ hparsed
          rw [hlength] at hvalue
          rw [List.length_take] at hlength
          refine ⟨1 + first.toNat, ?_, first.toNat, by omega, hvalue⟩
          rw [List.length_cons, List.length_drop]
          omega
        · exact hwide _ a rest hrun
      · cases hrun

end ShieldedPayments.Reader
