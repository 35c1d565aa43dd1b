import ShieldedPayments.Proofs.Fault
import ShieldedPayments.Tape

/-!
# Running computations on a tape

A sequence of computations that read a tape runs them one after the other, each on what the one before
it left. What a sequence returns, its parts return on some tape (`Proving.Returns`), which is all that
matters where a statement holds whatever was drawn. A sequence succeeds on every tape if each part does
after what the parts before it return (`Proving.Succeeds`), and it is undefined on no tape if no part
is (`Proving.Defined`).
-/

namespace ShieldedPayments

variable {α β : Type}

theorem Tape.length_draw (n : Nat) (t : Tape) : (t.draw n).1.length = n := by
  induction n generalizing t with
  | zero => rfl
  | succ n ih => simp [Tape.draw, ih]

namespace Drawing

theorem run_bind (x : Drawing α) (f : α → Drawing β) (t : Tape) :
    (x >>= f).run t = (f (x.run t).1).run (x.run t).2 := rfl

theorem run_pure (a : α) (t : Tape) : (pure a : Drawing α).run t = (a, t) := rfl

theorem length_run_bytes (n : Nat) (t : Tape) : ((bytes n).run t).1.length = n :=
  Tape.length_draw n t

end Drawing

namespace Proving

theorem runOn_bind (x : Proving α) (f : α → Proving β) (t : Tape) :
    (x >>= f).runOn t =
      match x.runOn t with
      | (.ok a, t) => (f a).runOn t
      | (.error fault, t) => (.error fault, t) := by
  show (ExceptT.run (x >>= f)).run t = _
  rw [ExceptT.run_bind, Drawing.run_bind]
  unfold runOn
  obtain ⟨a | a, t⟩ := (ExceptT.run x).run t <;> rfl

theorem runOn_pure (a : α) (t : Tape) : (pure a : Proving α).runOn t = (.ok a, t) := rfl

theorem runOn_outcome (x : Outcome α) (t : Tape) : (liftM x : Proving α).runOn t = (x, t) := by
  cases x <;> rfl

theorem runOn_lift (x : Drawing α) (t : Tape) :
    runOn (ExceptT.lift x) t = (.ok (x.run t).1, (x.run t).2) := rfl

/-- Two steps return what the second one does on the tape that the first one leaves. -/
theorem runOn_bind_eq_ok_iff {x : Proving α} {f : α → Proving β} {t : Tape} {b : β} :
    ((x >>= f).runOn t).1 = .ok b ↔
      ∃ a, (x.runOn t).1 = .ok a ∧ ((f a).runOn (x.runOn t).2).1 = .ok b := by
  rw [runOn_bind]
  obtain ⟨outcome, rest⟩ := x.runOn t
  cases outcome with
  | error e =>
    constructor
    · intro h
      cases h
    · rintro ⟨_, h, _⟩
      cases h
  | ok a => exact ⟨fun h => ⟨a, rfl, h⟩, fun ⟨_, h, hf⟩ => Except.ok.inj h ▸ hf⟩

/-- A check before other steps leaves the tape to them. -/
theorem runOn_outcome_bind_eq_ok_iff {x : Outcome α} {f : α → Proving β} {t : Tape} {b : β} :
    ((liftM x >>= f : Proving β).runOn t).1 = .ok b ↔ ∃ a, x = .ok a ∧ ((f a).runOn t).1 = .ok b := by
  rw [runOn_bind_eq_ok_iff, runOn_outcome]

theorem runOn_lift_bind (x : Drawing α) (f : α → Proving β) (t : Tape) :
    (ExceptT.lift x >>= f : Proving β).runOn t = (f (x.run t).1).runOn (x.run t).2 := by
  rw [runOn_bind, runOn_lift]

/-! ## What is returned on some tape -/

/-- A computation returns a value on some tape. -/
def Returns (p : Proving α) (a : α) : Prop :=
  ∃ t t', p.runOn t = (.ok a, t')

theorem returns_iff {p : Proving α} {a : α} : p.Returns a ↔ ∃ t, (p.runOn t).1 = .ok a := by
  refine exists_congr fun t => ⟨?_, fun h => ⟨(p.runOn t).2, Prod.ext h rfl⟩⟩
  rintro ⟨t', h⟩
  rw [h]

/-- What returns nothing is refused on every tape. -/
theorem refuses_of_not_returns {p : Proving α} (h : ∀ a, ¬p.Returns a) (t : Tape) :
    ∃ fault, (p.runOn t).1 = .error fault := by
  cases hrun : (p.runOn t).1 with
  | error fault => exact ⟨fault, rfl⟩
  | ok a => exact absurd (returns_iff.mpr ⟨t, hrun⟩) (h a)

theorem Returns.bind {x : Proving α} {f : α → Proving β} {b : β} (h : (x >>= f).Returns b) :
    ∃ a, x.Returns a ∧ (f a).Returns b := by
  obtain ⟨t, h⟩ := returns_iff.mp h
  obtain ⟨a, hx, hf⟩ := runOn_bind_eq_ok_iff.mp h
  exact ⟨a, returns_iff.mpr ⟨t, hx⟩, returns_iff.mpr ⟨_, hf⟩⟩

theorem returns_pure_iff {a b : α} : (pure a : Proving α).Returns b ↔ a = b := by
  constructor
  · rintro ⟨t, t', h⟩
    cases h
    rfl
  · rintro rfl
    exact ⟨⟨[], fun _ => [], 0⟩, _, rfl⟩

theorem returns_outcome_iff {x : Outcome α} {a : α} : (liftM x : Proving α).Returns a ↔ x = .ok a := by
  constructor
  · rintro ⟨t, t', h⟩
    rw [runOn_outcome] at h
    exact congrArg Prod.fst h
  · rintro rfl
    exact ⟨⟨[], fun _ => [], 0⟩, _, runOn_outcome _ _⟩

/-- A check before other steps. -/
theorem Returns.outcome_bind {x : Outcome α} {f : α → Proving β} {b : β}
    (h : (liftM x >>= f : Proving β).Returns b) : ∃ a, x = .ok a ∧ (f a).Returns b := by
  obtain ⟨a, ha, hf⟩ := h.bind
  exact ⟨a, returns_outcome_iff.mp ha, hf⟩

theorem Returns.lift {x : Drawing α} {a : α} (h : Returns (ExceptT.lift x : Proving α) a) :
    ∃ t, (x.run t).1 = a := by
  obtain ⟨t, t', h⟩ := h
  rw [runOn_lift] at h
  exact ⟨t, Except.ok.inj (congrArg Prod.fst h)⟩

/-- The steps of a loop return one after the other. -/
theorem Returns.mapM {f : α → Proving β} {as : List α} {bs : List β} (h : (as.mapM f).Returns bs) :
    List.Forall₂ (fun a b => (f a).Returns b) as bs := by
  induction as generalizing bs with
  | nil =>
    rw [List.mapM_nil, returns_pure_iff] at h
    rw [← h]
    exact List.Forall₂.nil
  | cons a as ih =>
    rw [List.mapM_cons] at h
    obtain ⟨b, hb, h⟩ := h.bind
    obtain ⟨rest, hrest, h⟩ := h.bind
    rw [← returns_pure_iff.mp h]
    exact List.Forall₂.cons hb (ih hrest)

/-! ## What returns on every tape -/

/-- A computation refuses on no tape. -/
def Succeeds (p : Proving α) : Prop :=
  ∀ t, ∃ a t', p.runOn t = (.ok a, t')

theorem Succeeds.exists_returns {p : Proving α} (h : p.Succeeds) : ∃ a, p.Returns a := by
  obtain ⟨a, t', hrun⟩ := h ⟨[], fun _ => [], 0⟩
  exact ⟨a, _, t', hrun⟩

theorem succeeds_pure (a : α) : (pure a : Proving α).Succeeds :=
  fun t => ⟨a, t, rfl⟩

theorem succeeds_outcome {x : Outcome α} {a : α} (h : x = .ok a) : (liftM x : Proving α).Succeeds :=
  fun t => ⟨a, t, h ▸ runOn_outcome x t⟩

theorem succeeds_lift (x : Drawing α) : Succeeds (ExceptT.lift x : Proving α) :=
  fun t => ⟨_, _, runOn_lift x t⟩

/-- The second of two steps only has to succeed after what the first one returns. -/
theorem Succeeds.bind {x : Proving α} {f : α → Proving β} (hx : x.Succeeds)
    (hf : ∀ a, x.Returns a → (f a).Succeeds) : (x >>= f).Succeeds := by
  intro t
  obtain ⟨a, t', hrun⟩ := hx t
  obtain ⟨b, t'', hrun'⟩ := hf a ⟨t, t', hrun⟩ t'
  refine ⟨b, t'', ?_⟩
  rw [runOn_bind, hrun]
  exact hrun'

/-- A check that passes before other steps. -/
theorem Succeeds.outcome_bind {x : Outcome α} {f : α → Proving β} {a : α} (hx : x = .ok a)
    (hf : (f a).Succeeds) : (liftM x >>= f : Proving β).Succeeds := by
  intro t
  obtain ⟨b, t', hrun⟩ := hf t
  refine ⟨b, t', ?_⟩
  rw [runOn_bind, runOn_outcome, hx]
  exact hrun

theorem Succeeds.ensure_bind {condition : Bool} {fault : Fault} {f : Unit → Proving β}
    (h : condition = true) (hf : (f ()).Succeeds) :
    (liftM (ensure condition fault) >>= f : Proving β).Succeeds :=
  Succeeds.outcome_bind (ensure_eq_ok_iff.mpr h) hf

theorem Succeeds.require_bind {x : Option α} {fault : Fault} {f : α → Proving β} {a : α}
    (h : x = some a) (hf : (f a).Succeeds) :
    (liftM (require x fault) >>= f : Proving β).Succeeds :=
  Succeeds.outcome_bind (h ▸ require_some a fault) hf

theorem Succeeds.mapM {f : α → Proving β} {as : List α} (h : ∀ a ∈ as, (f a).Succeeds) :
    (as.mapM f).Succeeds := by
  induction as with
  | nil =>
    rw [List.mapM_nil]
    exact succeeds_pure []
  | cons a as ih =>
    rw [List.mapM_cons]
    refine Succeeds.bind (h a List.mem_cons_self) fun b _ => ?_
    refine Succeeds.bind (ih fun a' ha' => h a' (List.mem_cons_of_mem a ha')) fun bs _ => ?_
    exact succeeds_pure (b :: bs)

/-! ## What is undefined on no tape -/

/-- On every tape, a computation returns or refuses for a cause that has a wording. -/
def Defined (p : Proving α) : Prop :=
  ∀ t, (p.runOn t).1.Defined

theorem defined_pure (a : α) : (pure a : Proving α).Defined :=
  fun _ => Outcome.defined_ok a

theorem defined_outcome {x : Outcome α} (h : x.Defined) : (liftM x : Proving α).Defined := by
  intro t
  rw [runOn_outcome]
  exact h

theorem defined_lift (x : Drawing α) : Defined (ExceptT.lift x : Proving α) :=
  fun _ => Outcome.defined_ok _

theorem Defined.bind {x : Proving α} {f : α → Proving β} (hx : x.Defined)
    (hf : ∀ a, (f a).Defined) : (x >>= f).Defined := by
  intro t
  have hfirst := hx t
  rw [runOn_bind]
  generalize x.runOn t = first at hfirst
  obtain ⟨outcome, rest⟩ := first
  cases outcome with
  | error fault => exact Outcome.defined_error fun heq => hfirst (congrArg _ heq)
  | ok a => exact hf a rest

theorem Defined.mapM {f : α → Proving β} (h : ∀ a, (f a).Defined) (as : List α) :
    (as.mapM f).Defined := by
  induction as with
  | nil =>
    rw [List.mapM_nil]
    exact defined_pure []
  | cons a as ih =>
    rw [List.mapM_cons]
    exact (h a).bind fun b => ih.bind fun bs => defined_pure (b :: bs)

end Proving

end ShieldedPayments
