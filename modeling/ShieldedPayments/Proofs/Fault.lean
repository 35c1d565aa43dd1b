import Mathlib.Data.List.Forall2
import ShieldedPayments.Fault

/-!
# Computations that succeed

A chain of checks succeeds if each of them does. The lemmas turn `check = .ok a` into that statement,
one combinator at a time, so that what an accepted input satisfies can be read off the checks it
passed. And it is defined if each of them is (`Outcome.Defined`): what it refuses, it refuses for a cause
that has a wording.
-/

namespace ShieldedPayments

@[simp] theorem require_some {α : Type} (a : α) (fault : Fault) : require (some a) fault = .ok a :=
  rfl

@[simp] theorem require_none {α : Type} (fault : Fault) :
    require (none : Option α) fault = .error fault :=
  rfl

theorem ensure_eq_ok_iff {condition : Bool} {fault : Fault} {u : Unit} :
    ensure condition fault = .ok u ↔ condition = true := by
  cases condition <;> simp [ensure]

variable {α β : Type}

namespace Outcome

@[simp] theorem bind_eq_ok_iff {x : Outcome α} {f : α → Outcome β} {b : β} :
    x >>= f = .ok b ↔ ∃ a, x = .ok a ∧ f a = .ok b := by
  cases x with
  | error e =>
    constructor
    · intro h
      cases h
    · rintro ⟨_, h, _⟩
      cases h
  | ok a => exact ⟨fun h => ⟨a, rfl, h⟩, fun ⟨_, h, hf⟩ => Except.ok.inj h ▸ hf⟩

/-- A check before other steps. -/
theorem check_bind_eq_ok_iff {x : Outcome Unit} {f : Unit → Outcome β} {b : β} :
    x >>= f = .ok b ↔ x = .ok () ∧ f () = .ok b := by
  rw [bind_eq_ok_iff]
  exact ⟨fun ⟨_, hx, hf⟩ => ⟨hx, hf⟩, fun ⟨hx, hf⟩ => ⟨(), hx, hf⟩⟩

@[simp] theorem pure_eq_ok_iff {a b : α} : (pure a : Outcome α) = .ok b ↔ a = b :=
  ⟨Except.ok.inj, congrArg _⟩

@[simp] theorem mapError_eq_ok_iff {x : Outcome α} {f : Fault → Fault} {a : α} :
    x.mapError f = .ok a ↔ x = .ok a := by
  cases x with
  | error e => constructor <;> (intro h; cases h)
  | ok b => exact Iff.rfl

@[simp] theorem map_eq_ok_iff {x : Outcome α} {f : α → β} {b : β} :
    x.map f = .ok b ↔ ∃ a, x = .ok a ∧ f a = b := by
  cases x with
  | error e =>
    constructor
    · intro h
      cases h
    · rintro ⟨_, h, _⟩
      cases h
  | ok a => exact ⟨fun h => ⟨a, rfl, Except.ok.inj h⟩, fun ⟨_, h, hf⟩ => Except.ok.inj h ▸ congrArg _ hf⟩

theorem forM_eq_ok_iff {f : α → Outcome Unit} {xs : List α} {u : Unit} :
    xs.forM f = .ok u ↔ ∀ x ∈ xs, f x = .ok () := by
  induction xs with
  | nil => exact ⟨fun _ _ h => absurd h List.not_mem_nil, fun _ => rfl⟩
  | cons x xs ih =>
    rw [List.forall_mem_cons, ← ih]
    exact check_bind_eq_ok_iff

theorem mapM_eq_ok_iff {f : α → Outcome β} {xs : List α} {ys : List β} :
    xs.mapM f = .ok ys ↔ List.Forall₂ (fun x y => f x = .ok y) xs ys := by
  induction xs generalizing ys with
  | nil =>
    rw [List.mapM_nil, List.forall₂_nil_left_iff, pure_eq_ok_iff]
    exact eq_comm
  | cons x xs ih =>
    rw [List.mapM_cons, List.forall₂_cons_left_iff, bind_eq_ok_iff]
    constructor
    · rintro ⟨y, hy, h⟩
      obtain ⟨ys', hys, h⟩ := bind_eq_ok_iff.mp h
      exact ⟨y, ys', hy, ih.mp hys, (pure_eq_ok_iff.mp h).symm⟩
    · rintro ⟨y, ys', hy, hys, rfl⟩
      exact ⟨y, hy, bind_eq_ok_iff.mpr ⟨ys', ih.mpr hys, rfl⟩⟩

/-- A loop whose steps all succeed has a result. -/
theorem exists_mapM {f : α → Outcome β} {xs : List α} (h : ∀ x ∈ xs, ∃ y, f x = .ok y) :
    ∃ ys, xs.mapM f = .ok ys := by
  induction xs with
  | nil => exact ⟨[], rfl⟩
  | cons x xs ih =>
    obtain ⟨y, hy⟩ := h x List.mem_cons_self
    obtain ⟨ys, hys⟩ := ih fun x' hx' => h x' (List.mem_cons_of_mem x hx')
    exact ⟨y :: ys, mapM_eq_ok_iff.mpr (List.Forall₂.cons hy (mapM_eq_ok_iff.mp hys))⟩

/-! ## Operations that are defined on their input -/

/-- An operation has a result or refuses for one of the worded causes. -/
def Defined (x : Outcome α) : Prop :=
  x ≠ .error .undefined

theorem defined_ok (a : α) : Defined (.ok a : Outcome α) := nofun

theorem defined_error {fault : Fault} (h : fault ≠ .undefined) : Defined (.error fault : Outcome α) :=
  fun heq => h (Except.error.inj heq)

theorem Defined.bind {x : Outcome α} {f : α → Outcome β} (hx : x.Defined)
    (hf : ∀ a, x = .ok a → (f a).Defined) : (x >>= f).Defined := by
  cases x with
  | error fault => exact defined_error fun h => hx (congrArg _ h)
  | ok a => exact hf a rfl

theorem Defined.map {x : Outcome α} {f : α → β} (hx : x.Defined) : Defined (x.map f) := by
  cases x with
  | error fault => exact defined_error fun h => hx (congrArg _ h)
  | ok a => exact defined_ok (f a)

theorem defined_mapError {x : Outcome α} {f : Fault → Fault} (h : ∀ fault, f fault ≠ .undefined) :
    Defined (x.mapError f) := by
  cases x with
  | error fault => exact defined_error (h fault)
  | ok a => exact defined_ok a

theorem defined_require_bind {x : Option α} {fault : Fault} {f : α → Outcome β}
    (h : fault ≠ .undefined) (hf : ∀ a, (f a).Defined) : (require x fault >>= f).Defined := by
  cases x with
  | none => exact defined_error h
  | some a => exact hf a

theorem defined_require {x : Option α} {fault : Fault} (h : fault ≠ .undefined) :
    Defined (require x fault) := by
  cases x with
  | none => exact defined_error h
  | some a => exact defined_ok a

theorem defined_ensure {condition : Bool} {fault : Fault} (h : fault ≠ .undefined) :
    Defined (ensure condition fault) := by
  cases condition with
  | false => exact defined_error h
  | true => exact defined_ok ()

/-- A loop is defined if its steps are. -/
theorem defined_forM {f : α → Outcome Unit} {xs : List α} (h : ∀ x ∈ xs, (f x).Defined) :
    (xs.forM f).Defined := by
  induction xs with
  | nil => exact defined_ok ()
  | cons x xs ih =>
    have hrest := ih fun x' hx' => h x' (List.mem_cons_of_mem x hx')
    exact (h x List.mem_cons_self).bind fun _ _ => hrest

theorem defined_mapM {f : α → Outcome β} {xs : List α} (h : ∀ x ∈ xs, (f x).Defined) :
    (xs.mapM f).Defined := by
  induction xs with
  | nil => exact defined_ok []
  | cons x xs ih =>
    have hrest := ih fun x' hx' => h x' (List.mem_cons_of_mem x hx')
    rw [List.mapM_cons]
    exact (h x List.mem_cons_self).bind fun _ _ => hrest.bind fun _ _ => defined_ok _

end Outcome

@[simp] theorem require_eq_ok_iff {x : Option α} {fault : Fault} {a : α} :
    require x fault = .ok a ↔ x = some a := by
  cases x with
  | none => constructor <;> (intro h; cases h)
  | some b =>
    exact ⟨fun h => congrArg some (Except.ok.inj h), fun h => congrArg _ (Option.some.inj h)⟩

@[simp] theorem require_bind_eq_ok_iff {x : Option α} {fault : Fault} {f : α → Outcome β} {b : β} :
    require x fault >>= f = .ok b ↔ ∃ a, x = some a ∧ f a = .ok b := by
  rw [Outcome.bind_eq_ok_iff]
  exact exists_congr fun a => and_congr_left fun _ => require_eq_ok_iff

theorem ensure_bind_of_not {condition : Bool} {fault : Fault} {f : Unit → Outcome β}
    (h : ¬condition = true) : ensure condition fault >>= f = .error fault := by
  rw [ensure, if_neg h]
  rfl

@[simp] theorem ensure_bind_eq_ok_iff {condition : Bool} {fault : Fault} {f : Unit → Outcome β}
    {b : β} : ensure condition fault >>= f = .ok b ↔ condition = true ∧ f () = .ok b := by
  rw [Outcome.check_bind_eq_ok_iff, ensure_eq_ok_iff]

end ShieldedPayments
