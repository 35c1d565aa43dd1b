import Mathlib.Data.List.Forall2

/-!
# Lists that match element by element

What is made of the elements of a list in order is a second list, each element of which belongs to the
one at its position (`List.Forall₂`). These lemmas carry such relations over to members, through
`List.zip`, and from one list to the next.
-/

namespace ShieldedPayments

variable {α β γ δ : Type} {as : List α} {bs : List β} {cs : List γ}

/-- What holds of everything that belongs to something holds of all members. -/
theorem forall_mem_of_forall₂ {R : α → β → Prop} {P : β → Prop} (h : List.Forall₂ R as bs)
    (hP : ∀ a b, R a b → P b) : ∀ b ∈ bs, P b :=
  ((List.forall₂_and_left bs as).mp (h.flip.imp fun b a hab => ⟨hP a b hab, hab⟩)).1

/-- What stands at a position of the second list belongs to what stands there in the first one. -/
theorem exists_of_forall₂ {R : α → β → Prop} (h : List.Forall₂ R as bs) {j : Nat} {b : β}
    (hb : bs[j]? = some b) : ∃ a, as[j]? = some a ∧ R a b := by
  induction h generalizing j with
  | nil => cases hb
  | cons hab _ ih =>
    cases j with
    | zero =>
      obtain rfl := Option.some.inj hb
      exact ⟨_, rfl, hab⟩
    | succ j => exact ih hb

/-- What holds of two lists position by position holds of the pairs that they are zipped to. -/
theorem forall_mem_zip_iff {P : α × β → Prop} :
    (∀ pair ∈ as.zip bs, P pair) ↔
      ∀ (i : Nat) a b, as[i]? = some a → bs[i]? = some b → P (a, b) := by
  constructor
  · intro h i a b ha hb
    exact h (a, b) (List.mem_of_getElem? (List.getElem?_zip_eq_some.mpr ⟨ha, hb⟩))
  · intro h pair hpair
    obtain ⟨i, hi⟩ := List.mem_iff_getElem?.mp hpair
    obtain ⟨ha, hb⟩ := List.getElem?_zip_eq_some.mp hi
    exact h i pair.1 pair.2 ha hb

theorem map_eq_of_forall₂ {R : α → β → Prop} {f : α → γ} {g : β → γ} (h : List.Forall₂ R as bs)
    (hfg : ∀ a b, R a b → f a = g b) : as.map f = bs.map g := by
  induction h with
  | nil => rfl
  | cons hab _ ih => rw [List.map_cons, List.map_cons, hfg _ _ hab, ih]

/-- Where a partial function is defined on all members, it maps the list to another list. -/
theorem exists_map_some {f : α → Option β} (h : ∀ a ∈ as, ∃ b, f a = some b) :
    ∃ bs : List β, as.map f = bs.map some := by
  induction as with
  | nil => exact ⟨[], rfl⟩
  | cons a as ih =>
    obtain ⟨⟨b, hb⟩, hrest⟩ := List.forall_mem_cons.mp h
    obtain ⟨bs, hbs⟩ := ih hrest
    exact ⟨b :: bs, by rw [List.map_cons, hb, hbs, List.map_cons]⟩

/-- What is read off the first components is read off the list that they come from. -/
theorem map_comp_fst {f : α → γ} {pairs : List (α × β)} (h : pairs.map (·.1) = as) :
    pairs.map (fun pair => f pair.1) = as.map f := by
  rw [← h, List.map_map]
  rfl

/-- What belongs to the first components belongs to the list that they come from. -/
theorem forall₂_of_map_fst {R : α → γ → Prop} {pairs : List (α × β)} (h : pairs.map (·.1) = as)
    (hpairs : List.Forall₂ (fun pair c => R pair.1 c) pairs cs) : List.Forall₂ R as cs := by
  rw [← h, List.forall₂_map_left_iff]
  exact hpairs

theorem forall₂_of_map_eq {f : α → γ} {g : β → γ} (h : as.map f = bs.map g) :
    List.Forall₂ (fun a b => f a = g b) as bs := by
  rw [← List.forall₂_eq_eq_eq, List.forall₂_map_left_iff, List.forall₂_map_right_iff] at h
  exact h

theorem zipWith_eq_map_of_forall₂ {R : α → β → Prop} {f : α → β → γ} {g : β → γ}
    (h : List.Forall₂ R as bs) (hfg : ∀ a b, R a b → f a b = g b) :
    List.zipWith f as bs = bs.map g := by
  induction h with
  | nil => rfl
  | cons hab _ ih => rw [List.zipWith_cons_cons, List.map_cons, hfg _ _ hab, ih]

theorem zipWith_zipWith_self (f : α → γ → δ) (g : β → α → γ) (as : List α) (bs : List β) :
    List.zipWith f as (List.zipWith g bs as) = List.zipWith (fun b a => f a (g b a)) bs as := by
  induction as generalizing bs with
  | nil => cases bs <;> rfl
  | cons a as ih =>
    cases bs with
    | nil => rfl
    | cons b bs => rw [List.zipWith_cons_cons, List.zipWith_cons_cons, List.zipWith_cons_cons, ih]

/-- A list made of a second one together with the first, from which the second one was made. -/
theorem Forall₂.through_zip {R : α → β → Prop} {S : β × α → γ → Prop} {T : α → γ → Prop}
    (hR : List.Forall₂ R as bs) (hS : List.Forall₂ S (bs.zip as) cs)
    (hT : ∀ a b c, R a b → S (b, a) c → T a c) : List.Forall₂ T as cs := by
  induction hR generalizing cs with
  | nil =>
    cases hS
    exact List.Forall₂.nil
  | cons hab _ ih =>
    cases hS with
    | cons hbc hS => exact List.Forall₂.cons (hT _ _ _ hab hbc) (ih hS)

end ShieldedPayments
