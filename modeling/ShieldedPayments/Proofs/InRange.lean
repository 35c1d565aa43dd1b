import Mathlib.Algebra.Group.Nat.Defs
import Mathlib.Data.List.Range
import ShieldedPayments.Group.Basic
import ShieldedPayments.Proofs.Fault

/-!
# Operations with a range

Taking the element of a list at an index, a slice of it, a difference of sizes, a power of two by a shift
in a machine word, and a sum over two lists of one length have no result on some of their arguments. Here
they are written so that this shows: out of range they are `undefined`.

Where the library walks over lists, a program that keeps them in buffers counts an index. Such a loop does
the same as long as the index finds an element each time (`Outcome.forM_zipIdx_eq`).
-/

namespace ShieldedPayments

variable {α β : Type}

/-! ## The operations -/

/-- The element at an index. There is none at the end of a list or beyond. -/
def elementAt (xs : List α) (i : Nat) : Outcome α :=
  require xs[i]? .undefined

/-- The elements from `start` up to `stop`, which must not be past the end. -/
def slice (xs : List α) (start stop : Nat) : Outcome (List α) :=
  if start ≤ stop ∧ stop ≤ xs.length then .ok ((xs.take stop).drop start) else .error .undefined

/-- A difference of two sizes, of which the second must not be larger. -/
def difference (a b : Nat) : Outcome Nat :=
  if b ≤ a then .ok (a - b) else .error .undefined

/-- The bits of a machine word. -/
def wordBits : Nat := 64

/-- One, shifted by a number of bits that a machine word has. -/
def shiftedOne (bits : Nat) : Outcome Nat :=
  if bits < wordBits then .ok (1 <<< bits) else .error .undefined

/-- The number of zeros above the highest bit of a machine word. -/
def leadingZeros (i : Nat) : Nat :=
  if i = 0 then wordBits else wordBits - 1 - i.log2

/-- The position of the highest bit. Zero has none. -/
def highestBit (i : Nat) : Outcome Nat :=
  difference (wordBits - 1) (leadingZeros i)

/-- The sum of points scaled by as many scalars. -/
def pairedCombination {F G : Type} [ScalarField F] [PointGroup F G] (scalars : List F)
    (points : List G) : Outcome G :=
  if scalars.length = points.length then .ok (combination (scalars.zip points))
  else .error .undefined

theorem elementAt_of_getElem? {xs : List α} {i : Nat} {a : α} (h : xs[i]? = some a) :
    elementAt xs i = .ok a := by
  rw [elementAt, h, require_some]

theorem elementAt_eq {xs : List α} {i : Nat} (h : i < xs.length) : elementAt xs i = .ok xs[i] :=
  elementAt_of_getElem? (List.getElem?_eq_getElem h)

theorem elementAt_toList {n : Nat} (xs : Vector α n) (i : Fin n) :
    elementAt xs.toList i = .ok xs[i] := by
  rw [elementAt_eq (by rw [Vector.length_toList]; exact i.isLt), Vector.getElem_toList]
  rfl

theorem slice_eq {xs : List α} {start stop : Nat} (hstart : start ≤ stop)
    (hstop : stop ≤ xs.length) : slice xs start stop = .ok ((xs.take stop).drop start) :=
  if_pos ⟨hstart, hstop⟩

/-- A slice from the start. -/
theorem slice_zero {xs : List α} {stop : Nat} (h : stop ≤ xs.length) :
    slice xs 0 stop = .ok (xs.take stop) :=
  slice_eq (Nat.zero_le stop) h

/-- A slice to the end. -/
theorem slice_length {xs : List α} {start : Nat} (h : start ≤ xs.length) :
    slice xs start xs.length = .ok (xs.drop start) := by
  rw [slice_eq h le_rfl, List.take_length]

theorem defined_slice {xs : List α} {start stop : Nat} (hstart : start ≤ stop)
    (hstop : stop ≤ xs.length) : (slice xs start stop).Defined := by
  rw [slice_eq hstart hstop]
  exact Outcome.defined_ok _

theorem difference_eq {a b : Nat} (h : b ≤ a) : difference a b = .ok (a - b) := if_pos h

theorem shiftedOne_eq {bits : Nat} (h : bits < wordBits) : shiftedOne bits = .ok (1 <<< bits) :=
  if_pos h

theorem highestBit_eq {i : Nat} (hzero : i ≠ 0) (hword : i < 2 ^ wordBits) :
    highestBit i = .ok i.log2 := by
  have hlt : i.log2 < wordBits := (Nat.log2_lt hzero).mpr hword
  have hsub : wordBits - 1 - (wordBits - 1 - i.log2) = i.log2 := by omega
  rw [highestBit, leadingZeros, if_neg hzero, difference_eq (Nat.sub_le _ _), hsub]

/-- As many scalars as points, and the terms that they form. -/
structure Paired {F G : Type} (scalars : List F) (points : List G) (terms : List (F × G)) :
    Prop where
  length : scalars.length = points.length
  zip : scalars.zip points = terms

namespace Paired

variable {F G : Type} {xs ys : List F} {ps qs : List G}

theorem of_length (h : xs.length = ps.length) : Paired xs ps (xs.zip ps) :=
  ⟨h, rfl⟩

theorem single (x : F) (p : G) : Paired [x] [p] [(x, p)] :=
  ⟨rfl, rfl⟩

theorem map {as : List α} {bs : List β} (h : as.length = bs.length) (f : α → F) (g : β → G) :
    Paired (as.map f) (bs.map g) (List.zipWith (fun a b => (f a, g b)) as bs) where
  length := by rw [List.length_map, List.length_map, h]
  zip := by rw [List.zip, List.zipWith_map]

theorem replicate (x : F) (ps : List G) :
    Paired (List.replicate ps.length x) ps (ps.map fun p => (x, p)) where
  length := List.length_replicate
  zip := by
    induction ps with
    | nil => rfl
    | cons p ps ih => rw [List.length_cons, List.replicate_succ, List.zip_cons_cons, ih, List.map_cons]

theorem append {terms terms' : List (F × G)} (h : Paired xs ps terms) (h' : Paired ys qs terms') :
    Paired (xs ++ ys) (ps ++ qs) (terms ++ terms') where
  length := by rw [List.length_append, List.length_append, h.length, h'.length]
  zip := by rw [List.zip_append h.length, h.zip, h'.zip]

theorem combination_eq [ScalarField F] [PointGroup F G] {terms : List (F × G)}
    (h : Paired xs ps terms) : pairedCombination xs ps = .ok (combination terms) := by
  rw [pairedCombination, if_pos h.length, h.zip]

end Paired

/-! ## Loops over indices -/

namespace Outcome

/-- An operation stays within range: written with indices it has the same result, and nothing that it
does is undefined. -/
def WithinRange (byIndex outcome : Outcome α) : Prop :=
  byIndex = outcome ∧ byIndex.Defined

theorem WithinRange.of_eq {byIndex outcome : Outcome α} (h : byIndex = outcome)
    (hdefined : outcome.Defined) : WithinRange byIndex outcome :=
  ⟨h, h ▸ hdefined⟩

theorem ok_bind (a : α) (f : α → Outcome β) : (.ok a >>= f : Outcome β) = f a := rfl

/-- Refuses for another cause. What is undefined stays so. -/
def mapWorded (x : Outcome α) (fault : Fault) : Outcome α :=
  match x with
  | .ok a => .ok a
  | .error .undefined => .error .undefined
  | .error _ => .error fault

theorem mapWorded_eq {x : Outcome α} (h : x.Defined) (fault : Fault) :
    x.mapWorded fault = x.mapError fun _ => fault := by
  cases x with
  | ok a => rfl
  | error e =>
    cases e with
    | undefined => exact absurd rfl h
    | _ => rfl

/-- A loop that cannot fail is a map. -/
theorem mapM_eq_map {f : α → Outcome β} {g : α → β} {xs : List α}
    (h : ∀ x ∈ xs, f x = .ok (g x)) : xs.mapM f = .ok (xs.map g) := by
  rw [mapM_eq_ok_iff, List.forall₂_map_right_iff, List.forall₂_same]
  exact h

/-- A loop over indices makes the list whose elements its steps find. -/
theorem mapM_range_eq {f : Nat → Outcome β} {n : Nat} {ys : List β} (hlength : ys.length = n)
    (h : ∀ i (hi : i < ys.length), f i = .ok ys[i]) : (List.range n).mapM f = .ok ys := by
  subst hlength
  rw [mapM_eq_ok_iff, List.forall₂_iff_get]
  refine ⟨List.length_range, fun i _ hi => ?_⟩
  rw [List.get_eq_getElem, List.get_eq_getElem, List.getElem_range]
  exact h i hi

/-- A fold whose steps cannot fail is a fold. -/
theorem foldlM_eq_foldl {f : β → α → Outcome β} {g : β → α → β}
    (h : ∀ b a, f b a = .ok (g b a)) (xs : List α) (b : β) :
    xs.foldlM f b = .ok (xs.foldl g b) := by
  induction xs generalizing b with
  | nil => rfl
  | cons x xs ih =>
    rw [List.foldlM_cons, h, List.foldl_cons]
    exact ih (g b x)

theorem forM_zipIdx_eq_from {xs : List α} {ys : List β} {entry : Nat → Outcome β}
    {f : α → β → Outcome Unit} {start : Nat} (hlength : ys.length = xs.length)
    (hentry : ∀ i y, ys[i]? = some y → entry (start + i) = .ok y) :
    ((xs.zipIdx start).forM fun (x, i) => do f x (← entry i)) =
      (xs.zip ys).forM fun (x, y) => f x y := by
  induction xs generalizing ys start with
  | nil => rfl
  | cons x xs ih =>
    cases ys with
    | nil => cases hlength
    | cons y ys =>
      have hfirst : entry start = .ok y := hentry 0 y rfl
      have hrest : ∀ i y, ys[i]? = some y → entry (start + 1 + i) = .ok y := by
        intro i y' hy'
        rw [Nat.add_assoc, Nat.add_comm 1 i]
        exact hentry (i + 1) y' hy'
      show (((entry start >>= f x) >>= fun _ => (xs.zipIdx (start + 1)).forM _) : Outcome Unit) =
        f x y >>= fun _ => (xs.zip ys).forM _
      rw [ih (Nat.succ_inj.mp hlength) hrest, hfirst]
      rfl

/-- A loop that looks up what belongs to an element by its position goes over the pairs, if something is
found at each position. -/
theorem forM_zipIdx_eq {xs : List α} {ys : List β} {entry : Nat → Outcome β}
    {f : α → β → Outcome Unit} (hlength : ys.length = xs.length)
    (hentry : ∀ i y, ys[i]? = some y → entry i = .ok y) :
    (xs.zipIdx.forM fun (x, i) => do f x (← entry i)) = (xs.zip ys).forM fun (x, y) => f x y := by
  refine forM_zipIdx_eq_from hlength fun i y hy => ?_
  rw [Nat.zero_add]
  exact hentry i y hy

end Outcome

end ShieldedPayments
