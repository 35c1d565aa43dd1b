import ShieldedPayments.Proofs.Wire
import ShieldedPayments.Coin.Account

/-!
# Counts and lengths in encodings

A `Layout` says what an encoding is made of: which of its bytes are counts, which are lengths, and of
what. Counts and lengths are written modulo their width, and a length of one byte cuts what it is the
length of. In an exact layout (`Layout.Exact`) none of this happens: every number that is written fits
its width, at every depth.
-/

namespace ShieldedPayments

/-- The make-up of an encoding. -/
inductive Layout where
  /-- Bytes of a fixed length. -/
  | bytes (b : Bytes)
  | append (front back : Layout)
  /-- A count byte. -/
  | count (n : Nat)
  /-- A part behind its length in `width` bytes. -/
  | prefixed (width : Nat) (body : Layout)
  /-- A part that is cut to 255 bytes, behind a length byte. -/
  | shortPrefixed (body : Layout)
  /-- A part behind its length in one or two bytes. -/
  | dualPrefixed (body : Layout)

namespace Layout

instance : Append Layout := ⟨append⟩

/-- The encoding that is made up so. -/
def render : Layout → Bytes
  | bytes b => b
  | append front back => front.render ++ back.render
  | count n => Writer.count n
  | prefixed width body => Writer.prefixed width body.render
  | shortPrefixed body => Writer.shortPrefixed body.render
  | dualPrefixed body => dualLength body.render.length ++ body.render

/-- All counts and lengths fit the bytes that they are written in. -/
def Exact : Layout → Prop
  | bytes _ => True
  | append front back => front.Exact ∧ back.Exact
  | count n => n < 256
  | prefixed width body => body.render.length < 256 ^ width ∧ body.Exact
  | shortPrefixed body => body.render.length < 256 ∧ body.Exact
  | dualPrefixed body => body.render.length < 256 ^ 2 ∧ body.Exact

@[simp] theorem render_bytes (b : Bytes) : (bytes b).render = b := rfl

@[simp] theorem render_append (front back : Layout) :
    (front ++ back).render = front.render ++ back.render := rfl

@[simp] theorem render_count (n : Nat) : (count n).render = Writer.count n := rfl

@[simp] theorem render_prefixed (width : Nat) (body : Layout) :
    (prefixed width body).render = Writer.prefixed width body.render := rfl

@[simp] theorem render_shortPrefixed (body : Layout) :
    (shortPrefixed body).render = Writer.shortPrefixed body.render := rfl

@[simp] theorem render_dualPrefixed (body : Layout) :
    (dualPrefixed body).render = dualLength body.render.length ++ body.render := rfl

theorem exact_append {front back : Layout} :
    (front ++ back).Exact ↔ front.Exact ∧ back.Exact := Iff.rfl

/-! ## Lists and optional elements -/

variable {α : Type}

/-- The items of a list after a count byte. -/
def counted (item : α → Layout) (items : List α) : Layout :=
  count items.length ++ items.foldr (fun a rest => item a ++ rest) (bytes [])

theorem render_counted {item : α → Layout} {write : α → Bytes} (h : ∀ a, (item a).render = write a)
    (items : List α) : (counted item items).render = Writer.counted write items := by
  rw [counted, Writer.counted, render_append, render_count]
  congr 1
  induction items with
  | nil => rfl
  | cons a items ih => rw [List.foldr_cons, render_append, h, ih, List.flatMap_cons]

theorem exact_counted {item : α → Layout} {items : List α} (hcount : items.length ≤ 255)
    (hitems : ∀ a ∈ items, (item a).Exact) : (counted item items).Exact := by
  refine exact_append.mpr ⟨Nat.lt_succ_of_le hcount, ?_⟩
  clear hcount
  induction items with
  | nil => trivial
  | cons a items ih =>
    rw [List.forall_mem_cons] at hitems
    exact exact_append.mpr ⟨hitems.1, ih hitems.2⟩

section

variable {F G : Type} [PointGroup F G]

/-- An optional point. -/
def optPoint : Option G → Layout
  | some p => count elementSize ++ bytes (PointGroup.encode p)
  | none => count 0

/-- A list of points. -/
def points (ps : List G) : Layout :=
  counted (fun p => optPoint (some p)) ps

@[simp] theorem render_optPoint (p : Option G) : (optPoint p).render = Writer.optPoint p := by
  cases p <;> rfl

@[simp] theorem render_points (ps : List G) : (points ps).render = Writer.points ps :=
  render_counted (fun p => render_optPoint (some p)) ps

theorem exact_optPoint (p : Option G) : (optPoint p).Exact := by
  cases p with
  | none => exact Nat.succ_pos 255
  | some p => exact ⟨show elementSize < 256 by decide, trivial⟩

theorem exact_points {ps : List G} (h : ps.length ≤ 255) : (points ps).Exact :=
  exact_counted h fun _ _ => exact_optPoint _

end

section

variable {F : Type} [ScalarField F]

/-- An optional scalar. -/
def optScalar : Option F → Layout
  | some s => count elementSize ++ bytes (ScalarField.encode s)
  | none => count 0

@[simp] theorem render_optScalar (s : Option F) : (optScalar s).render = Writer.optScalar s := by
  cases s <;> rfl

theorem exact_optScalar (s : Option F) : (optScalar s).Exact := by
  cases s with
  | none => exact Nat.succ_pos 255
  | some s => exact ⟨show elementSize < 256 by decide, trivial⟩

end

end Layout

end ShieldedPayments
