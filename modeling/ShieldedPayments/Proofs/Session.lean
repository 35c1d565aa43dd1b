import ShieldedPayments.Proofs.Delivered
import ShieldedPayments.Proofs.Group.Exponents

/-!
# Sequences of reads

Whoever decodes a record asks a reader for one field after the other. A call that fails keeps what it has
consumed by then, and the next one goes on from there (`session`).

* Fields that were written one after the other are read back in their order by the calls for their kinds,
  as each of these stops where its field ends (`Field.reads`, `session_fields`).
* Whatever is asked for, whether it is delivered or not, what is left is a suffix of what was there before
  (`Reader.Advances`, `session_append_suffix`).
-/

namespace ShieldedPayments

/-! ## Readers only move forward -/

namespace Reader

variable {α β : Type}

/-- Whether a reader succeeds or fails, what it leaves is a suffix of what it was given. -/
def Advances (r : Reader α) : Prop :=
  ∀ b, (r.runOn b).2 <:+ b

theorem advances_pure (a : α) : (pure a : Reader α).Advances := fun b => List.suffix_refl b

theorem advances_throw (e : Fault) : (throw e : Reader α).Advances := fun b => List.suffix_refl b

theorem advances_outcome (x : Outcome α) : (liftM x : Reader α).Advances := by
  cases x with
  | error e => exact advances_throw e
  | ok a => exact advances_pure a

/-- A sequence stops at the first step that fails, or goes on where this step has moved to. -/
theorem Advances.bind {r : Reader α} {f : α → Reader β} (hr : r.Advances)
    (hf : ∀ a, (f a).Advances) : (r >>= f).Advances := by
  intro b
  have hfirst := hr b
  rw [runOn_bind]
  generalize r.runOn b = ran at hfirst
  obtain ⟨a | a, middle⟩ := ran
  · exact hfirst
  · exact (hf a middle).trans hfirst

theorem Advances.bind_pure {r : Reader α} (hr : r.Advances) (f : α → β) :
    (r >>= fun a => pure (f a)).Advances :=
  hr.bind fun a => advances_pure (f a)

theorem advances_rest : rest.Advances := fun b => List.suffix_refl b

theorem advances_byte : byte.Advances := by
  intro b
  cases b with
  | nil => exact List.suffix_refl []
  | cons x b => exact List.suffix_cons x b

theorem advances_bytes (n : Nat) : (bytes n).Advances := by
  intro b
  rw [runOn_bytes]
  split
  · exact List.drop_suffix n b
  · exact List.suffix_refl b

theorem runOn_bytes_of_error {n : Nat} {b rest : Bytes} {fault : Fault}
    (h : (bytes n).runOn b = (.error fault, rest)) : rest = b := by
  rw [runOn_bytes] at h
  split at h
  · cases h
  · exact (Prod.mk.inj h).2.symm

theorem advances_number (width : Nat) : (number width).Advances :=
  (advances_bytes width).bind_pure Bytes.toNatBE

theorem advances_prefixed (width : Nat) : (prefixed width).Advances :=
  (advances_number width).bind advances_bytes

theorem advances_finish : finish.Advances := by
  refine advances_rest.bind fun b => ?_
  split
  · exact advances_pure ()
  · exact advances_throw _

/-- Only the end of the bytes is accepted as the end. -/
theorem finish_eq_ok_iff (b : Bytes) : (finish.runOn b).1 = .ok () ↔ b = [] := by
  cases b with
  | nil => exact iff_of_true rfl rfl
  | cons x b => exact iff_of_false nofun nofun

theorem advances_times {r : Reader α} (hr : r.Advances) (n : Nat) : (times r n).Advances := by
  induction n with
  | zero => exact advances_pure []
  | succ n ih => exact hr.bind fun a => ih.bind_pure (a :: ·)

theorem advances_counted {r : Reader α} (hr : r.Advances) : (counted r).Advances :=
  advances_byte.bind fun count => advances_times hr count.toNat

theorem advances_optional {r : Reader α} (hr : r.Advances) (subject : String) :
    (optional r subject).Advances := by
  refine advances_byte.bind fun x => ?_
  dsimp only
  split
  · exact advances_pure none
  · split
    · exact hr.bind_pure some
    · exact advances_throw _

section Elements

variable {F G : Type} [PointGroup F G]

theorem advances_point : (point : Reader G).Advances :=
  (advances_bytes elementSize).bind fun b => advances_outcome (pointOfBytes b)

theorem advances_optPoint : (optPoint : Reader (Option G)).Advances :=
  advances_optional advances_point _

theorem advances_prefixedPoint : (prefixedPoint : Reader G).Advances := by
  refine advances_optPoint.bind fun p => ?_
  cases p with
  | none => exact advances_throw _
  | some p => exact advances_pure p

theorem advances_points : (points : Reader (List G)).Advances :=
  advances_counted advances_prefixedPoint

variable [ScalarField F]

theorem advances_scalar : (scalar : Reader F).Advances :=
  (advances_bytes elementSize).bind fun b => advances_outcome (scalarOfBytes b)

theorem advances_optScalar : (optScalar : Reader (Option F)).Advances :=
  advances_optional advances_scalar _

end Elements

end Reader

/-! ## Fields -/

/-- How many bytes a length is written in. -/
inductive LengthSize where
  | one
  | two
  | four
  deriving DecidableEq, Repr

namespace LengthSize

def bytes : LengthSize → Nat
  | one => 1
  | two => 2
  | four => 4

/-- The largest length. -/
def limit : LengthSize → Nat
  | one => 255
  | two => 65535
  | four => 4294967295

theorem limit_lt (size : LengthSize) : size.limit < 256 ^ size.bytes := by
  cases size <;> decide

end LengthSize

/-- The kinds of fields that records are made of. -/
inductive FieldKind where
  | optPoint
  | optScalar
  | points
  | prefixed (size : LengthSize)
  deriving DecidableEq, Repr

/-- A field with its value. -/
inductive Field (F G : Type) where
  | optPoint (p : Option G)
  | optScalar (s : Option F)
  | points (ps : List G)
  | prefixed (size : LengthSize) (b : Bytes)

variable {F G : Type}

namespace Field

def kind : Field F G → FieldKind
  | optPoint _ => .optPoint
  | optScalar _ => .optScalar
  | points _ => .points
  | prefixed size _ => .prefixed size

/-- Counts and lengths fit the bytes that they are written in. -/
def Fits : Field F G → Prop
  | optPoint _ => True
  | optScalar _ => True
  | points ps => ps.length ≤ 255
  | prefixed size b => b.length ≤ size.limit

variable [ScalarField F] [PointGroup F G]

/-- A field as it is written. Bytes behind a length of one byte are cut, longer lengths are not checked. -/
def toBytes : Field F G → Bytes
  | optPoint p => Writer.optPoint p
  | optScalar s => Writer.optScalar s
  | points ps => Writer.points ps
  | prefixed .one b => Writer.shortPrefixed b
  | prefixed .two b => Writer.prefixed 2 b
  | prefixed .four b => Writer.prefixed 4 b

end Field

section

variable [ScalarField F] [PointGroup F G]

/-- The reader of the fields of a kind. -/
def FieldKind.reader : FieldKind → Reader (Field F G)
  | optPoint => return .optPoint (← Reader.optPoint)
  | optScalar => return .optScalar (← Reader.optScalar)
  | points => return .points (← Reader.points)
  | prefixed size => return .prefixed size (← Reader.prefixed size.bytes)

theorem FieldKind.advances_reader (kind : FieldKind) :
    (kind.reader : Reader (Field F G)).Advances := by
  cases kind with
  | optPoint => exact Reader.advances_optPoint.bind_pure Field.optPoint
  | optScalar => exact Reader.advances_optScalar.bind_pure Field.optScalar
  | points => exact Reader.advances_points.bind_pure Field.points
  | prefixed size => exact (Reader.advances_prefixed size.bytes).bind_pure (Field.prefixed size)

/-- **The reader of its kind takes a field off the front as it was written.** -/
theorem Field.reads [ScalarField.Canonical F] [PointGroup.Canonical F G] {field : Field F G}
    (h : field.Fits) : field.kind.reader.Reads field.toBytes field := by
  cases field with
  | optPoint p => exact (Reader.reads_optPoint p).bind_pure Field.optPoint
  | optScalar s => exact (Reader.reads_optScalar s).bind_pure Field.optScalar
  | points ps => exact (Reader.reads_points h).bind_pure Field.points
  | prefixed size b =>
    have hlength : b.length < 256 ^ size.bytes := lt_of_le_of_lt h size.limit_lt
    cases size with
    | one => exact (Reader.reads_shortPrefixed h).bind_pure (Field.prefixed .one)
    | two => exact (Reader.reads_prefixed hlength).bind_pure (Field.prefixed .two)
    | four => exact (Reader.reads_prefixed hlength).bind_pure (Field.prefixed .four)

end

/-! ## Calls -/

/-- What a reader can be asked for. -/
inductive ReadCall where
  | byte
  | number (width : Nat)
  | bytes (n : Nat)
  | point
  | scalar
  | prefixedPoint
  | field (kind : FieldKind)
  | rest
  | finish
  deriving DecidableEq, Repr

/-- What a reader delivers when it is asked. -/
inductive Delivery (F G : Type) where
  | number (n : Nat)
  | bytes (b : Bytes)
  | point (p : G)
  | scalar (s : F)
  | field (field : Field F G)
  | nothing

variable [ScalarField F] [PointGroup F G]

namespace ReadCall

/-- The reader behind a call. -/
def reader : ReadCall → Reader (Delivery F G)
  | byte => return .number (← Reader.byte).toNat
  | number width => return .number (← Reader.number width)
  | bytes n => return .bytes (← Reader.bytes n)
  | point => return .point (← Reader.point)
  | scalar => return .scalar (← Reader.scalar)
  | prefixedPoint => return .point (← Reader.prefixedPoint)
  | field kind => return .field (← kind.reader)
  | rest => return .bytes (← Reader.rest)
  | finish => do
    Reader.finish
    return .nothing

/-- Whatever is asked for, and whether it is delivered or not, the reader only moves forward. -/
theorem advances (call : ReadCall) : (call.reader : Reader (Delivery F G)).Advances := by
  cases call with
  | byte => exact Reader.advances_byte.bind_pure _
  | number width => exact (Reader.advances_number width).bind_pure _
  | bytes n => exact (Reader.advances_bytes n).bind_pure _
  | point => exact Reader.advances_point.bind_pure _
  | scalar => exact Reader.advances_scalar.bind_pure _
  | prefixedPoint => exact Reader.advances_prefixedPoint.bind_pure _
  | field kind => exact kind.advances_reader.bind_pure _
  | rest => exact Reader.advances_rest.bind_pure _
  | finish => exact Reader.advances_finish.bind_pure _

end ReadCall

/-- What a sequence of calls delivers, and the bytes that it leaves. A call that fails does not end the
sequence. -/
def session : List ReadCall → Bytes → List (Outcome (Delivery F G)) × Bytes
  | [], b => ([], b)
  | call :: calls, b =>
    let (delivered, left) := call.reader.runOn b
    let (others, left) := session calls left
    (delivered :: others, left)

theorem session_cons (call : ReadCall) (calls : List ReadCall) (b : Bytes) :
    session (F := F) (G := G) (call :: calls) b =
      let ran := (call.reader : Reader (Delivery F G)).runOn b
      let others := session (F := F) (G := G) calls ran.2
      (ran.1 :: others.1, others.2) := rfl

/-! ## What is read back -/

/-- The call for the kind of a field delivers the field, and stops where it ends. -/
theorem runOn_call_toBytes [ScalarField.Canonical F] [PointGroup.Canonical F G] {field : Field F G}
    (h : field.Fits) (rest : Bytes) :
    (ReadCall.field field.kind).reader.runOn (field.toBytes ++ rest) = (.ok (.field field), rest) :=
  (field.reads h).bind_pure Delivery.field rest

/-- Fields are read back in the order in which they were written. -/
theorem session_fields [ScalarField.Canonical F] [PointGroup.Canonical F G] {fields : List (Field F G)}
    (h : ∀ field ∈ fields, field.Fits) (tail : Bytes) :
    session (fields.map fun field => .field field.kind) (fields.flatMap Field.toBytes ++ tail) =
      (fields.map fun field => .ok (.field field), tail) := by
  induction fields with
  | nil => rfl
  | cons field fields ih =>
    obtain ⟨hfield, hfields⟩ := List.forall_mem_cons.mp h
    rw [List.map_cons, List.map_cons, List.flatMap_cons, List.append_assoc, session_cons,
      runOn_call_toBytes hfield]
    dsimp only
    rw [ih hfields]

/-! ## What is left -/

/-- Each call starts where the calls before it have stopped. -/
theorem session_append_left (calls more : List ReadCall) (b : Bytes) :
    (session (F := F) (G := G) (calls ++ more) b).2 =
      (session (F := F) (G := G) more (session (F := F) (G := G) calls b).2).2 := by
  induction calls generalizing b with
  | nil => rfl
  | cons call calls ih =>
    rw [List.cons_append, session_cons, session_cons]
    exact ih _

theorem session_suffix (calls : List ReadCall) (b : Bytes) :
    (session (F := F) (G := G) calls b).2 <:+ b := by
  induction calls generalizing b with
  | nil => exact List.suffix_refl b
  | cons call calls ih =>
    rw [session_cons]
    exact (ih _).trans (call.advances b)

theorem session_append_suffix (calls more : List ReadCall) (b : Bytes) :
    (session (F := F) (G := G) (calls ++ more) b).2 <:+ (session (F := F) (G := G) calls b).2 := by
  rw [session_append_left]
  exact session_suffix more _

/-- **Sequences of reads.** Fields with counts and lengths that fit are read back as they were written,
whatever follows them; what follows is left, and is refused at the end unless it is empty. Any sequence of
calls at all, delivered or not, leaves a suffix of the bytes that were there, and more calls leave a suffix
of that. Bytes that are not all there are not consumed. -/
theorem session_reads_back_and_advances [ScalarField.Canonical F] [PointGroup.Canonical F G] :
    (∀ (fields : List (Field F G)) (tail : Bytes), (∀ field ∈ fields, field.Fits) →
      let ran :=
        session (fields.map fun field => .field field.kind) (fields.flatMap Field.toBytes ++ tail)
      ran = (fields.map fun field => .ok (.field field), tail) ∧
        ((Reader.finish.runOn ran.2).1 = .ok () ↔ tail = [])) ∧
    (∀ (calls more : List ReadCall) (b : Bytes),
      (session (F := F) (G := G) calls b).2 <:+ b ∧
      (session (F := F) (G := G) (calls ++ more) b).2 <:+ (session (F := F) (G := G) calls b).2) ∧
    ∀ (n : Nat) (b rest : Bytes) (fault : Fault),
      (Reader.bytes n).runOn b = (.error fault, rest) → rest = b := by
  refine ⟨fun fields tail hfits => ?_, fun calls more b => ?_, fun n b rest fault h => ?_⟩
  · rw [session_fields hfits tail]
    exact ⟨rfl, Reader.finish_eq_ok_iff tail⟩
  · exact ⟨session_suffix calls b, session_append_suffix calls more b⟩
  · exact Reader.runOn_bytes_of_error h

/-- Fields of all kinds with one byte behind them, and bytes of which too many are asked for. -/
theorem session_reads_back_and_advances_mixed :
    let fields : List (Field Curve.Scalar Exponent) :=
      [.optPoint none, .prefixed .one [1], .points [⟨2⟩, ⟨3⟩], .optScalar (some 4), .prefixed .two [],
        .optPoint (some ⟨5⟩), .prefixed .four [6, 7], .optScalar none]
    (∀ field ∈ fields, field.Fits) ∧
    session (fields.map fun field => .field field.kind) (fields.flatMap Field.toBytes ++ [8]) =
      (fields.map fun field => .ok (.field field), [8]) ∧
    (Reader.finish.runOn [8]).1 ≠ .ok () ∧
    ((Reader.bytes 3).runOn [1, 2]).2 = [1, 2] := by
  intro fields
  obtain ⟨hread, -, hbytes⟩ := session_reads_back_and_advances (F := Curve.Scalar) (G := Exponent)
  have hfits : ∀ field ∈ fields, field.Fits := by
    simp [fields, Field.Fits, LengthSize.limit]
  obtain ⟨hran, hfinish⟩ := hread fields [8] hfits
  refine ⟨hfits, hran, ?_, hbytes 3 [1, 2] _ _ rfl⟩
  rw [hran] at hfinish
  exact fun hend => List.cons_ne_nil _ _ (hfinish.mp hend)

end ShieldedPayments
