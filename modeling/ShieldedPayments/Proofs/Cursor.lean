import ShieldedPayments.Proofs.Delivered
import ShieldedPayments.Proofs.InRange

/-!
# Reading from a buffer

A reader drops the bytes that it has read. A program keeps the whole buffer, counts the bytes that it has
read, and takes its fields as slices of the buffer, which are undefined out of range. `ReadProgram` is the
language of such programs: bytes are read at the cursor, and a byte string that was read can be decoded by
a program of its own. A program refuses for worded causes only, and shows of each slice of its own that it
is in range.

On any buffer a program and the reader that it denotes deliver the same, the cursor never passes the end
of the buffer, and nothing undefined happens (`ReadProgram.onCursor_eq`).
-/

namespace ShieldedPayments

variable {α β : Type}

/-! ## Cursors -/

/-- A buffer, and the number of its bytes that have been read. -/
structure Cursor where
  buffer : Bytes
  offset : Nat

namespace Cursor

/-- A cursor that has read nothing. -/
def start (b : Bytes) : Cursor :=
  ⟨b, 0⟩

/-- A cursor has not passed the end of its buffer. -/
def Valid (cursor : Cursor) : Prop :=
  cursor.offset ≤ cursor.buffer.length

theorem valid_start (b : Bytes) : (start b).Valid :=
  Nat.zero_le _

/-- The bytes that a reader has before it where a program has the cursor. -/
def tail (cursor : Cursor) : Bytes :=
  cursor.buffer.drop cursor.offset

/-- The slice of the bytes that have not been read. -/
def rest (cursor : Cursor) : Outcome Bytes :=
  slice cursor.buffer cursor.offset cursor.buffer.length

/-- The byte at the cursor. -/
def byte (cursor : Cursor) : Outcome UInt8 × Cursor :=
  match cursor.buffer[cursor.offset]? with
  | none => (.error (.malformedEncoding "truncated buffer"), cursor)
  | some x => (.ok x, { cursor with offset := cursor.offset + 1 })

/-- The slice of the next `n` bytes. -/
def bytes (cursor : Cursor) (n : Nat) : Outcome Bytes × Cursor :=
  if cursor.offset + n ≤ cursor.buffer.length then
    (slice cursor.buffer cursor.offset (cursor.offset + n),
      { cursor with offset := cursor.offset + n })
  else (.error (.malformedEncoding "truncated buffer"), cursor)

end Cursor

/-! ## Programs -/

/-- A program that reads from a buffer. -/
inductive ReadProgram : Type → Type 1 where
  /-- A result, or a worded cause to refuse. -/
  | outcome {α : Type} (x : Outcome α) (defined : x.Defined) : ReadProgram α
  /-- Reads one byte. -/
  | byte : ReadProgram UInt8
  /-- Reads `n` bytes. -/
  | bytes (n : Nat) : ReadProgram Bytes
  /-- Looks at all bytes that have not been read, without reading them. -/
  | rest : ReadProgram Bytes
  /-- One program after another. -/
  | andThen {α β : Type} (first : ReadProgram α) (next : α → ReadProgram β) : ReadProgram β
  /-- Runs a program on a byte string of its own. -/
  | within {α : Type} (b : Bytes) (inner : ReadProgram α) : ReadProgram α
  /-- Runs a program on a byte string of its own, and goes on if it refuses. -/
  | attempt {α : Type} (b : Bytes) (inner : ReadProgram α) : ReadProgram (Option α)

namespace ReadProgram

/-- What a program does at a cursor. -/
def onCursor {α : Type} : ReadProgram α → Cursor → Outcome α × Cursor
  | .outcome x _, cursor => (x, cursor)
  | .byte, cursor => cursor.byte
  | .bytes n, cursor => cursor.bytes n
  | .rest, cursor => (cursor.rest, cursor)
  | .andThen first next, cursor =>
    match first.onCursor cursor with
    | (.ok a, cursor) => (next a).onCursor cursor
    | (.error e, cursor) => (.error e, cursor)
  | .within b inner, cursor => ((inner.onCursor (.start b)).1, cursor)
  | .attempt b inner, cursor =>
    match (inner.onCursor (.start b)).1 with
    | .ok a => (.ok (some a), cursor)
    | .error .undefined => (.error .undefined, cursor)
    | .error _ => (.ok none, cursor)

/-- The reader that a program denotes. -/
def reader {α : Type} : ReadProgram α → Reader α
  | .outcome x _ => liftM x
  | .byte => Reader.byte
  | .bytes n => Reader.bytes n
  | .rest => Reader.rest
  | .andThen first next => do (next (← first.reader)).reader
  | .within b inner => liftM (inner.reader.result b)
  | .attempt b inner => return (inner.reader.result b).toOption

/-- The result of a program on a whole buffer. -/
def decode (program : ReadProgram α) (b : Bytes) : Outcome α :=
  (program.onCursor (.start b)).1

/-! ## Programs and their readers -/

/-- A program and a reader did the same. The program stopped within the buffer, and nothing that it did was
undefined. -/
structure Agrees (cursor : Cursor) (ran : Outcome α × Cursor) (read : Outcome α × Bytes) : Prop where
  result : ran.1 = read.1
  defined : ran.1.Defined
  buffer : ran.2.buffer = cursor.buffer
  valid : ran.2.Valid
  tail : ran.2.tail = read.2

theorem runOn_outcome (x : Outcome α) (b : Bytes) : (liftM x : Reader α).runOn b = (x, b) := by
  cases x with
  | error e => rfl
  | ok a => rfl

theorem agrees_byte {cursor : Cursor} (h : cursor.Valid) :
    Agrees cursor cursor.byte (Reader.byte.runOn cursor.tail) := by
  unfold Cursor.byte Reader.byte
  rw [Reader.runOn_rest_bind]
  cases hx : cursor.buffer[cursor.offset]? with
  | none =>
    have hend : cursor.tail = [] := List.drop_of_length_le (List.getElem?_eq_none_iff.mp hx)
    rw [hend]
    exact ⟨rfl, Outcome.defined_error nofun, rfl, h, hend⟩
  | some x =>
    obtain ⟨hlt, hget⟩ := List.getElem?_eq_some_iff.mp hx
    have hcons : cursor.tail = x :: cursor.buffer.drop (cursor.offset + 1) := by
      rw [Cursor.tail, List.drop_eq_getElem_cons hlt, hget]
    rw [hcons]
    exact ⟨rfl, Outcome.defined_ok x, rfl, hlt, rfl⟩

theorem agrees_bytes {cursor : Cursor} (h : cursor.Valid) (n : Nat) :
    Agrees cursor (cursor.bytes n) ((Reader.bytes n).runOn cursor.tail) := by
  have hlength : cursor.tail.length = cursor.buffer.length - cursor.offset := List.length_drop
  unfold Cursor.bytes
  by_cases hle : cursor.offset + n ≤ cursor.buffer.length
  · have hslice : (cursor.buffer.take (cursor.offset + n)).drop cursor.offset = cursor.tail.take n := by
      rw [List.drop_take, Nat.add_sub_cancel_left, Cursor.tail]
    have hn : n ≤ cursor.tail.length := by omega
    rw [if_pos hle, slice_eq (Nat.le_add_right _ _) hle, hslice, Reader.runOn_bytes, if_pos hn]
    exact ⟨rfl, Outcome.defined_ok _, rfl, hle, List.drop_drop.symm⟩
  · have hn : ¬ n ≤ cursor.tail.length := by
      unfold Cursor.Valid at h
      omega
    rw [if_neg hle, Reader.runOn_bytes, if_neg hn]
    exact ⟨rfl, Outcome.defined_error nofun, rfl, h, rfl⟩

theorem agrees_rest {cursor : Cursor} (h : cursor.Valid) :
    Agrees cursor (cursor.rest, cursor) (Reader.rest.runOn cursor.tail) := by
  rw [Cursor.rest, slice_length h]
  exact ⟨rfl, Outcome.defined_ok _, rfl, h, rfl⟩

/-- **A program does what its reader does.** The cursor stays within the buffer, and no slice that the
program takes is undefined. -/
theorem onCursor_eq (program : ReadProgram α) {cursor : Cursor} (h : cursor.Valid) :
    Agrees cursor (program.onCursor cursor) (program.reader.runOn cursor.tail) := by
  induction program generalizing cursor with
  | outcome x defined =>
    rw [reader, runOn_outcome]
    exact ⟨rfl, defined, rfl, h, rfl⟩
  | byte => exact agrees_byte h
  | bytes n => exact agrees_bytes h n
  | rest => exact agrees_rest h
  | andThen first next ihFirst ihNext =>
    -- The first program stops at a valid cursor, where the hypothesis for the second one applies.
    have hfirst := ihFirst h
    rw [onCursor, reader, Reader.runOn_bind]
    generalize first.onCursor cursor = ran at hfirst
    generalize first.reader.runOn cursor.tail = read at hfirst
    obtain ⟨result, stopped⟩ := ran
    obtain ⟨_, left⟩ := read
    obtain ⟨rfl, hdefined, hbuffer, hvalid, rfl⟩ := hfirst
    cases result with
    | error e =>
      have hworded : e ≠ .undefined := fun heq => hdefined (congrArg _ heq)
      exact ⟨rfl, Outcome.defined_error hworded, hbuffer, hvalid, rfl⟩
    | ok a =>
      obtain ⟨hresult, hdefined', hbuffer', hvalid', htail⟩ := ihNext a hvalid
      exact ⟨hresult, hdefined', hbuffer'.trans hbuffer, hvalid', htail⟩
  | within b inner ih =>
    obtain ⟨hresult, hdefined, -, -, -⟩ := ih (Cursor.valid_start b)
    rw [onCursor, reader, runOn_outcome]
    exact ⟨hresult, hdefined, rfl, h, rfl⟩
  | attempt b inner ih =>
    obtain ⟨hresult, hdefined, -, -, -⟩ := ih (Cursor.valid_start b)
    have hread : inner.reader.result b = (inner.onCursor (.start b)).1 := hresult.symm
    rw [onCursor, reader, hread]
    generalize (inner.onCursor (.start b)).1 = result at hdefined
    cases result with
    | ok a => exact ⟨rfl, Outcome.defined_ok _, rfl, h, rfl⟩
    | error e =>
      -- What is undefined would not be caught, but the inner program does nothing undefined.
      cases e with
      | undefined => exact absurd rfl hdefined
      | _ => exact ⟨rfl, Outcome.defined_ok _, rfl, h, rfl⟩

theorem decode_eq (program : ReadProgram α) (b : Bytes) : program.decode b = program.reader.result b :=
  (program.onCursor_eq (Cursor.valid_start b)).result

theorem defined_decode (program : ReadProgram α) (b : Bytes) : (program.decode b).Defined :=
  (program.onCursor_eq (Cursor.valid_start b)).defined

/-! ## Sequences and fields -/

instance : Monad ReadProgram where
  pure a := .outcome (.ok a) (Outcome.defined_ok a)
  bind := .andThen

@[simp] theorem reader_outcome (x : Outcome α) (defined : x.Defined) :
    (outcome x defined).reader = liftM x := rfl

@[simp] theorem reader_byte : byte.reader = Reader.byte := rfl

@[simp] theorem reader_bytes (n : Nat) : (bytes n).reader = Reader.bytes n := rfl

@[simp] theorem reader_rest : rest.reader = Reader.rest := rfl

@[simp] theorem reader_within (b : Bytes) (inner : ReadProgram α) :
    (within b inner).reader = liftM (inner.reader.result b) := rfl

@[simp] theorem reader_pure (a : α) : (pure a : ReadProgram α).reader = pure a := rfl

@[simp] theorem reader_bind (program : ReadProgram α) (next : α → ReadProgram β) :
    (program >>= next).reader = program.reader >>= fun a => (next a).reader := rfl

theorem runOn_outcome_bind {x : Outcome α} {a : α} (hx : x = .ok a) (defined : x.Defined)
    (next : α → ReadProgram β) (b : Bytes) :
    (outcome x defined >>= next).reader.runOn b = (next a).reader.runOn b := by
  subst hx
  rfl

theorem runOn_attempt_bind (record : Bytes) (inner : ReadProgram α)
    (next : Option α → ReadProgram β) (b : Bytes) :
    (attempt record inner >>= next).reader.runOn b =
      (next (inner.reader.result record).toOption).reader.runOn b := rfl

@[simp] theorem reader_ite (c : Prop) [Decidable c] (yes no : ReadProgram α) :
    (if c then yes else no).reader = if c then yes.reader else no.reader :=
  apply_ite reader c yes no

/-- Refuses for a worded cause. -/
def refuse (fault : Fault) (worded : fault ≠ .undefined) : ReadProgram α :=
  .outcome (.error fault) (Outcome.defined_error worded)

@[simp] theorem reader_refuse (fault : Fault) (worded : fault ≠ .undefined) :
    (refuse fault worded : ReadProgram α).reader = throw fault := rfl

/-- Refuses for a worded cause unless the condition holds. -/
def check (condition : Bool) (fault : Fault) (worded : fault ≠ .undefined) : ReadProgram Unit :=
  .outcome (ensure condition fault) (Outcome.defined_ensure worded)

/-- A number of `n` bytes, most significant first. -/
def number (n : Nat) : ReadProgram Nat := do
  return (← .bytes n).toNatBE

/-- A byte string behind its length in `width` bytes. -/
def prefixed (width : Nat) : ReadProgram Bytes := do
  .bytes (← number width)

/-- A record that is decoded from a byte string behind its length. -/
def nested (width : Nat) (inner : ReadProgram α) : ReadProgram α := do
  .within (← prefixed width) inner

/-- The results of `n` runs. -/
def times (program : ReadProgram α) : (n : Nat) → ReadProgram (List α)
  | 0 => return []
  | n + 1 => do
    let a ← program
    return a :: (← times program n)

/-- As many results as a count byte says. -/
def counted (program : ReadProgram α) : ReadProgram (List α) := do
  times program (← .byte).toNat

/-- Refuses bytes that are left over. -/
def finish : ReadProgram Unit := do
  if (← .rest).isEmpty then return () else refuse (.malformedEncoding "trailing bytes") nofun

@[simp] theorem reader_number (n : Nat) : (number n).reader = Reader.number n := rfl

@[simp] theorem reader_prefixed (width : Nat) : (prefixed width).reader = Reader.prefixed width := rfl

@[simp] theorem reader_nested (width : Nat) (inner : ReadProgram α) :
    (nested width inner).reader =
      Reader.prefixed width >>= fun b => liftM (inner.reader.result b) := rfl

@[simp] theorem reader_times (program : ReadProgram α) (n : Nat) :
    (times program n).reader = Reader.times program.reader n := by
  induction n with
  | zero => rfl
  | succ n ih =>
    rw [times, Reader.times]
    simp only [reader_bind, reader_pure, ih]

@[simp] theorem reader_counted (program : ReadProgram α) :
    (counted program).reader = Reader.counted program.reader := by
  rw [counted, Reader.counted]
  simp only [reader_bind, reader_byte, reader_times]

@[simp] theorem reader_finish : finish.reader = Reader.finish := by
  rw [finish, Reader.finish]
  simp only [reader_bind, reader_rest, reader_ite, reader_pure, reader_refuse]

/-- A program that refuses a buffer unless a condition holds for all of it. -/
def guarded (condition : Bytes → Bool) (fault : Fault) (worded : fault ≠ .undefined)
    (program : ReadProgram α) : ReadProgram α := do
  check (condition (← .rest)) fault worded
  program

theorem result_guarded (condition : Bytes → Bool) {fault : Fault} (worded : fault ≠ .undefined)
    (program : ReadProgram α) (b : Bytes) :
    (guarded condition fault worded program).reader.result b =
      ensure (condition b) fault >>= fun _ => program.reader.result b := by
  have hrun : (guarded condition fault worded program).reader.result b =
      ((liftM (ensure (condition b) fault) >>= fun _ => program.reader : Reader α).runOn b).1 := rfl
  rw [hrun, Reader.runOn_bind, runOn_outcome]
  cases ensure (condition b) fault with
  | error e => rfl
  | ok u => rfl

/-- An optional element, read by a program if its length byte is 32. -/
def optional (program : ReadProgram α) (subject : String) : ReadProgram (Option α) := do
  let length := (← .byte).toNat
  if length = 0 then return none
  else if length = elementSize then return some (← program)
  else refuse (.malformedEncoding subject) nofun

@[simp] theorem reader_optional (program : ReadProgram α) (subject : String) :
    (optional program subject).reader = Reader.optional program.reader subject := by
  rw [optional, Reader.optional]
  simp only [reader_bind, reader_byte, reader_ite, reader_pure, reader_refuse]

section Elements

variable {F G : Type} [PointGroup F G]

theorem defined_pointOfBytes (b : Bytes) : (pointOfBytes b : Outcome G).Defined := by
  unfold pointOfBytes
  split
  · exact Outcome.defined_require nofun
  · exact Outcome.defined_error nofun

/-- A point without a length. -/
def point : ReadProgram G := do
  let b ← .bytes elementSize
  .outcome (pointOfBytes b) (defined_pointOfBytes b)

/-- An optional point. -/
def optPoint : ReadProgram (Option G) :=
  optional point "point field length"

/-- A point with a length byte. -/
def prefixedPoint : ReadProgram G := do
  match ← optPoint with
  | some p => return p
  | none => refuse (.malformedEncoding "missing point") nofun

/-- A list of points. -/
def points : ReadProgram (List G) :=
  counted prefixedPoint

@[simp] theorem reader_point : (point : ReadProgram G).reader = Reader.point := rfl

@[simp] theorem reader_optPoint : (optPoint : ReadProgram (Option G)).reader = Reader.optPoint :=
  reader_optional point _

@[simp] theorem reader_prefixedPoint :
    (prefixedPoint : ReadProgram G).reader = Reader.prefixedPoint := by
  rw [prefixedPoint, Reader.prefixedPoint, reader_bind, reader_optPoint]
  congr 1
  funext p
  cases p with
  | none => rfl
  | some p => rfl

@[simp] theorem reader_points : (points : ReadProgram (List G)).reader = Reader.points := by
  rw [points, Reader.points, reader_counted, reader_prefixedPoint]

variable [ScalarField F]

theorem defined_scalarOfBytes (b : Bytes) : (scalarOfBytes b : Outcome F).Defined := by
  unfold scalarOfBytes
  split
  · exact Outcome.defined_require nofun
  · exact Outcome.defined_error nofun

/-- A scalar without a length. -/
def scalar : ReadProgram F := do
  let b ← .bytes elementSize
  .outcome (scalarOfBytes b) (defined_scalarOfBytes b)

/-- An optional scalar. -/
def optScalar : ReadProgram (Option F) :=
  optional scalar "scalar field length"

@[simp] theorem reader_scalar : (scalar : ReadProgram F).reader = Reader.scalar := rfl

@[simp] theorem reader_optScalar : (optScalar : ReadProgram (Option F)).reader = Reader.optScalar :=
  reader_optional scalar _

end Elements

end ReadProgram

end ShieldedPayments
