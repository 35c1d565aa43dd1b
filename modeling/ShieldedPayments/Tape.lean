import ShieldedPayments.Fault
import ShieldedPayments.Hash.Blake2b

/-!
# Random tapes

Whatever needs randomness reads an infinite tape of bytes from its front. A tape is given block by
block; `Tape.expand` is the deterministic one that stretches a seed with BLAKE2b.

* `Tape.draw`: the next bytes of a tape.
* `Drawing`: computations that read a tape; `Proving` those that may also refuse. A refusal does not
  undo what was read before it.
-/

namespace ShieldedPayments

/-- An infinite tape of bytes: the bytes of the current block that are still unread, and the blocks
that follow. -/
structure Tape where
  /-- The unread bytes of the current block. -/
  pending : Bytes
  /-- The blocks in order. An empty block counts as one zero byte. -/
  block : Nat → Bytes
  /-- The position of the block after the current one. -/
  next : Nat

namespace Tape

/-- The next byte of a tape. -/
def byte (t : Tape) : UInt8 × Tape :=
  match t.pending with
  | x :: rest => (x, { t with pending := rest })
  | [] =>
    match t.block t.next with
    | x :: rest => (x, { t with pending := rest, next := t.next + 1 })
    | [] => (0, { t with next := t.next + 1 })

/-- The next `n` bytes of a tape. -/
def draw : (n : Nat) → Tape → Bytes × Tape
  | 0, t => ([], t)
  | n + 1, t =>
    let (x, t) := t.byte
    let (rest, t) := draw n t
    (x :: rest, t)

/-- The tape that starts with `front` and goes on with the BLAKE2b digests of the seed followed by
0, 1, 2, … in eight bytes. -/
def expand (front seed : Bytes) : Tape :=
  ⟨front, fun i => Hash.Blake2b.digest (seed ++ Bytes.ofNatBE 8 i), 0⟩

end Tape

/-- Computations that read a random tape. -/
abbrev Drawing := StateM Tape

/-- Computations that read a random tape and may refuse. -/
abbrev Proving := ExceptT Fault Drawing

/-- Reads the next `n` bytes of the tape. -/
def Drawing.bytes (n : Nat) : Drawing Bytes :=
  Tape.draw n

/-- The outcome of a computation on a tape, and the rest of the tape. -/
def Proving.runOn {α : Type} (p : Proving α) (t : Tape) : Outcome α × Tape :=
  (ExceptT.run p).run t

end ShieldedPayments
