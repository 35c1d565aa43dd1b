import ShieldedPayments.Hash.Keccak

/-!
# STROBE-128

The duplex object of the STROBE protocol framework at the 128-bit level, with the three operations
that transcripts need: absorbing data that both sides know (`associated`), absorbing framing
(`framing`), and squeezing pseudorandom bytes (`squeeze`). An operation starts by absorbing the
position at which the previous one started and its own flags, unless it continues the previous one.
-/

namespace ShieldedPayments.Transcript

/-- The state of the duplex object. -/
structure Strobe where
  /-- The state of the permutation. -/
  state : Vector UInt8 200
  /-- The position at which the next byte is absorbed or squeezed. -/
  position : Fin 200
  /-- The position after the start of the current operation, and zero if a block started since. -/
  start : UInt8

namespace Strobe

/-- Bytes absorbed or squeezed between two permutations. -/
def rate : Fin 200 := 166

/-- The flags of an operation. -/
inductive Flags where
  | associated
  | framing
  | squeezing

/-- Flags as a byte: inbound 1, application 2, cipher 4, meta 16. -/
def Flags.toByte : Flags → UInt8
  | associated => 2
  | framing => 18
  | squeezing => 7

/-- Pads the block, permutes, and starts a new block. -/
def permute (s : Strobe) : Strobe :=
  let p := s.position
  let state := s.state.set p (s.state[p] ^^^ s.start)
  let q : Fin 200 := p + 1
  let state := state.set q (state[q] ^^^ 0x04)
  let r : Fin 200 := rate + 1
  let state := state.set r (state[r] ^^^ 0x80)
  ⟨Hash.Keccak.permute state, 0, 0⟩

/-- Moves to the next byte, and to the next block after the last one. -/
def advance (s : Strobe) : Strobe :=
  let s := { s with position := s.position + 1 }
  if s.position = rate then s.permute else s

/-- Absorbs one byte. -/
def absorbByte (s : Strobe) (x : UInt8) : Strobe :=
  advance { s with state := s.state.set s.position (s.state[s.position] ^^^ x) }

/-- Absorbs bytes. -/
def absorb (s : Strobe) (b : Bytes) : Strobe :=
  b.foldl absorbByte s

/-- Squeezes `n` bytes, each of which is erased from the state. -/
def squeezeBytes : (n : Nat) → Strobe → Bytes × Strobe
  | 0, s => ([], s)
  | n + 1, s =>
    let x := s.state[s.position]
    let (rest, s) := squeezeBytes n (advance { s with state := s.state.set s.position 0 })
    (x :: rest, s)

/-- Starts an operation. Squeezing starts at a new block. -/
def begin (s : Strobe) (flags : Flags) : Strobe :=
  let previous := s.start
  let s := { s with start := s.position.val.toUInt8 + 1 }
  let s := s.absorb [previous, flags.toByte]
  match flags with
  | .squeezing => if s.position = 0 then s else s.permute
  | _ => s

/-- Absorbs data that both sides know. -/
def associated (s : Strobe) (b : Bytes) : Strobe :=
  (s.begin .associated).absorb b

/-- Absorbs framing, which is data about the operation that follows. -/
def framing (s : Strobe) (b : Bytes) : Strobe :=
  (s.begin .framing).absorb b

/-- Squeezes `n` pseudorandom bytes. -/
def squeeze (s : Strobe) (n : Nat) : Bytes × Strobe :=
  squeezeBytes n (s.begin .squeezing)

/-- The object for a protocol label. -/
def init (label : Bytes) : Strobe :=
  let header : Bytes := [1, rate.val.toUInt8 + 2, 1, 0, 1, 96] ++ Bytes.ascii "STROBEv1.0.2"
  let state : Vector UInt8 200 := Vector.ofFn fun i => header.getD i.val 0
  framing ⟨Hash.Keccak.permute state, 0, 0⟩ label

end Strobe

end ShieldedPayments.Transcript
