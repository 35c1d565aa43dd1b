import ShieldedPayments.Transcript.Strobe
import ShieldedPayments.Group.Basic

/-!
# Proof transcripts

A transcript absorbs labelled messages and answers with challenges that depend on all of them, in
the layout of Merlin 1.0. Every transcript of this library first absorbs the protocol version.
-/

namespace ShieldedPayments

/-- The messages absorbed so far, as a duplex object. -/
structure Transcript where
  strobe : Transcript.Strobe

namespace Transcript

/-- The length of a message in four bytes, least significant first. -/
def lengthBytes (n : Nat) : Bytes :=
  Bytes.ofNatLE 4 n

/-- Absorbs a message under a label (`append_message`). -/
def append (t : Transcript) (label message : Bytes) : Transcript :=
  ⟨(t.strobe.framing (label ++ lengthBytes message.length)).associated message⟩

/-- Absorbs a number in eight bytes, least significant first (`append_u64`). -/
def appendWord (t : Transcript) (label : Bytes) (n : Nat) : Transcript :=
  t.append label (Bytes.ofNatLE 8 n)

/-- Squeezes `n` challenge bytes under a label (`challenge_bytes`). -/
def challengeBytes (t : Transcript) (label : Bytes) (n : Nat) : Bytes × Transcript :=
  let (bytes, strobe) := (t.strobe.framing (label ++ lengthBytes n)).squeeze n
  (bytes, ⟨strobe⟩)

/-- The transcript that has absorbed only a protocol label. -/
def start (label : Bytes) : Transcript :=
  append ⟨Strobe.init (Bytes.ascii "Merlin v1.0")⟩ (Bytes.ascii "dom-sep") label

/-- The transcript of a protocol of this library (`new_transcript`). -/
def init (protocol : Bytes) : Transcript :=
  (start protocol).append (Bytes.ascii "proto") (Bytes.ascii "privacy-core/v1")

variable {F G : Type} [ScalarField F] [PointGroup F G]

/-- Absorbs a point (`append_point`). -/
def appendPoint (t : Transcript) (label : Bytes) (p : G) : Transcript :=
  t.append label (PointGroup.encode p)

/-- Absorbs the number of points in a list, and each of them, under one label (`append_points`). -/
def appendPoints (t : Transcript) (label : Bytes) (ps : List G) : Transcript :=
  ps.foldl (fun t p => t.appendPoint label p) (t.appendWord label ps.length)

/-- Absorbs a scalar (`append_scalar`). -/
def appendScalar (t : Transcript) (label : Bytes) (s : F) : Transcript :=
  t.append label (ScalarField.encode s)

/-- Squeezes a challenge scalar (`challenge_scalar`). -/
def challenge (t : Transcript) (label : Bytes) : F × Transcript :=
  let (bytes, t) := t.challengeBytes label 64
  (ScalarField.ofUniform bytes, t)

end Transcript

end ShieldedPayments
