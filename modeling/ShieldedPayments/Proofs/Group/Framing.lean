import ShieldedPayments.Group.Hashing
import ShieldedPayments.Proofs.Wire

/-!
# Framed parts

Each part of what a scalar is hashed from stands behind its length in four bytes. So the bytes that are
hashed determine the parts, if the length of every part fits its four bytes (`scalarHashInput_inj`). If one
of two inputs is shorter than 2 ^ 32 bytes as a whole, nothing has to be known of the parts on the other
side (`scalarHashInput_inj_of_length`): what frames a part is longer than the part. And a single part is
determined whatever its length (`scalarHashInput_singleton_inj`).
-/

namespace ShieldedPayments

variable {p q x y : Bytes} {ps qs : List Bytes}

theorem length_framedPart (p : Bytes) : (framedPart p).length = 4 + p.length := by
  rw [framedPart, List.length_append, Bytes.length_ofNatBE]

/-- A frame ends where its length says. -/
theorem framedPart_append_inj (hp : p.length < 2 ^ 32) (hq : q.length < 2 ^ 32) :
    framedPart p ++ x = framedPart q ++ y ↔ p = q ∧ x = y := by
  have hwidth : 2 ^ 32 = 256 ^ 4 := by decide
  rw [hwidth] at hp hq
  constructor
  · exact Reader.Reads.unique (Reader.reads_prefixed hp) (Reader.reads_prefixed hq)
  · rintro ⟨rfl, rfl⟩
    rfl

/-- Frames one after the other determine the parts and their number. -/
theorem flatMap_framedPart_inj (hps : ∀ p ∈ ps, p.length < 2 ^ 32) (hqs : ∀ q ∈ qs, q.length < 2 ^ 32) :
    ps.flatMap framedPart = qs.flatMap framedPart ↔ ps = qs := by
  have hframe : ∀ (p : Bytes) (ps : List Bytes), (p :: ps).flatMap framedPart ≠ [] := by
    intro p ps hnil
    have hlength := congrArg List.length hnil
    rw [List.flatMap_cons, List.length_append, length_framedPart, List.length_nil] at hlength
    omega
  refine ⟨fun h => ?_, congrArg _⟩
  induction ps generalizing qs with
  | nil =>
    cases qs with
    | nil => rfl
    | cons q qs => exact absurd h.symm (hframe q qs)
  | cons p ps ih =>
    cases qs with
    | nil => exact absurd h (hframe p ps)
    | cons q qs =>
      rw [List.forall_mem_cons] at hps hqs
      rw [List.flatMap_cons, List.flatMap_cons, framedPart_append_inj hps.1 hqs.1] at h
      rw [h.1, ih hps.2 hqs.2 h.2]

/-- **The bytes that are hashed determine the parts.** -/
theorem scalarHashInput_inj (hps : ∀ p ∈ ps, p.length < 2 ^ 32) (hqs : ∀ q ∈ qs, q.length < 2 ^ 32) :
    scalarHashInput ps = scalarHashInput qs ↔ ps = qs := by
  unfold scalarHashInput
  rw [List.append_right_inj, flatMap_framedPart_inj hps hqs]

/-! ## Parts of any length -/

theorem length_lt_of_mem (h : p ∈ ps) : p.length < (ps.flatMap framedPart).length := by
  obtain ⟨front, back, rfl⟩ := List.append_of_mem h
  rw [List.flatMap_append, List.flatMap_cons, List.length_append, List.length_append, length_framedPart]
  omega

/-- An input shorter than 2 ^ 32 bytes determines the parts that it is made of. -/
theorem scalarHashInput_inj_of_length (hps : (ps.flatMap framedPart).length < 2 ^ 32) :
    scalarHashInput ps = scalarHashInput qs ↔ ps = qs := by
  refine ⟨fun h => ?_, congrArg _⟩
  have hframes : ps.flatMap framedPart = qs.flatMap framedPart := List.append_cancel_left h
  refine (flatMap_framedPart_inj (fun p hp => ?_) (fun q hq => ?_)).mp hframes
  · exact (length_lt_of_mem hp).trans hps
  · exact (length_lt_of_mem hq).trans (hframes ▸ hps)

/-- A part on its own is determined by the input, whatever is written for its length. -/
theorem scalarHashInput_singleton_inj : scalarHashInput [p] = scalarHashInput [q] ↔ p = q := by
  refine ⟨fun h => ?_, fun h => by rw [h]⟩
  have hframes : [p].flatMap framedPart = [q].flatMap framedPart := List.append_cancel_left h
  rw [List.flatMap_singleton, List.flatMap_singleton] at hframes
  exact (List.append_inj hframes (by rw [Bytes.length_ofNatBE, Bytes.length_ofNatBE])).2

end ShieldedPayments
