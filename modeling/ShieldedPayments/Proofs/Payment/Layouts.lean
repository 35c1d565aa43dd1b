import ShieldedPayments.Proofs.Layout
import ShieldedPayments.Proofs.Payment.Codec
import ShieldedPayments.Payment.Basic

/-!
# The layouts of payments

What the encodings of coins, range proofs and payments are made of. Each layout renders to the
encoding, and is exact if the coin, proof or payment fits (`AccountPayment.exact_layout`,
`OneTimePayment.exact_layout`, `Conversion.exact_layout`).
-/

namespace ShieldedPayments

variable {F G : Type} [ScalarField F] [PointGroup F G]

open Layout

/-! ## Range proofs -/

namespace RangeProof

/-- The count of the commitments and that of the rounds, with what is around them. -/
def layout (proof : RangeProof F G) : Layout :=
  bytes (versionBytes proof.version) ++ counted (fun p => bytes (PointGroup.encode p)) proof.commitments
    ++ bytes (PointGroup.encode proof.a) ++ bytes (PointGroup.encode proof.s)
    ++ bytes (PointGroup.encode proof.t1) ++ bytes (PointGroup.encode proof.t2)
    ++ bytes (ScalarField.encode proof.tauX) ++ bytes (ScalarField.encode proof.tHat)
    ++ bytes (ScalarField.encode proof.mu)
    ++ (counted (fun round => bytes (PointGroup.encode round.1 ++ PointGroup.encode round.2))
        proof.argument.rounds
      ++ bytes (ScalarField.encode proof.argument.a) ++ bytes (ScalarField.encode proof.argument.b)
      ++ bytes (PointGroup.encode proof.argument.p))

theorem render_layout (proof : RangeProof F G) : proof.layout.render = proof.toBytes := by
  have hpoints : (counted (fun p : G => bytes (PointGroup.encode p)) proof.commitments).render =
      Writer.counted PointGroup.encode proof.commitments := render_counted (fun _ => rfl) _
  have hrounds : (counted (fun round : G × G => bytes (PointGroup.encode round.1
        ++ PointGroup.encode round.2)) proof.argument.rounds).render =
      Writer.counted (fun round => PointGroup.encode round.1 ++ PointGroup.encode round.2)
        proof.argument.rounds := render_counted (fun _ => rfl) _
  simp only [layout, render_append, render_bytes, hpoints, hrounds]
  rfl

theorem exact_layout {proof : RangeProof F G} (h : proof.Fits) : proof.layout.Exact := by
  have hcount : proof.commitments.length ≤ 255 := h.count.trans (by decide)
  have hrounds : proof.argument.rounds.length ≤ 255 := h.rounds.trans (by decide)
  exact ⟨⟨⟨⟨⟨⟨⟨⟨⟨trivial, exact_counted hcount fun _ _ => trivial⟩, trivial⟩, trivial⟩, trivial⟩,
    trivial⟩, trivial⟩, trivial⟩, trivial⟩,
    ⟨⟨exact_counted hrounds fun _ _ => trivial, trivial⟩, trivial⟩, trivial⟩

end RangeProof

/-- The layout of an optional range proof behind a length of `width` bytes. -/
def RangeProof.fieldLayout (width : Nat) (proof : Option (RangeProof F G)) : Layout :=
  prefixed width ((proof.map layout).getD (bytes []))

theorem RangeProof.render_fieldLayout (width : Nat) (proof : Option (RangeProof F G)) :
    (fieldLayout width proof).render =
      Writer.prefixed width ((proof.map RangeProof.toBytes).getD []) := by
  cases proof with
  | none => rfl
  | some proof =>
    show Writer.prefixed width proof.layout.render = _
    rw [render_layout]
    rfl

/-! ## Coins -/

namespace AccountCoin

def layout (coin : AccountCoin F G) : Layout :=
  optPoint coin.publicKey ++ optPoint coin.commitment ++ optScalar coin.derivator
    ++ optPoint coin.serialNumber ++ optScalar coin.randomness
    ++ shortPrefixed (bytes (trimmedNumber coin.value)) ++ shortPrefixed (bytes coin.info)

theorem render_layout (coin : AccountCoin F G) : coin.layout.render = coin.toBytes := by
  simp only [layout, render_append, render_optPoint, render_optScalar, render_shortPrefixed,
    render_bytes]
  rfl

theorem exact_layout {coin : AccountCoin F G} (h : coin.Fits) : coin.layout.Exact := by
  have hvalue : (trimmedNumber coin.value).length < 256 := by
    have hle := length_trimmedNumber_le coin.value
    omega
  exact ⟨⟨⟨⟨⟨⟨exact_optPoint _, exact_optPoint _⟩, exact_optScalar _⟩, exact_optPoint _⟩,
    exact_optScalar _⟩, ⟨hvalue, trivial⟩⟩, ⟨Nat.lt_succ_of_le h, trivial⟩⟩

end AccountCoin

namespace SealedCoin

def layout (coin : SealedCoin F G) : Layout :=
  shortPrefixed (bytes coin.encryptedBytes) ++ dualPrefixed coin.details.layout

theorem render_layout (coin : SealedCoin F G) : coin.layout.render = coin.toBytes := by
  rw [toBytes_eq, layout, render_append, render_shortPrefixed, render_bytes, render_dualPrefixed,
    AccountCoin.render_layout]

theorem exact_layout [PointGroup.Canonical F G] [ScalarField.Canonical F] {coin : SealedCoin F G}
    (h : coin.Fits) : coin.layout.Exact := by
  have hencrypted := h.length_encryptedBytes
  have hdetails := (AccountCoin.length_toBytes_bounds h.details).2
  have hinfo : coin.details.info.length ≤ 255 := h.details
  refine ⟨⟨Nat.lt_succ_of_le hencrypted, trivial⟩, ?_, AccountCoin.exact_layout h.details⟩
  rw [AccountCoin.render_layout]
  omega

end SealedCoin

namespace OneTimeCoin

def layout (coin : OneTimeCoin F G) : Layout :=
  bytes [version] ++ shortPrefixed (bytes coin.info) ++ optPoint coin.publicKey
    ++ optPoint coin.commitment ++ optPoint coin.keyImage ++ optScalar coin.sharedRandom
    ++ optScalar coin.sharedConcealRandom
    ++ shortPrefixed (bytes ((coin.txRandom.map TxRandom.toBytes).getD []))
    ++ optScalar coin.mask ++ optScalar coin.amount ++ optPoint coin.assetTag

theorem render_layout (coin : OneTimeCoin F G) : coin.layout.render = coin.toBytes := by
  simp only [layout, render_append, render_optPoint, render_optScalar, render_shortPrefixed,
    render_bytes]
  rfl

theorem exact_layout [PointGroup.Canonical F G] {coin : OneTimeCoin F G} (h : coin.Fits) :
    coin.layout.Exact := by
  have htx : ((coin.txRandom.map TxRandom.toBytes).getD []).length < 256 := by
    cases coin.txRandom with
    | none => exact Nat.succ_pos 255
    | some tx =>
      show tx.toBytes.length < 256
      rw [TxRandom.length_toBytes]
      decide
  exact ⟨⟨⟨⟨⟨⟨⟨⟨⟨⟨trivial, Nat.lt_succ_of_le h, trivial⟩, exact_optPoint _⟩, exact_optPoint _⟩,
    exact_optPoint _⟩, exact_optScalar _⟩, exact_optScalar _⟩, htx, trivial⟩, exact_optScalar _⟩,
    exact_optScalar _⟩, exact_optPoint _⟩

end OneTimeCoin

/-! ## Payments -/

namespace AccountPayment

def layout (payment : AccountPayment F G) : Layout :=
  bytes [version] ++ counted (fun p => prefixed 2 (bytes p.toBytes)) payment.ringProofs
    ++ counted (fun p => prefixed 2 (bytes p.toBytes)) payment.hiddenSerialProofs
    ++ counted (fun p => shortPrefixed (bytes p.toBytes)) payment.serialProofs
    ++ RangeProof.fieldLayout 2 payment.rangeProof
    ++ counted (fun c => shortPrefixed c.layout) payment.inputs
    ++ counted (fun c => dualPrefixed c.layout) payment.outputs
    ++ points payment.outputValues ++ points payment.outputDerivators ++ points payment.outputShards
    ++ optPoint payment.inputKey ++ points payment.inputValues ++ points payment.inputDerivators
    ++ optPoint payment.inputShard
    ++ counted (fun i => bytes (Writer.number 8 i.toNat)) payment.ledgerIndices

theorem render_layout (payment : AccountPayment F G) : payment.layout.render = payment.toBytes := by
  have hring : (counted (fun p : RingProof F G => prefixed 2 (bytes p.toBytes))
      payment.ringProofs).render = Writer.counted (fun p => Writer.prefixed 2 p.toBytes)
        payment.ringProofs := render_counted (fun _ => rfl) _
  have hhidden : (counted (fun p : HiddenSerialProof F G => prefixed 2 (bytes p.toBytes))
      payment.hiddenSerialProofs).render = Writer.counted (fun p => Writer.prefixed 2 p.toBytes)
        payment.hiddenSerialProofs := render_counted (fun _ => rfl) _
  have hserial : (counted (fun p : SerialProof F G => shortPrefixed (bytes p.toBytes))
      payment.serialProofs).render = Writer.counted (fun p => Writer.shortPrefixed p.toBytes)
        payment.serialProofs := render_counted (fun _ => rfl) _
  have hinputs : (counted (fun c : AccountCoin F G => shortPrefixed c.layout)
      payment.inputs).render = Writer.counted (fun c => Writer.shortPrefixed c.toBytes)
        payment.inputs :=
    render_counted (fun c => by rw [render_shortPrefixed, AccountCoin.render_layout]) _
  have houtputs : (counted (fun c : SealedCoin F G => dualPrefixed c.layout)
      payment.outputs).render = Writer.counted outputBytes payment.outputs :=
    render_counted (fun c => by rw [render_dualPrefixed, SealedCoin.render_layout]; rfl) _
  have hindices : (counted (fun i : UInt64 => bytes (Writer.number 8 i.toNat))
      payment.ledgerIndices).render = Writer.counted (fun i => Writer.number 8 i.toNat)
        payment.ledgerIndices := render_counted (fun _ => rfl) _
  simp only [layout, render_append, render_bytes, render_optPoint, render_points, hring, hhidden,
    hserial, hinputs, houtputs, hindices, RangeProof.render_fieldLayout]
  rfl

variable [ScalarField.Canonical F] [PointGroup.Canonical F G]

theorem exact_rangeLayout {width : Nat} (hwidth : 2 ≤ width) {proof : Option (RangeProof F G)}
    (h : ∀ p, proof = some p → p.Fits) : (RangeProof.fieldLayout width proof).Exact := by
  have hlength : 256 ^ 2 ≤ 256 ^ width := Nat.pow_le_pow_right (by decide) hwidth
  cases proof with
  | none => exact ⟨Nat.pow_pos (by decide), trivial⟩
  | some proof =>
    have hfits := h proof rfl
    refine ⟨?_, RangeProof.exact_layout hfits⟩
    show proof.layout.render.length < 256 ^ width
    rw [RangeProof.render_layout]
    exact (RangeProof.length_toBytes_bounds hfits).2.trans_le hlength

theorem exact_layout {payment : AccountPayment F G} (h : payment.Fits) : payment.layout.Exact := by
  have hring : ∀ p ∈ payment.ringProofs, (prefixed 2 (bytes p.toBytes)).Exact := by
    intro p _
    refine ⟨?_, trivial⟩
    rw [render_bytes, RingProof.length_toBytes]
    decide
  have hhidden : ∀ p ∈ payment.hiddenSerialProofs, (prefixed 2 (bytes p.toBytes)).Exact := by
    intro p _
    refine ⟨?_, trivial⟩
    rw [render_bytes, HiddenSerialProof.length_toBytes]
    decide
  have hserial : ∀ p ∈ payment.serialProofs, (shortPrefixed (bytes p.toBytes)).Exact := by
    intro p _
    refine ⟨?_, trivial⟩
    rw [render_bytes, SerialProof.length_toBytes]
    decide
  have hinputs : ∀ coin ∈ payment.inputs, (shortPrefixed coin.layout).Exact := by
    intro coin hcoin
    obtain ⟨hfits, hlength⟩ := h.inputs coin hcoin
    refine ⟨?_, AccountCoin.exact_layout hfits⟩
    rw [AccountCoin.render_layout]
    exact Nat.lt_succ_of_le hlength
  have houtputs : ∀ coin ∈ payment.outputs, (dualPrefixed coin.layout).Exact := by
    intro coin hcoin
    have hlength := (SealedCoin.length_toBytes_bounds (h.outputs coin hcoin)).2
    refine ⟨?_, SealedCoin.exact_layout (h.outputs coin hcoin)⟩
    rw [SealedCoin.render_layout]
    omega
  exact ⟨⟨⟨⟨⟨⟨⟨⟨⟨⟨⟨⟨⟨⟨trivial, exact_counted h.ringProofs hring⟩,
    exact_counted h.hiddenSerialProofs hhidden⟩, exact_counted h.serialProofs hserial⟩,
    exact_rangeLayout le_rfl h.rangeProof⟩, exact_counted h.inputCount hinputs⟩,
    exact_counted h.outputCount houtputs⟩, exact_points h.outputValues⟩,
    exact_points h.outputDerivators⟩, exact_points h.outputShards⟩, exact_optPoint _⟩,
    exact_points h.inputValues⟩, exact_points h.inputDerivators⟩, exact_optPoint _⟩,
    exact_counted h.ledgerIndices fun _ _ => trivial⟩

end AccountPayment

/-- The layout of one-time coins in a payment. -/
def OneTimeCoin.listLayout (coins : List (OneTimeCoin F G)) : Layout :=
  counted (fun c => prefixed 4 c.layout) coins

theorem OneTimeCoin.render_listLayout (coins : List (OneTimeCoin F G)) :
    (listLayout coins).render = Writer.counted (fun c => Writer.prefixed 4 c.toBytes) coins :=
  render_counted (fun c => by rw [render_prefixed, render_layout]) coins

theorem OneTimeCoin.exact_listLayout [ScalarField.Canonical F] [PointGroup.Canonical F G]
    {coins : List (OneTimeCoin F G)} (hcount : coins.length ≤ 255)
    (hcoins : ∀ coin ∈ coins, coin.Fits) : (listLayout coins).Exact := by
  refine exact_counted hcount fun coin hcoin => ⟨?_, exact_layout (hcoins coin hcoin)⟩
  rw [render_layout]
  exact length_toBytes_lt (hcoins coin hcoin)

namespace OneTimePayment

def layout (payment : OneTimePayment F G) : Layout :=
  bytes [version] ++ RangeProof.fieldLayout 4 payment.rangeProof
    ++ OneTimeCoin.listLayout payment.inputs ++ OneTimeCoin.listLayout payment.outputs

theorem render_layout (payment : OneTimePayment F G) : payment.layout.render = payment.toBytes := by
  simp only [layout, render_append, render_bytes, RangeProof.render_fieldLayout,
    OneTimeCoin.render_listLayout]
  rfl

theorem exact_layout [ScalarField.Canonical F] [PointGroup.Canonical F G]
    {payment : OneTimePayment F G} (h : payment.Fits) : payment.layout.Exact :=
  ⟨⟨⟨trivial, AccountPayment.exact_rangeLayout (by decide) h.rangeProof⟩,
    OneTimeCoin.exact_listLayout h.inputCount h.inputs⟩,
    OneTimeCoin.exact_listLayout h.outputCount h.outputs⟩

end OneTimePayment

namespace Conversion

def layout (conversion : Conversion F G) : Layout :=
  bytes [version] ++ counted (fun c => prefixed 4 c.layout) conversion.inputs
    ++ OneTimeCoin.listLayout conversion.outputs
    ++ counted (fun p => shortPrefixed (bytes p.toBytes)) conversion.serialProofs

theorem render_layout (conversion : Conversion F G) :
    conversion.layout.render = conversion.toBytes := by
  have hinputs : (counted (fun c : AccountCoin F G => prefixed 4 c.layout)
      conversion.inputs).render = Writer.counted (fun c => Writer.prefixed 4 c.toBytes)
        conversion.inputs :=
    render_counted (fun c => by rw [render_prefixed, AccountCoin.render_layout]) _
  have hserial : (counted (fun p : SerialProof F G => shortPrefixed (bytes p.toBytes))
      conversion.serialProofs).render = Writer.counted (fun p => Writer.shortPrefixed p.toBytes)
        conversion.serialProofs := render_counted (fun _ => rfl) _
  simp only [layout, render_append, render_bytes, OneTimeCoin.render_listLayout, hinputs, hserial]
  rfl

theorem exact_layout [ScalarField.Canonical F] [PointGroup.Canonical F G]
    {conversion : Conversion F G} (h : conversion.Fits) : conversion.layout.Exact := by
  have hinputs : ∀ coin ∈ conversion.inputs, (prefixed 4 coin.layout).Exact := by
    intro coin hcoin
    have hlength := (AccountCoin.length_toBytes_bounds (h.inputs coin hcoin)).2
    have hinfo : coin.info.length ≤ 255 := h.inputs coin hcoin
    refine ⟨?_, AccountCoin.exact_layout (h.inputs coin hcoin)⟩
    rw [AccountCoin.render_layout]
    omega
  have hserial : ∀ p ∈ conversion.serialProofs, (shortPrefixed (bytes p.toBytes)).Exact := by
    intro p _
    refine ⟨?_, trivial⟩
    rw [render_bytes, SerialProof.length_toBytes]
    decide
  exact ⟨⟨⟨trivial, exact_counted h.inputCount hinputs⟩,
    OneTimeCoin.exact_listLayout h.outputCount h.outputs⟩,
    exact_counted h.serialProofs hserial⟩

end Conversion

namespace AnyPayment

/-- What the encoding of a payment is made of. -/
def layout : AnyPayment F G → Layout
  | account payment => payment.layout
  | oneTime payment => payment.layout
  | conversion payment => payment.layout

theorem render_layout (payment : AnyPayment F G) : payment.layout.render = payment.toBytes := by
  cases payment with
  | account payment => exact payment.render_layout
  | oneTime payment => exact payment.render_layout
  | conversion payment => exact payment.render_layout

end AnyPayment

end ShieldedPayments
