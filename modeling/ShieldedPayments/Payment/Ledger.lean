import ShieldedPayments.Coin.Basic

/-!
# The ledger

Payments refer to commitments that earlier outputs left on the ledger by token, shard and position.
A verifier resolves such references through any `CommitmentSource`; `Ledger` is one that is kept in
memory and only grows.
-/

namespace ShieldedPayments

/-- Resolves the commitment of a token in a shard at a position (`CommitmentProvider`). -/
abbrev CommitmentSource (G : Type) := TokenId → UInt8 → UInt64 → Outcome G

/-- Commitments in the order of their arrival, for each token and shard (`InMemoryCommitments`). -/
structure Ledger (G : Type) where
  entries : List ((TokenId × UInt8) × List G) := []

namespace Ledger

variable {G : Type}

/-- The commitments of a token in a shard. -/
def commitments (ledger : Ledger G) (token : TokenId) (shard : UInt8) : List G :=
  (ledger.entries.lookup (token, shard)).getD []

/-- The number of commitments of a token in a shard (`InMemoryCommitments::count`). -/
def count (ledger : Ledger G) (token : TokenId) (shard : UInt8) : Nat :=
  (ledger.commitments token shard).length

/-- The position of a new commitment, and the ledger with it (`InMemoryCommitments::push`). -/
def push (ledger : Ledger G) (token : TokenId) (shard : UInt8) (commitment : G) :
    Nat × Ledger G :=
  let old := ledger.commitments token shard
  (old.length, ⟨((token, shard), old ++ [commitment]) :: ledger.entries⟩)

/-- The commitment at a position (`InMemoryCommitments::commitment_by_index`). -/
def source (ledger : Ledger G) : CommitmentSource G := fun token shard index =>
  require (ledger.commitments token shard)[index.toNat]?
    (.invalidInput "unknown commitment index")

end Ledger

/-- The facts about a transaction that its payment is checked against. -/
structure VerifyContext where
  params : ShardParams := {}
  fee : UInt64
  shard : UInt8
  token : TokenId := .native
  confidentialAsset : Bool := false

/-- The most inputs of a payment (`MAX_INPUT_COIN`). -/
def maxInputs : Nat := 255

/-- Whether no byte string occurs twice. -/
def allDistinct : List Bytes → Bool
  | [] => true
  | b :: rest => !rest.contains b && allDistinct rest

/-- Refuses a payment without inputs or outputs, or with too many. -/
def checkCounts (inputs outputs : Nat) : Outcome Unit := do
  ensure (inputs != 0 && inputs ≤ maxInputs) (.invalidInput "input coin count")
  ensure (outputs != 0 && outputs ≤ maxOutputs) (.invalidInput "output coin count")

/-- The items of one kind in a list of coins; another kind is refused by its name
(`expect_variant`). -/
def expectKind {α β : Type} (expected : String) (kind : α → String) (pick : α → Option β)
    (coins : List α) : Outcome (List β) :=
  coins.mapM fun c => require (pick c) (.typeMismatch expected (kind c))

end ShieldedPayments
