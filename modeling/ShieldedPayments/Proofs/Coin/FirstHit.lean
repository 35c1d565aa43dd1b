import Mathlib.Tactic.SplitIfs
import ShieldedPayments.Proofs.Bytes
import ShieldedPayments.Proofs.Coin.OneTimeKey
import ShieldedPayments.Proofs.Group.Exponents

/-!
# The search for a one-time key

A search walks the indices 1, 2, … below the bound, and stops at the first one whose key shows the
digits of the target. Which bytes show them is arithmetic in the base of the number of shards. A byte
whose leading digit is not that of an origin shows no target, and the walk goes past it as past any
other miss: what a search refuses is an exhausted range or more shards than three digits can tell apart,
and nothing else.

* `OneTimeKey.Target.accepts_eq`: a byte is accepted if its digits are those of the target.
* `OneTimeKey.searchFrom_eq_ok_iff`, `OneTimeKey.searchFrom_eq_error_iff`: a walk over the indices ends
  at the first hit, or has none.
* `OneTimeKey.search_finds_first`: what a search returns, and when it refuses.
-/

namespace ShieldedPayments

/-! ## The digits of a byte -/

theorem Origin.ofDigit_toDigit (origin : Origin) : ofDigit origin.toDigit = .ok origin := by
  cases origin <;> rfl

/-- A digit that is not that of an origin is malformed. -/
theorem Origin.ofDigit_of_ne {d : UInt8} (h : ∀ origin : Origin, d ≠ origin.toDigit) :
    ofDigit d = .error (.malformedEncoding "coin privacy type digit") := by
  have htransfer : d ≠ 0 := h .transfer
  have hmint : d ≠ 1 := h .mint
  unfold ofDigit
  rw [if_neg htransfer, if_neg hmint]

theorem Origin.toDigit_inj {origin other : Origin} :
    origin.toDigit.toNat = other.toDigit.toNat ↔ origin = other := by
  cases origin <;> cases other <;> decide

namespace ShardParams

variable {params : ShardParams} {lastByte : UInt8}

theorem checkPacked_eq_ok (hshards : params.numShards ≠ 0) (hpacked : params.numShards ≤ maxPackedShards) :
    params.checkPacked = .ok () := by
  unfold checkPacked
  rw [bne_iff_ne.mpr hshards, decide_eq_true hpacked]
  rfl

theorem checkPacked_eq_error (h : maxPackedShards < params.numShards) :
    params.checkPacked = .error (.unsupportedShardConfig params.numShards) := by
  unfold checkPacked
  rw [decide_eq_false (UInt8.not_le.mpr h), Bool.and_false]
  rfl

/-- What is left of a byte above its two lower digits. -/
def leadingDigit (params : ShardParams) (lastByte : UInt8) : Nat :=
  lastByte.toNat / (params.numShards.toNat * params.numShards.toNat)

/-- A byte whose leading digit is that of an origin has three digits. -/
theorem unpack_eq_ok (hpacked : params.checkPacked = .ok ()) {origin : Origin}
    (horigin : params.leadingDigit lastByte = origin.toDigit.toNat) :
    params.unpack lastByte = .ok ⟨(lastByte.toNat % params.numShards.toNat).toUInt8,
      (lastByte.toNat / params.numShards.toNat % params.numShards.toNat).toUInt8, origin⟩ := by
  have hdigit : (params.leadingDigit lastByte).toUInt8 = origin.toDigit := by
    rw [horigin]
    exact UInt8.ofNat_toNat
  unfold leadingDigit at hdigit
  unfold unpack
  rw [hpacked]
  show (Origin.ofDigit _ >>= _) = _
  rw [hdigit, Origin.ofDigit_toDigit]
  rfl

/-- A byte whose leading digit is not that of an origin is malformed. -/
theorem unpack_eq_error (hpacked : params.checkPacked = .ok ())
    (horigin : ∀ origin : Origin, params.leadingDigit lastByte ≠ origin.toDigit.toNat) :
    params.unpack lastByte = .error (.malformedEncoding "coin privacy type digit") := by
  have hdigit : ∀ origin : Origin, (params.leadingDigit lastByte).toUInt8 ≠ origin.toDigit := by
    intro origin h
    have hle : params.leadingDigit lastByte ≤ lastByte.toNat := Nat.div_le_self _ _
    have hbyte := lastByte.toNat_lt
    apply horigin origin
    rw [← h, toNat_toUInt8 (by omega)]
  unfold leadingDigit at hdigit
  unfold unpack
  rw [hpacked]
  show (Origin.ofDigit _ >>= _) = _
  rw [Origin.ofDigit_of_ne hdigit]
  rfl

end ShardParams

namespace OneTimeKey

namespace Target

/-- A target can be told apart if its digits fit one byte. -/
def Packable (target : Target) (params : ShardParams) : Prop :=
  target.sender.isSome = true → params.numShards ≤ maxPackedShards

/-- A byte shows a target if its lowest digit is the receiver's shard and, if a sender is wanted, its
next digit is the sender's shard and what is left is the digit of the origin. -/
def ShownBy (target : Target) (params : ShardParams) (lastByte : UInt8) : Prop :=
  lastByte.toNat % params.numShards.toNat = target.receiver.toNat ∧
    ∀ sender ∈ target.sender,
      lastByte.toNat / params.numShards.toNat % params.numShards.toNat = sender.toNat ∧
      params.leadingDigit lastByte = target.origin.toDigit.toNat

instance (target : Target) (params : ShardParams) (lastByte : UInt8) :
    Decidable (target.ShownBy params lastByte) :=
  @instDecidableAnd _ _ (instDecidableEqNat _ _) (Option.decidableForallMem target.sender)

variable {target : Target} {params : ShardParams}

/-- A byte is accepted if it shows the target, and is passed over otherwise. -/
theorem accepts_eq (hshards : params.numShards ≠ 0) (hpackable : target.Packable params)
    (lastByte : UInt8) :
    target.accepts params lastByte = .ok (decide (target.ShownBy params lastByte)) := by
  obtain ⟨receiver, sender, wanted⟩ := target
  cases sender with
  | none =>
    show params.shardOf lastByte >>= _ = _
    rw [ShardParams.shardOf, if_neg hshards]
    refine congrArg Except.ok (Bool.eq_iff_iff.mpr ?_)
    rw [beq_iff_eq, decide_eq_true_eq, ← UInt8.toNat_inj, UInt8.toNat_mod]
    exact (and_iff_left fun sender hsender => absurd hsender (Option.not_mem_none sender)).symm
  | some sender =>
    have hpacked := ShardParams.checkPacked_eq_ok hshards (hpackable rfl)
    unfold accepts
    by_cases hleading : ∃ origin : Origin, params.leadingDigit lastByte = origin.toDigit.toNat
    · obtain ⟨origin, horigin⟩ := hleading
      simp only [ShardParams.unpack_eq_ok hpacked horigin]
      refine congrArg Except.ok (Bool.eq_iff_iff.mpr ?_)
      have hlow := Nat.mod_le lastByte.toNat params.numShards.toNat
      have hhigh := Nat.div_le_self lastByte.toNat params.numShards.toNat
      have hnext := Nat.mod_le (lastByte.toNat / params.numShards.toNat) params.numShards.toNat
      have hbyte := lastByte.toNat_lt
      rw [beq_iff_eq, decide_eq_true_eq, ShardDigits.mk.injEq, ← UInt8.toNat_inj, ← UInt8.toNat_inj,
        toNat_toUInt8 (by omega), toNat_toUInt8 (by omega), ShownBy, horigin, Origin.toDigit_inj]
      simp only [Option.mem_def, Option.some.injEq, forall_eq']
    · have hmiss : ∀ origin : Origin, params.leadingDigit lastByte ≠ origin.toDigit.toNat :=
        not_exists.mp hleading
      simp only [ShardParams.unpack_eq_error hpacked hmiss]
      refine congrArg Except.ok (decide_eq_false ?_).symm
      rintro ⟨-, hshown⟩
      exact hmiss _ (hshown sender rfl).2

end Target

variable {F G : Type} [ScalarField F] [PointGroup F G]
variable {params : ShardParams} {target : Target} {secret publicSpend key : G} {index : UInt32}

/-- The key at an index shows the target. -/
def HitAt (params : ShardParams) (target : Target) (secret publicSpend : G) (index : UInt32) : Prop :=
  target.ShownBy params (lastByte (derive (PointGroup.encode secret) index publicSpend))

/-- No index from one on, below the bound, shows the target. -/
def NoHit (params : ShardParams) (target : Target) (secret publicSpend : G) : Prop :=
  ∀ index : UInt32, 1 ≤ index → index < params.maxTries →
    ¬ HitAt params target secret publicSpend index

/-- An index is the first one, from one on and below the bound, that shows the target. -/
structure FirstHit (params : ShardParams) (target : Target) (secret publicSpend : G) (index : UInt32) :
    Prop where
  positive : 1 ≤ index
  below : index < params.maxTries
  hit : HitAt params target secret publicSpend index
  first : ∀ earlier : UInt32, 1 ≤ earlier → earlier < index →
    ¬ HitAt params target secret publicSpend earlier

/-- One step of a walk: the key at the index if it shows the target, else what the rest of the walk
finds. -/
theorem searchFrom_succ (hshards : params.numShards ≠ 0) (hpackable : target.Packable params)
    (count start : Nat) :
    searchFrom params target (PointGroup.encode secret) publicSpend (count + 1) start =
      if target.ShownBy params
          (lastByte (derive (PointGroup.encode secret) start.toUInt32 publicSpend)) then
        .ok (derive (PointGroup.encode secret) start.toUInt32 publicSpend, start.toUInt32)
      else searchFrom params target (PointGroup.encode secret) publicSpend count (start + 1) := by
  rw [searchFrom, Target.accepts_eq hshards hpackable]
  split_ifs with hshown
  · rw [decide_eq_true hshown]
  · rw [decide_eq_false hshown]

omit [ScalarField F] [PointGroup F G] in
/-- What holds of all indices from a start on holds of the start and of all later ones. -/
theorem forall_from_iff {P : UInt32 → Prop} {start stop : Nat} (hstart : start.toUInt32.toNat = start)
    (hlt : start < stop) :
    (∀ index : UInt32, start ≤ index.toNat → index.toNat < stop → P index) ↔
      P start.toUInt32 ∧ ∀ index : UInt32, start + 1 ≤ index.toNat → index.toNat < stop → P index := by
  constructor
  · intro h
    exact ⟨h start.toUInt32 (by omega) (by omega), fun index hle => h index (by omega)⟩
  · rintro ⟨hfirst, hlater⟩ index hle hless
    rcases Nat.eq_or_lt_of_le hle with heq | hle
    · obtain rfl : start.toUInt32 = index := UInt32.toNat_inj.mp (hstart.trans heq)
      exact hfirst
    · exact hlater index hle hless

/-- A walk finds a key exactly if an index in its range shows the target, and then it finds the key at
the first such index. -/
theorem searchFrom_eq_ok_iff (hshards : params.numShards ≠ 0) (hpackable : target.Packable params)
    {count start : Nat} (hrange : start + count ≤ UInt32.size) :
    searchFrom params target (PointGroup.encode secret) publicSpend count start = .ok (key, index) ↔
      key = derive (PointGroup.encode secret) index publicSpend ∧
      start ≤ index.toNat ∧ index.toNat < start + count ∧
      HitAt params target secret publicSpend index ∧
      ∀ earlier : UInt32, start ≤ earlier.toNat → earlier.toNat < index.toNat →
        ¬ HitAt params target secret publicSpend earlier := by
  induction count generalizing start with
  | zero =>
    constructor
    · intro h
      cases h
    · rintro ⟨-, hle, hlt, -⟩
      omega
  | succ count ih =>
    have hstart : start.toUInt32.toNat = start := UInt32.toNat_ofNat_of_lt' (by omega)
    rw [searchFrom_succ hshards hpackable]
    split_ifs with hshown
    · constructor
      · intro h
        obtain ⟨rfl, rfl⟩ := Prod.mk.inj (Except.ok.inj h)
        exact ⟨rfl, by omega, by omega, hshown, fun earlier hle hlt => by omega⟩
      · rintro ⟨rfl, hle, hlt, hhit, hfirst⟩
        -- A later index would not be the first to hit.
        have hsame : start = index.toNat := by
          by_contra hne
          exact hfirst start.toUInt32 (by omega) (by omega) hshown
        rw [UInt32.toNat_inj.mp (hstart.trans hsame)]
    · rw [ih (by omega)]
      refine and_congr_right fun _ => ?_
      constructor
      · rintro ⟨hle, hlt, hhit, hfirst⟩
        exact ⟨by omega, by omega, hhit, (forall_from_iff hstart hle).mpr ⟨hshown, hfirst⟩⟩
      · rintro ⟨hle, hlt, hhit, hfirst⟩
        have hne : start ≠ index.toNat := by
          intro h
          obtain rfl : start.toUInt32 = index := UInt32.toNat_inj.mp (hstart.trans h)
          exact hshown hhit
        exact ⟨by omega, by omega, hhit, ((forall_from_iff hstart (by omega)).mp hfirst).2⟩

/-- A walk that finds no key is exhausted, and no index in its range shows the target. -/
theorem searchFrom_eq_error_iff (hshards : params.numShards ≠ 0) (hpackable : target.Packable params)
    {count start : Nat} (hrange : start + count ≤ UInt32.size) {fault : Fault} :
    searchFrom params target (PointGroup.encode secret) publicSpend count start = .error fault ↔
      fault = .otaExhausted params.maxTries ∧
      ∀ index : UInt32, start ≤ index.toNat → index.toNat < start + count →
        ¬ HitAt params target secret publicSpend index := by
  induction count generalizing start with
  | zero =>
    constructor
    · intro h
      exact ⟨(Except.error.inj h).symm, fun index hle hlt => by omega⟩
    · rintro ⟨rfl, -⟩
      rfl
  | succ count ih =>
    have hstart : start.toUInt32.toNat = start := UInt32.toNat_ofNat_of_lt' (by omega)
    rw [searchFrom_succ hshards hpackable, forall_from_iff hstart (by omega)]
    split_ifs with hshown
    · constructor
      · intro h
        cases h
      · rintro ⟨-, hnone, -⟩
        exact absurd hshown hnone
    · rw [ih (by omega), Nat.add_right_comm, Nat.add_assoc]
      exact and_congr_right fun _ => (and_iff_right hshown).symm

/-- A search that can tell its target apart is a walk over the indices from one on. -/
theorem search_of_packable (hshards : params.numShards ≠ 0) (hpackable : target.Packable params) :
    search params target secret publicSpend =
      searchFrom params target (PointGroup.encode secret) publicSpend (params.maxTries.toNat - 1) 1 := by
  unfold search
  split_ifs with hsender
  · rw [ShardParams.checkPacked_eq_ok hshards (hpackable hsender)]
    rfl
  · rfl

/-- A search for more digits than fit one byte is refused. -/
theorem search_of_not_packable (h : ¬ target.Packable params) :
    search params target secret publicSpend = .error (.unsupportedShardConfig params.numShards) := by
  obtain ⟨hsender, hmany⟩ := Classical.not_imp.mp h
  unfold search
  rw [if_pos hsender, ShardParams.checkPacked_eq_error (UInt8.not_le.mp hmany)]
  rfl

theorem search_eq_ok_iff (hshards : params.numShards ≠ 0) :
    search params target secret publicSpend = .ok (key, index) ↔
      target.Packable params ∧ key = derive (PointGroup.encode secret) index publicSpend ∧
        FirstHit params target secret publicSpend index := by
  by_cases hpackable : target.Packable params
  · have hmax := params.maxTries.toNat_lt
    rw [search_of_packable hshards hpackable,
      searchFrom_eq_ok_iff hshards hpackable (by rw [UInt32.size]; omega), and_iff_right hpackable]
    refine and_congr_right fun _ => ?_
    constructor
    · rintro ⟨hle, hlt, hhit, hfirst⟩
      refine ⟨UInt32.le_iff_toNat_le.mpr hle, UInt32.lt_iff_toNat_lt.mpr (by omega), hhit, ?_⟩
      intro earlier hearlier hless
      exact hfirst earlier (UInt32.le_iff_toNat_le.mp hearlier) (UInt32.lt_iff_toNat_lt.mp hless)
    · rintro ⟨hle, hlt, hhit, hfirst⟩
      rw [UInt32.lt_iff_toNat_lt] at hlt
      refine ⟨UInt32.le_iff_toNat_le.mp hle, by omega, hhit, fun earlier hearlier hless => ?_⟩
      exact hfirst earlier (UInt32.le_iff_toNat_le.mpr hearlier) (UInt32.lt_iff_toNat_lt.mpr hless)
  · rw [search_of_not_packable hpackable]
    constructor
    · intro h
      cases h
    · rintro ⟨h, -⟩
      exact absurd h hpackable

theorem search_eq_error_iff (hshards : params.numShards ≠ 0) {fault : Fault} :
    search params target secret publicSpend = .error fault ↔
      (¬ target.Packable params ∧ fault = .unsupportedShardConfig params.numShards) ∨
      (target.Packable params ∧ fault = .otaExhausted params.maxTries ∧
        NoHit params target secret publicSpend) := by
  by_cases hpackable : target.Packable params
  · have hmax := params.maxTries.toNat_lt
    rw [search_of_packable hshards hpackable,
      searchFrom_eq_error_iff hshards hpackable (by rw [UInt32.size]; omega)]
    simp only [hpackable, not_true_eq_false, false_and, true_and, false_or]
    refine and_congr_right fun _ => forall_congr' fun index => ?_
    rw [UInt32.le_iff_toNat_le, UInt32.lt_iff_toNat_lt]
    refine forall_congr' fun hle => imp_congr_left ?_
    have hone : (1 : UInt32).toNat = 1 := rfl
    omega
  · rw [search_of_not_packable hpackable]
    simp only [hpackable, not_false_eq_true, true_and, false_and, or_false, Except.error.injEq]
    exact eq_comm

/-- **A search returns the first hit and misses none.** It returns a key and its index exactly if the
index is the first one to show the target, and the key is the multiple of the base by the offset at the
index, plus the spend key. It is exhausted exactly if no index shows the target, and it refuses more
shards than the digits of a sender allow; it is never refused for another cause, since a byte whose
leading digit is not that of an origin is passed over. -/
theorem search_finds_first (params : ShardParams) (target : Target) (secret publicSpend : G)
    (hshards : params.numShards ≠ 0) :
    (∀ (key : G) (index : UInt32), search params target secret publicSpend = .ok (key, index) ↔
      target.Packable params ∧ key = baseMultiple (offset secret index : F) + publicSpend ∧
        FirstHit params target secret publicSpend index) ∧
    (search params target secret publicSpend = .error (.otaExhausted params.maxTries) ↔
      target.Packable params ∧ NoHit params target secret publicSpend) ∧
    (search params target secret publicSpend = .error (.unsupportedShardConfig params.numShards) ↔
      target.sender.isSome = true ∧ maxPackedShards < params.numShards) ∧
    (∀ fault, search params target secret publicSpend = .error fault →
      fault = .otaExhausted params.maxTries ∨ fault = .unsupportedShardConfig params.numShards) ∧
    ∀ lastByte : UInt8, target.sender.isSome = true → target.Packable params →
      (∀ origin : Origin, params.leadingDigit lastByte ≠ origin.toDigit.toNat) →
      target.accepts params lastByte = .ok false := by
  refine ⟨fun key index => search_eq_ok_iff hshards, ?_, ?_, ?_, ?_⟩
  · rw [search_eq_error_iff hshards]
    simp only [reduceCtorEq, and_false, false_or, true_and]
  · rw [search_eq_error_iff hshards]
    simp only [reduceCtorEq, and_true, false_and, and_false, or_false]
    unfold Target.Packable
    rw [Classical.not_imp, UInt8.not_le]
  · intro fault h
    rcases (search_eq_error_iff hshards).mp h with ⟨-, hfault⟩ | ⟨-, hfault, -⟩
    · exact .inr hfault
    · exact .inl hfault
  · intro lastByte hsender hpackable hmalformed
    rw [Target.accepts_eq hshards hpackable]
    refine congrArg Except.ok (decide_eq_false ?_)
    rintro ⟨-, hshown⟩
    obtain ⟨sender, hsome⟩ := Option.isSome_iff_exists.mp hsender
    exact hmalformed _ (hshown sender hsome).2

section

open Curve (Scalar)

/-- Among two shards, a last byte of five is that of a coin minted by shard 0 for shard 1. -/
theorem search_finds_first_minted :
    (2 : UInt8) ≠ 0 ∧
    search { numShards := 2, maxTries := 3 } ⟨1, some 0, .mint⟩ (0 : Exponent)
        (baseMultiple (ofNat (5 * 2 ^ 248) - offset (0 : Exponent) 1 : Scalar)) =
      .ok (baseMultiple (ofNat (5 * 2 ^ 248) : Scalar), 1) := by
  have hshards : (2 : UInt8) ≠ 0 := by decide
  have hkey := derive_sub_offset (0 : Exponent) 1 (ofNat (5 * 2 ^ 248) : Scalar)
  have hlast : lastByte (baseMultiple (ofNat (5 * 2 ^ 248) : Scalar) : Exponent) = 5 := by
    decide +kernel
  refine ⟨hshards, ((search_finds_first { numShards := 2, maxTries := 3 } ⟨1, some 0, .mint⟩ 0 _
    hshards).1 _ 1).mpr ⟨fun _ => by decide, hkey.symm, by decide, by decide, ?_, ?_⟩⟩
  · unfold HitAt
    rw [hkey, hlast]
    decide
  · intro earlier hpositive hless
    rw [UInt32.le_iff_toNat_le] at hpositive
    rw [UInt32.lt_iff_toNat_lt] at hless
    have hone : (1 : UInt32).toNat = 1 := rfl
    omega

end

end OneTimeKey

end ShieldedPayments
