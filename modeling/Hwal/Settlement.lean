/-
`utils.rs`, `tick_position` and `cancel_position`: how the collateral held in a
position account is split and paid out.
-/
import Hwal.ConfigInstructions
import Hwal.TickEvaluation

namespace Hwal

open Guard

/-! ### utils.rs -/

def bpsOf (amount : UInt64) (bps : UInt16) : Except ProgramError UInt64 :=
  okOr (((U128.checkedMul amount.toNat bps.toNat).bind fun value =>
      U128.checkedDiv value bpsDenominator.toNat).bind UInt64.tryFromNat)
    (.hwal .mathOverflow)

def checkedSub (a b : UInt64) : Except ProgramError UInt64 :=
  okOr (a.checkedSub b) (.hwal .mathOverflow)

/-- Two raw lamport writes; the credit reads the balance the debit left. -/
def transferLamportsFromPda (lamports : Lamports) (src dst : Pubkey) (amount : UInt64) :
    Except ProgramError Lamports :=
  if amount = 0 then .ok lamports
  else if lamports src < amount then .error (.hwal .insufficientVaultLamports)
  else do
    let debited ← okOr ((lamports src).checkedSub amount) (.hwal .mathOverflow)
    let lamports := Function.update lamports src debited
    let credited ← okOr ((lamports dst).checkedAdd amount) (.hwal .mathOverflow)
    return Function.update lamports dst credited

/-- The widened product always fits, so only the narrowing can fail. -/
theorem bpsOf_eq_ok_iff {amount fee : UInt64} {bps : UInt16} :
    bpsOf amount bps = .ok fee ↔ fee.toNat = amount.toNat * bps.toNat / 10000 := by
  have hproduct : amount.toNat * bps.toNat < 2 ^ 128 := by
    calc amount.toNat * bps.toNat
        ≤ 2 ^ 64 * 2 ^ 16 :=
          Nat.mul_le_mul (Nat.le_of_lt amount.toNat_lt) (Nat.le_of_lt bps.toNat_lt)
      _ < 2 ^ 128 := by decide
  have hdenominator : bpsDenominator.toNat = 10000 := rfl
  simp only [bpsOf, okOr_eq_ok_iff, U128.checkedMul_eq_some_of_lt hproduct,
    Option.bind_some, U128.checkedDiv, hdenominator, Nat.reduceEqDiff, ↓reduceIte,
    UInt64.tryFromNat_eq_some_iff]
  exact eq_comm

theorem exists_bpsOf (amount : UInt64) (bps : UInt16) (h : bps.toNat ≤ 10000) :
    ∃ fee, bpsOf amount bps = .ok fee := by
  have hquot : amount.toNat * bps.toNat / 10000 ≤ amount.toNat := by
    apply Nat.div_le_of_le_mul
    rw [Nat.mul_comm 10000]
    exact Nat.mul_le_mul_left _ h
  have hlt : amount.toNat * bps.toNat / 10000 < 2 ^ 64 :=
    Nat.lt_of_le_of_lt hquot amount.toNat_lt
  refine ⟨UInt64.ofNat (amount.toNat * bps.toNat / 10000), bpsOf_eq_ok_iff.mpr ?_⟩
  rw [UInt64.toNat_ofNat', Nat.mod_eq_of_lt hlt]

theorem transferLamportsFromPda_eq_move {lamports : Lamports} {src dst : Pubkey}
    {amount : UInt64} (hpos : amount ≠ 0) (hcover : ¬ lamports src < amount) :
    transferLamportsFromPda lamports src dst amount =
      okOr (Ledger.move? lamports src dst amount) (.hwal .mathOverflow) := by
  simp only [transferLamportsFromPda, hpos, hcover, ↓reduceIte, Ledger.move?]
  cases (lamports src).checkedSub amount with
  | none => rfl
  | some debited =>
      simp only [okOr_some, ok_bind]
      cases (Function.update lamports src debited dst).checkedAdd amount with
      | none => rfl
      | some credited => rfl

theorem transferLamportsFromPda_eq_ok {lamports lamports' : Lamports} {src dst : Pubkey}
    {amount : UInt64} (h : transferLamportsFromPda lamports src dst amount = .ok lamports') :
    Ledger.Moved [⟨src, dst, amount.toNat⟩] lamports lamports' := by
  by_cases hzero : amount = 0
  · subst hzero
    obtain rfl := Except.ok.inj h
    intro k
    simp [Ledger.Transfer.delta]
  · by_cases hshort : lamports src < amount
    · simp [transferLamportsFromPda, hzero, hshort] at h
    · rw [transferLamportsFromPda_eq_move hzero hshort, okOr_eq_ok_iff] at h
      exact (Ledger.move?_eq_some h).2

/-- A covered transfer goes through while the supply fits the balance type. -/
theorem exists_transferLamportsFromPda {lamports : Lamports} {src : Pubkey} (dst : Pubkey)
    {amount : UInt64} (hsupply : Ledger.SupplyAtMost (2 ^ 64 - 1) lamports)
    (hcover : amount.toNat ≤ (lamports src).toNat) :
    ∃ lamports', transferLamportsFromPda lamports src dst amount = .ok lamports' := by
  by_cases hzero : amount = 0
  · exact ⟨lamports, by simp [transferLamportsFromPda, hzero]⟩
  · have hnotShort : ¬ lamports src < amount := by
      intro hlt
      have := UInt64.lt_iff_toNat_lt.mp hlt
      omega
    obtain ⟨lamports', hmove⟩ := Ledger.exists_move? dst hsupply hcover
    exact ⟨lamports', by rw [transferLamportsFromPda_eq_move hzero hnotShort, hmove]; rfl⟩

/-- `if amount > 0 { transfer_lamports_from_pda(..)? }`. -/
def payOut (lamports : Lamports) (src dst : Pubkey) (amount : UInt64) :
    Except ProgramError Lamports :=
  if amount > 0 then transferLamportsFromPda lamports src dst amount else .ok lamports

theorem payOut_eq_ok {lamports lamports' : Lamports} {src dst : Pubkey} {amount : UInt64}
    (h : payOut lamports src dst amount = .ok lamports') :
    Ledger.Moved [⟨src, dst, amount.toNat⟩] lamports lamports' := by
  by_cases hpos : amount > 0
  · rw [payOut, if_pos hpos] at h
    exact transferLamportsFromPda_eq_ok h
  · rw [payOut, if_neg hpos] at h
    obtain rfl := Except.ok.inj h
    have hzero : amount.toNat = 0 := by
      have hle := UInt64.le_iff_toNat_le.mp (UInt64.not_lt.mp hpos)
      simpa using hle
    intro k
    simp [hzero, Ledger.Transfer.delta]

theorem exists_payOut {lamports : Lamports} {src : Pubkey} (dst : Pubkey) {amount : UInt64}
    (hsupply : Ledger.SupplyAtMost (2 ^ 64 - 1) lamports)
    (hcover : amount.toNat ≤ (lamports src).toNat) :
    ∃ lamports', payOut lamports src dst amount = .ok lamports' := by
  by_cases hpos : amount > 0
  · rw [payOut, if_pos hpos]
    exact exists_transferLamportsFromPda dst hsupply hcover
  · exact ⟨lamports, by rw [payOut, if_neg hpos]⟩

/-! ### tick_position -/

structure TickPosition where
  keeper : Pubkey
  config : Pubkey
  feed : Pubkey
  position : Pubkey
  owner : Pubkey
  feeReceiver : Pubkey
deriving DecidableEq, Repr

def TickPosition.tryAccounts (accs : TickPosition) (rt : Runtime) (w : World) (tx : Tx) :
    Except ProgramError (Config × PriceFeed × Position) := do
  tx.requireSigner accs.keeper
  let config ← w.loadConfig accs.config
  let feed ← w.loadPriceFeed accs.feed
  let position ← w.loadPosition accs.position
  tx.requireMut accs.keeper
  tx.requireMut accs.config
  rt.requireSeeds .config config.bump accs.config
  require (accs.feed = position.feed) (.hwal .feedMismatch)
  tx.requireMut accs.position
  rt.requireSeeds (.position position.owner position.nonce) position.bump accs.position
  tx.requireMut accs.owner
  requireAddress accs.owner position.owner (.hwal .notPositionOwner)
  tx.requireMut accs.feeReceiver
  requireAddress accs.feeReceiver config.feeReceiver (.anchor .constraintAddress)
  return (config, feed, position)

/-- The accounts `tick_position` accepts, and what they hold. -/
structure TickAccounts (accs : TickPosition) (rt : Runtime) (w : World) (tx : Tx)
    (config : Config) (feed : PriceFeed) (position : Position) : Prop where
  keeper_signs : accs.keeper ∈ tx.signers
  config_loaded : w.configs accs.config = some config
  feed_loaded : w.feeds accs.feed = some feed
  position_loaded : w.positions accs.position = some position
  keeper_mut : accs.keeper ∈ tx.writable
  config_mut : accs.config ∈ tx.writable
  config_seeds : rt.createProgramAddress .config config.bump = some accs.config
  feed_matches : accs.feed = position.feed
  position_mut : accs.position ∈ tx.writable
  position_seeds : rt.createProgramAddress (.position position.owner position.nonce)
    position.bump = some accs.position
  owner_mut : accs.owner ∈ tx.writable
  owner_matches : accs.owner = position.owner
  feeReceiver_mut : accs.feeReceiver ∈ tx.writable
  feeReceiver_matches : accs.feeReceiver = config.feeReceiver

theorem tickPosition_tryAccounts_eq_ok_iff {accs : TickPosition} {rt : Runtime} {w : World}
    {tx : Tx} {config : Config} {feed : PriceFeed} {position : Position} :
    accs.tryAccounts rt w tx = .ok (config, feed, position) ↔
      TickAccounts accs rt w tx config feed position := by
  simp only [TickPosition.tryAccounts, Tx.requireSigner, Tx.requireMut, requireAddress,
    Runtime.requireSeeds, bind_eq_ok_iff, require_eq_ok_iff, exists_and_left, exists_const,
    World.loadConfig_eq_ok_iff, World.loadPriceFeed_eq_ok_iff, World.loadPosition_eq_ok_iff,
    pure_eq_ok_iff, Prod.mk.injEq]
  constructor
  · rintro ⟨h1, config', h2, feed', h3, position', h4, h5, h6, h7, h8, h9, h10, h11, h12,
      h13, h14, rfl, rfl, rfl⟩
    exact ⟨h1, h2, h3, h4, h5, h6, h7, h8, h9, h10, h11, h12, h13, h14⟩
  · intro h
    exact ⟨h.keeper_signs, config, h.config_loaded, feed, h.feed_loaded, position,
      h.position_loaded, h.keeper_mut, h.config_mut, h.config_seeds, h.feed_matches,
      h.position_mut, h.position_seeds, h.owner_mut, h.owner_matches, h.feeReceiver_mut,
      h.feeReceiver_matches, rfl, rfl, rfl⟩

/-- How a settled position's collateral is divided. -/
structure Payout where
  fee : UInt64
  keeperReward : UInt64
  netToOwner : UInt64
deriving DecidableEq, Repr

def computePayout (config : Config) (collateral : UInt64) : Except ProgramError Payout := do
  let fee ← bpsOf collateral config.feeBps
  let keeperReward ← bpsOf collateral config.keeperRewardBps
  let afterFee ← checkedSub collateral fee
  let netToOwner ← checkedSub afterFee keeperReward
  return ⟨fee, keeperReward, netToOwner⟩

/-- Fee receiver, keeper, owner, in this order, each from the position account. -/
def payAll (lamports : Lamports) (accs : TickPosition) (payout : Payout) :
    Except ProgramError Lamports := do
  let lamports ← payOut lamports accs.position accs.feeReceiver payout.fee
  let lamports ← payOut lamports accs.position accs.keeper payout.keeperReward
  payOut lamports accs.position accs.owner payout.netToOwner

def Position.settled (position : Position) (trigger : UInt8) (now : Int64) : Position :=
  { position with
    collateral := 0
    status := statusTriggered
    triggerReason := trigger
    settledAt := now }

def Config.countTriggered (config : Config) (payout : Payout) : Config :=
  { config with
    totalPositionsTriggered := config.totalPositionsTriggered.saturatingAdd 1
    totalFeesCollected := config.totalFeesCollected.saturatingAdd payout.fee
    totalKeeperRewardsPaid :=
      config.totalKeeperRewardsPaid.saturatingAdd payout.keeperReward }

/-- The part of the handler a fired trigger reaches. -/
def settlePosition (w : World) (tx : Tx) (accs : TickPosition) (config : Config)
    (position : Position) (price : UInt64) (trigger : UInt8) :
    Except ProgramError World := do
  let payout ← computePayout config position.collateral
  let lamports ← payAll w.lamports accs payout
  let position := position.settled trigger tx.unixTimestamp
  return (((w.withLamports lamports).store accs.position (.position position)).store
      accs.config (.config (config.countTriggered payout))).emit
    (.positionTriggered accs.position position.owner trigger price payout.netToOwner
      payout.fee payout.keeperReward accs.keeper position.settledAt)

/-- The part of the handler reached when no trigger fires. -/
def recordTick (w : World) (accs : TickPosition) (position : Position) (price : UInt64) :
    World :=
  (w.store accs.position (.position position)).emit
    (.positionTicked accs.position price position.trailingExtreme position.lastTickAt)

def tickPosition (rt : Runtime) (w : World) (tx : Tx) (accs : TickPosition) :
    Except ProgramError World := do
  let (config, feed, position) ← accs.tryAccounts rt w tx
  let price ← tickPrice position feed tx.unixTimestamp
  let position := position.observe price tx.unixTimestamp
  let trigger ← evaluateTrigger position price
  if trigger = triggerNone then return recordTick w accs position price
  else settlePosition w tx accs config position price trigger

/-- The three amounts of a payout, exactly. -/
structure PayoutOf (config : Config) (collateral : UInt64) (payout : Payout) : Prop where
  fee : payout.fee.toNat = collateral.toNat * config.feeBps.toNat / 10000
  keeperReward :
    payout.keeperReward.toNat = collateral.toNat * config.keeperRewardBps.toNat / 10000
  total : payout.fee.toNat + payout.keeperReward.toNat + payout.netToOwner.toNat =
    collateral.toNat

theorem computePayout_eq_ok_iff {config : Config} {collateral : UInt64} {payout : Payout} :
    computePayout config collateral = .ok payout ↔ PayoutOf config collateral payout := by
  simp only [computePayout, bind_eq_ok_iff, pure_eq_ok_iff, bpsOf_eq_ok_iff, checkedSub,
    okOr_eq_ok_iff, UInt64.checkedSub_eq_some_iff]
  constructor
  · rintro ⟨fee, hfee, reward, hreward, afterFee, hafter, net, hnet, rfl⟩
    exact ⟨hfee, hreward, by dsimp only; omega⟩
  · intro h
    have htotal := h.total
    have hnet := payout.netToOwner.toNat_lt
    have hcollateral := collateral.toNat_lt
    have hfits : payout.keeperReward.toNat + payout.netToOwner.toNat < 2 ^ 64 := by omega
    refine ⟨payout.fee, h.fee, payout.keeperReward, h.keeperReward,
      UInt64.ofNat (payout.keeperReward.toNat + payout.netToOwner.toNat), ?_,
      payout.netToOwner, ?_, rfl⟩
    · rw [UInt64.toNat_ofNat', Nat.mod_eq_of_lt hfits]
      omega
    · rw [UInt64.toNat_ofNat', Nat.mod_eq_of_lt hfits]
      omega

/-- Capped rates, read over the integers. -/
theorem rates_le {config : Config} (h : config.RatesCapped) :
    config.feeBps.toNat ≤ 500 ∧ config.keeperRewardBps.toNat ≤ 200 :=
  ⟨UInt16.le_iff_toNat_le.mp h.1, UInt16.le_iff_toNat_le.mp h.2⟩

/-- Capped shares, each rounded down: at most 5 and 2 percent. -/
theorem capped_shares_le {config : Config} (h : config.RatesCapped) (collateral : Nat) :
    collateral * config.feeBps.toNat / 10000 ≤ collateral * 500 / 10000 ∧
      collateral * config.keeperRewardBps.toNat / 10000 ≤ collateral * 200 / 10000 := by
  rcases rates_le h with ⟨hfee, hreward⟩
  constructor
  · exact Nat.div_le_div_right (Nat.mul_le_mul_left _ hfee)
  · exact Nat.div_le_div_right (Nat.mul_le_mul_left _ hreward)

theorem PayoutOf.shares_le {config : Config} {collateral : UInt64} {payout : Payout}
    (h : PayoutOf config collateral payout) (hcapped : config.RatesCapped) :
    payout.fee.toNat ≤ collateral.toNat * 500 / 10000 ∧
      payout.keeperReward.toNat ≤ collateral.toNat * 200 / 10000 := by
  rw [h.fee, h.keeperReward]
  exact capped_shares_le hcapped collateral.toNat

/-- Capped rates always leave a payout. -/
theorem exists_payoutOf {config : Config} (collateral : UInt64) (hcapped : config.RatesCapped) :
    ∃ payout, PayoutOf config collateral payout := by
  rcases rates_le hcapped with ⟨hfee, hreward⟩
  obtain ⟨fee, hfeeOk⟩ := exists_bpsOf collateral config.feeBps (by omega)
  obtain ⟨reward, hrewardOk⟩ := exists_bpsOf collateral config.keeperRewardBps (by omega)
  have hfeeValue := bpsOf_eq_ok_iff.mp hfeeOk
  have hrewardValue := bpsOf_eq_ok_iff.mp hrewardOk
  rcases capped_shares_le hcapped collateral.toNat with ⟨hfeeShare, hrewardShare⟩
  have hcollateral := collateral.toNat_lt
  refine ⟨⟨fee, reward, UInt64.ofNat (collateral.toNat - fee.toNat - reward.toNat)⟩,
    hfeeValue, hrewardValue, ?_⟩
  dsimp only
  rw [UInt64.toNat_ofNat', Nat.mod_eq_of_lt (by omega)]
  omega

/-- The transfers a settlement makes out of the position account. -/
def settlementTransfers (accs : TickPosition) (payout : Payout) :
    List (Ledger.Transfer Pubkey) :=
  [⟨accs.position, accs.feeReceiver, payout.fee.toNat⟩,
    ⟨accs.position, accs.keeper, payout.keeperReward.toNat⟩,
    ⟨accs.position, accs.owner, payout.netToOwner.toNat⟩]

theorem payAll_eq_ok {lamports lamports' : Lamports} {accs : TickPosition} {payout : Payout}
    (h : payAll lamports accs payout = .ok lamports') :
    Ledger.Moved (settlementTransfers accs payout) lamports lamports' := by
  simp only [payAll, bind_eq_ok_iff] at h
  obtain ⟨afterFee, hfee, afterReward, hreward, hnet⟩ := h
  exact (payOut_eq_ok hfee).cons ((payOut_eq_ok hreward).cons (payOut_eq_ok hnet))

/-- One transfer takes at most its amount from its source. -/
theorem moved_source_le {lamports lamports' : Lamports} {src dst : Pubkey} {amount : Nat}
    (h : Ledger.Moved [⟨src, dst, amount⟩] lamports lamports') :
    (lamports src).toNat ≤ (lamports' src).toNat + amount := by
  have hsrc := h src
  simp only [Ledger.netDelta_cons, Ledger.netDelta_nil, Ledger.Transfer.delta,
    ↓reduceIte, Int.add_zero] at hsrc
  split at hsrc <;> omega

/-- Three payments go through whenever the account covers their sum, whichever
of the payees coincide. -/
theorem exists_payAll {lamports : Lamports} {accs : TickPosition} {payout : Payout}
    (hsupply : Ledger.SupplyAtMost (2 ^ 64 - 1) lamports)
    (hcover : payout.fee.toNat + payout.keeperReward.toNat + payout.netToOwner.toNat ≤
      (lamports accs.position).toNat) :
    ∃ lamports', payAll lamports accs payout = .ok lamports' := by
  have hfeeCover : payout.fee.toNat ≤ (lamports accs.position).toNat := by omega
  obtain ⟨afterFee, hfee⟩ := exists_payOut accs.feeReceiver hsupply hfeeCover
  have hfeeMoved := payOut_eq_ok hfee
  have hfeeLeft := moved_source_le hfeeMoved
  have hsupplyFee := hsupply.moved hfeeMoved
  have hrewardCover : payout.keeperReward.toNat ≤ (afterFee accs.position).toNat := by omega
  obtain ⟨afterReward, hreward⟩ := exists_payOut accs.keeper hsupplyFee hrewardCover
  have hrewardMoved := payOut_eq_ok hreward
  have hrewardLeft := moved_source_le hrewardMoved
  have hsupplyReward := hsupplyFee.moved hrewardMoved
  have hnetCover : payout.netToOwner.toNat ≤ (afterReward accs.position).toNat := by omega
  obtain ⟨afterNet, hnet⟩ := exists_payOut accs.owner hsupplyReward hnetCover
  exact ⟨afterNet, by simp only [payAll, hfee, hreward, hnet, ok_bind]⟩

theorem settlePosition_eq_ok {w w' : World} {tx : Tx} {accs : TickPosition}
    {config : Config} {position : Position} {price : UInt64} {trigger : UInt8}
    (h : settlePosition w tx accs config position price trigger = .ok w') :
    ∃ payout lamports,
      PayoutOf config position.collateral payout ∧
      Ledger.Moved (settlementTransfers accs payout) w.lamports lamports ∧
      w' = (((w.withLamports lamports).store accs.position
            (.position (position.settled trigger tx.unixTimestamp))).store accs.config
          (.config (config.countTriggered payout))).emit
        (.positionTriggered accs.position position.owner trigger price payout.netToOwner
          payout.fee payout.keeperReward accs.keeper tx.unixTimestamp) := by
  simp only [settlePosition, bind_eq_ok_iff, computePayout_eq_ok_iff, pure_eq_ok_iff] at h
  obtain ⟨payout, hpayout, lamports, hpay, rfl⟩ := h
  exact ⟨payout, lamports, hpayout, payAll_eq_ok hpay, rfl⟩

theorem tickPosition_eq_ok {rt : Runtime} {w w' : World} {tx : Tx} {accs : TickPosition}
    (h : tickPosition rt w tx accs = .ok w') :
    ∃ config feed position,
      TickAccounts accs rt w tx config feed position ∧
      tickPrice position feed tx.unixTimestamp = .ok feed.price ∧
      ¬ (position.observe feed.price tx.unixTimestamp).Stuck feed.price ∧
      ((position.observe feed.price tx.unixTimestamp).firstHit feed.price = triggerNone ∧
          w' = recordTick w accs (position.observe feed.price tx.unixTimestamp) feed.price ∨
        (position.observe feed.price tx.unixTimestamp).firstHit feed.price ≠ triggerNone ∧
          settlePosition w tx accs config (position.observe feed.price tx.unixTimestamp)
            feed.price
            ((position.observe feed.price tx.unixTimestamp).firstHit feed.price) =
          .ok w') := by
  simp only [tickPosition, bind_eq_ok_iff, Prod.exists, tickPosition_tryAccounts_eq_ok_iff,
    evaluateTrigger_eq_ok_iff] at h
  obtain ⟨config, feed, position, haccs, price, hprice, trigger, ⟨hstuck, htrigger⟩, h⟩ := h
  obtain rfl := (tickPrice_eq_ok_iff.mp hprice).2.2.2
  refine ⟨config, feed, position, haccs, hprice, hstuck, ?_⟩
  by_cases hnone : trigger = triggerNone
  · rw [if_pos hnone, pure_eq_ok_iff] at h
    exact Or.inl ⟨htrigger.trans hnone, h.symm⟩
  · rw [if_neg hnone] at h
    rw [htrigger]
    exact Or.inr ⟨hnone, h⟩

/-! ### cancel_position -/

structure CancelPosition where
  owner : Pubkey
  config : Pubkey
  position : Pubkey
deriving DecidableEq, Repr

def CancelPosition.tryAccounts (accs : CancelPosition) (rt : Runtime) (w : World) (tx : Tx) :
    Except ProgramError (Config × Position) := do
  tx.requireSigner accs.owner
  let config ← w.loadConfig accs.config
  let position ← w.loadPosition accs.position
  tx.requireMut accs.owner
  requireAddress accs.owner position.owner (.hwal .notPositionOwner)
  tx.requireMut accs.config
  rt.requireSeeds .config config.bump accs.config
  tx.requireMut accs.position
  rt.requireSeeds (.position accs.owner position.nonce) position.bump accs.position
  return (config, position)

/-- The accounts `cancel_position` accepts, and what they hold. -/
structure CancelAccounts (accs : CancelPosition) (rt : Runtime) (w : World) (tx : Tx)
    (config : Config) (position : Position) : Prop where
  owner_signs : accs.owner ∈ tx.signers
  config_loaded : w.configs accs.config = some config
  position_loaded : w.positions accs.position = some position
  owner_mut : accs.owner ∈ tx.writable
  owner_matches : accs.owner = position.owner
  config_mut : accs.config ∈ tx.writable
  config_seeds : rt.createProgramAddress .config config.bump = some accs.config
  position_mut : accs.position ∈ tx.writable
  position_seeds : rt.createProgramAddress (.position accs.owner position.nonce)
    position.bump = some accs.position

theorem cancelPosition_tryAccounts_eq_ok_iff {accs : CancelPosition} {rt : Runtime}
    {w : World} {tx : Tx} {config : Config} {position : Position} :
    accs.tryAccounts rt w tx = .ok (config, position) ↔
      CancelAccounts accs rt w tx config position := by
  simp only [CancelPosition.tryAccounts, Tx.requireSigner, Tx.requireMut, requireAddress,
    Runtime.requireSeeds, bind_eq_ok_iff, require_eq_ok_iff, exists_and_left, exists_const,
    World.loadConfig_eq_ok_iff, World.loadPosition_eq_ok_iff, pure_eq_ok_iff, Prod.mk.injEq]
  constructor
  · rintro ⟨h1, config', h2, position', h3, h4, h5, h6, h7, h8, h9, rfl, rfl⟩
    exact ⟨h1, h2, h3, h4, h5, h6, h7, h8, h9⟩
  · intro h
    exact ⟨h.owner_signs, config, h.config_loaded, position, h.position_loaded, h.owner_mut,
      h.owner_matches, h.config_mut, h.config_seeds, h.position_mut, h.position_seeds,
      rfl, rfl⟩

def Position.cancelled (position : Position) (now : Int64) : Position :=
  { position with collateral := 0, status := statusCancelled, settledAt := now }

@[simp] theorem cancelled_collateral (position : Position) (now : Int64) :
    (position.cancelled now).collateral = 0 := rfl

@[simp] theorem cancelled_status (position : Position) (now : Int64) :
    (position.cancelled now).status = statusCancelled := rfl

def Config.countCancelled (config : Config) : Config :=
  { config with totalPositionsCancelled := config.totalPositionsCancelled.saturatingAdd 1 }

def cancelPosition (rt : Runtime) (w : World) (tx : Tx) (accs : CancelPosition) :
    Except ProgramError World := do
  let (config, position) ← accs.tryAccounts rt w tx
  require (position.status = statusOpen) (.hwal .positionNotOpen)
  let collateral := position.collateral
  let lamports ← payOut w.lamports accs.position accs.owner collateral
  let position := position.cancelled tx.unixTimestamp
  return (((w.withLamports lamports).store accs.position (.position position)).store
      accs.config (.config config.countCancelled)).emit
    (.positionCancelled accs.position position.owner collateral position.settledAt)

theorem cancelPosition_eq_ok {rt : Runtime} {w w' : World} {tx : Tx} {accs : CancelPosition}
    (h : cancelPosition rt w tx accs = .ok w') :
    ∃ config position lamports,
      CancelAccounts accs rt w tx config position ∧ position.status = statusOpen ∧
      Ledger.Moved [⟨accs.position, accs.owner, position.collateral.toNat⟩]
        w.lamports lamports ∧
      w' = (((w.withLamports lamports).store accs.position
            (.position (position.cancelled tx.unixTimestamp))).store accs.config
          (.config config.countCancelled)).emit
        (.positionCancelled accs.position position.owner position.collateral
          tx.unixTimestamp) := by
  simp only [cancelPosition, bind_eq_ok_iff, Prod.exists, require_eq_ok_iff,
    cancelPosition_tryAccounts_eq_ok_iff, exists_and_left, exists_const, pure_eq_ok_iff] at h
  obtain ⟨config, position, haccs, hopen, lamports, hpay, rfl⟩ := h
  exact ⟨config, position, lamports, haccs, hopen, payOut_eq_ok hpay, rfl⟩

end Hwal
