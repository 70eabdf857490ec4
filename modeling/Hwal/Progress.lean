/-
Progress: in every reachable state the owner of an open position can cancel it,
and a tick on a fresh feed goes through, with one exception named below.  Each
error on the way is ruled out by its own part of the invariant.
-/
import Hwal.Invariants

namespace Hwal

open Guard

/-- The one tick that aborts: nothing but the trailing condition is left to check,
and the threshold of a short position does not fit the machine word. -/
def Position.ThresholdOverflows (position : Position) (price : UInt64) : Prop :=
  position.side = sideShort ∧ ¬ position.StopHit price ∧ ¬ position.TakeProfitHit price ∧
    0 < position.trailingOffset.toNat ∧
    2 ^ 64 ≤ min position.trailingExtreme.toNat price.toNat + position.trailingOffset.toNat

theorem sideShort_iff {position : Position} (h : position.Sound) :
    position.side = sideShort ↔ position.side ≠ sideLong := by
  constructor
  · intro hshort
    rw [hshort]
    decide
  · intro hne
    exact h.side.resolve_left hne

theorem observe_outOfRange_iff {position : Position} (hside : position.side ≠ sideLong)
    (price : UInt64) (now : Int64) :
    (position.observe price now).ThresholdOutOfRange ↔
      0 < position.trailingOffset.toNat ∧
        2 ^ 64 ≤ (position.advanceExtreme price).toNat + position.trailingOffset.toNat := by
  have hobserved : (position.observe price now).side ≠ sideLong := hside
  rw [Position.ThresholdOutOfRange, if_neg hobserved]
  exact Iff.rfl

/-- Getting stuck is exactly this overflow; a long threshold always fits. -/
theorem observe_stuck_iff {position : Position} (h : position.Sound) {price : UInt64}
    (hprice : 0 < price.toNat) (now : Int64) :
    (position.observe price now).Stuck price ↔ position.ThresholdOverflows price := by
  constructor
  · rintro ⟨hstop, htake, hrange⟩
    have hside : position.side ≠ sideLong := by
      intro hlong
      exact h.observe_in_range hprice now hlong hrange
    rcases (observe_outOfRange_iff hside price now).mp hrange with ⟨hoff, hout⟩
    rw [advanceExtreme_short price hoff hside (h.extreme_short hside).1] at hout
    exact ⟨(sideShort_iff h).mpr hside, hstop, htake, hoff, hout⟩
  · rintro ⟨hshort, hstop, htake, hoff, hout⟩
    have hside := (sideShort_iff h).mp hshort
    rw [← advanceExtreme_short price hoff hside (h.extreme_short hside).1] at hout
    exact ⟨hstop, htake, (observe_outOfRange_iff hside price now).mpr ⟨hoff, hout⟩⟩

theorem thresholdError_observe {position : Position} (h : position.side = sideShort)
    (price : UInt64) (now : Int64) :
    (position.observe price now).thresholdError = .hwal .mathOverflow := by
  have hside : (position.observe price now).side ≠ sideLong := by
    change position.side ≠ sideLong
    rw [h]
    decide
  rw [Position.thresholdError, if_neg hside]

section Tick

variable {rt : Runtime} {w : World} {tx : Tx} {accs : TickPosition} {config : Config}
  {feed : PriceFeed} {position : Position}

/-- Past the constraints and the guards only evaluation and settlement remain. -/
theorem tickPosition_of_guards (haccs : TickAccounts accs rt w tx config feed position)
    (hguards : tickPrice position feed tx.unixTimestamp = .ok feed.price) :
    tickPosition rt w tx accs =
      (evaluateTrigger (position.observe feed.price tx.unixTimestamp) feed.price >>=
        fun trigger =>
          if trigger = triggerNone then
            pure (recordTick w accs (position.observe feed.price tx.unixTimestamp) feed.price)
          else settlePosition w tx accs config
            (position.observe feed.price tx.unixTimestamp) feed.price trigger) := by
  have htry := tickPosition_tryAccounts_eq_ok_iff.mpr haccs
  simp only [tickPosition, htry, ok_bind, hguards]

/-! The three ways past the guards: the threshold, no condition, some condition. -/

theorem tickPosition_of_stuck (haccs : TickAccounts accs rt w tx config feed position)
    (hguards : tickPrice position feed tx.unixTimestamp = .ok feed.price)
    (hstuck : (position.observe feed.price tx.unixTimestamp).Stuck feed.price) :
    tickPosition rt w tx accs =
      .error (position.observe feed.price tx.unixTimestamp).thresholdError := by
  rw [tickPosition_of_guards haccs hguards, evaluateTrigger_eq_error hstuck, error_bind]

theorem tickPosition_of_quiet (haccs : TickAccounts accs rt w tx config feed position)
    (hguards : tickPrice position feed tx.unixTimestamp = .ok feed.price)
    (hstuck : ¬ (position.observe feed.price tx.unixTimestamp).Stuck feed.price)
    (hquiet : (position.observe feed.price tx.unixTimestamp).firstHit feed.price =
      triggerNone) :
    tickPosition rt w tx accs =
      .ok (recordTick w accs (position.observe feed.price tx.unixTimestamp) feed.price) := by
  rw [tickPosition_of_guards haccs hguards, evaluateTrigger_eq_firstHit hstuck, ok_bind,
    if_pos hquiet]
  rfl

theorem tickPosition_of_fires (haccs : TickAccounts accs rt w tx config feed position)
    (hguards : tickPrice position feed tx.unixTimestamp = .ok feed.price)
    (hstuck : ¬ (position.observe feed.price tx.unixTimestamp).Stuck feed.price)
    (hfires : (position.observe feed.price tx.unixTimestamp).firstHit feed.price ≠
      triggerNone) :
    tickPosition rt w tx accs =
      settlePosition w tx accs config (position.observe feed.price tx.unixTimestamp)
        feed.price
        ((position.observe feed.price tx.unixTimestamp).firstHit feed.price) := by
  rw [tickPosition_of_guards haccs hguards, evaluateTrigger_eq_firstHit hstuck, ok_bind,
    if_neg hfires]

/-- A settlement can only fail for lack of cover or supply. -/
theorem exists_settlePosition (position : Position) (price : UInt64) (trigger : UInt8)
    (hsupply : Ledger.SupplyAtMost (2 ^ 64 - 1) w.lamports)
    (hcapped : config.RatesCapped)
    (hcover : position.collateral.toNat ≤ (w.lamports accs.position).toNat) :
    ∃ w', settlePosition w tx accs config position price trigger = .ok w' := by
  rcases exists_payoutOf position.collateral hcapped with ⟨payout, hpayout⟩
  have hcoverAll : payout.fee.toNat + payout.keeperReward.toNat + payout.netToOwner.toNat ≤
      (w.lamports accs.position).toNat := by
    rw [hpayout.total]
    exact hcover
  rcases exists_payAll hsupply hcoverAll with ⟨lamports, hpay⟩
  have hcompute := computePayout_eq_ok_iff.mpr hpayout
  simp only [settlePosition, hcompute, hpay, ok_bind]
  exact ⟨_, rfl⟩

theorem tickPosition_of_overflow (haccs : TickAccounts accs rt w tx config feed position)
    (hguards : tickPrice position feed tx.unixTimestamp = .ok feed.price)
    (hsound : position.Sound) (hover : position.ThresholdOverflows feed.price) :
    tickPosition rt w tx accs = .error (.hwal .mathOverflow) := by
  have hprice : 0 < feed.price.toNat :=
    UInt64.lt_iff_toNat_lt.mp (tickPrice_eq_ok_iff.mp hguards).2.1
  have hstuck := (observe_stuck_iff hsound hprice tx.unixTimestamp).mpr hover
  rw [tickPosition_of_stuck haccs hguards hstuck, thresholdError_observe hover.1]

/-- With the invariant and the supply bound, nothing else stops a tick. -/
theorem exists_tickPosition (haccs : TickAccounts accs rt w tx config feed position)
    (hguards : tickPrice position feed tx.unixTimestamp = .ok feed.price)
    (hinv : Invariant rt w) (hsupply : Ledger.SupplyAtMost (2 ^ 64 - 1) w.lamports)
    (hfits : ¬ position.ThresholdOverflows feed.price) :
    ∃ w', tickPosition rt w tx accs = .ok w' := by
  have hsound := (hinv.positions _ _ haccs.position_loaded).shape
  have hprice := hinv.feeds _ _ haccs.feed_loaded
  have hcapped := (hinv.configs _ _ haccs.config_loaded).capped
  have hfunded := hinv.funded _ _ haccs.position_loaded
  have hcover : position.collateral.toNat ≤ (w.lamports accs.position).toNat := by omega
  have hstuck : ¬ (position.observe feed.price tx.unixTimestamp).Stuck feed.price := by
    intro hs
    exact hfits ((observe_stuck_iff hsound hprice tx.unixTimestamp).mp hs)
  by_cases hnone :
      (position.observe feed.price tx.unixTimestamp).firstHit feed.price = triggerNone
  · exact ⟨_, tickPosition_of_quiet haccs hguards hstuck hnone⟩
  · rw [tickPosition_of_fires haccs hguards hstuck hnone]
    exact exists_settlePosition (position.observe feed.price tx.unixTimestamp) _ _ hsupply
      hcapped hcover

/-- Everything a tick can fail with, in the order of the checks. -/
theorem tickPosition_eq_error {error : ProgramError} (hinv : Invariant rt w)
    (hsupply : Ledger.SupplyAtMost (2 ^ 64 - 1) w.lamports)
    (h : tickPosition rt w tx accs = .error error) :
    accs.tryAccounts rt w tx = .error error ∨
      ∃ config feed position, TickAccounts accs rt w tx config feed position ∧
        (tickPrice position feed tx.unixTimestamp = .error error ∨
          position.ThresholdOverflows feed.price ∧ error = .hwal .mathOverflow) := by
  rcases ok_or_error (accs.tryAccounts rt w tx) with ⟨⟨config, feed, position⟩, htry⟩ |
    ⟨accountError, htry⟩
  · have haccs := tickPosition_tryAccounts_eq_ok_iff.mp htry
    refine Or.inr ⟨config, feed, position, haccs, ?_⟩
    rcases ok_or_error (tickPrice position feed tx.unixTimestamp) with
      ⟨price, hprice⟩ | ⟨guardError, hguard⟩
    · have hsame := (tickPrice_eq_ok_iff.mp hprice).2.2.2
      rw [← hsame] at hprice
      by_cases hover : position.ThresholdOverflows feed.price
      · have hsound := (hinv.positions _ _ haccs.position_loaded).shape
        rw [tickPosition_of_overflow haccs hprice hsound hover] at h
        exact Or.inr ⟨hover, (Except.error.inj h).symm⟩
      · rcases exists_tickPosition haccs hprice hinv hsupply hover with ⟨w', hok⟩
        rw [hok] at h
        contradiction
    · left
      simp only [tickPosition, htry, ok_bind, hguard, error_bind, Except.error.injEq] at h
      rw [hguard, h]
  · left
    simp only [tickPosition, htry, error_bind, Except.error.injEq] at h
    rw [htry, h]

end Tick

/-! ### The errors the account constraints can raise -/

/-- A wrong account was passed: the framework says so, or one of the two mismatch
errors does. -/
def AccountError (error : ProgramError) : Prop :=
  (∃ e, error = .anchor e) ∨ error = .hwal .feedMismatch ∨ error = .hwal .notPositionOwner

theorem loadConfig_errors (w : World) (key : Pubkey) :
    ErrorsIn AccountError (w.loadConfig key) :=
  fun _ h => Or.inl (World.loadConfig_refused h)

theorem loadPriceFeed_errors (w : World) (key : Pubkey) :
    ErrorsIn AccountError (w.loadPriceFeed key) :=
  fun _ h => Or.inl (World.loadPriceFeed_refused h)

theorem loadPosition_errors (w : World) (key : Pubkey) :
    ErrorsIn AccountError (w.loadPosition key) :=
  fun _ h => Or.inl (World.loadPosition_refused h)

section Constraints

variable (rt : Runtime) (w : World) (tx : Tx)

theorem requireSigner_errors (key : Pubkey) : ErrorsIn AccountError (tx.requireSigner key) :=
  .require (Or.inl ⟨_, rfl⟩)

theorem requireMut_errors (key : Pubkey) : ErrorsIn AccountError (tx.requireMut key) :=
  .require (Or.inl ⟨_, rfl⟩)

theorem requireSeeds_errors (seeds : Seeds) (bump : UInt8) (key : Pubkey) :
    ErrorsIn AccountError (rt.requireSeeds seeds bump key) :=
  .require (Or.inl ⟨_, rfl⟩)

theorem requireAddress_errors (key expected : Pubkey) {error : ProgramError}
    (h : AccountError error) : ErrorsIn AccountError (requireAddress key expected error) :=
  .require h

theorem tickPosition_tryAccounts_errors (accs : TickPosition) :
    ErrorsIn AccountError (accs.tryAccounts rt w tx) := by
  have hfeed : AccountError (.hwal .feedMismatch) := Or.inr (Or.inl rfl)
  have hconstraint : AccountError (.anchor .constraintAddress) := Or.inl ⟨_, rfl⟩
  have howner : AccountError (.hwal .notPositionOwner) := Or.inr (Or.inr rfl)
  apply (requireSigner_errors tx _).bind
  intro _
  apply (loadConfig_errors w _).bind
  intro config
  apply (loadPriceFeed_errors w _).bind
  intro feed
  apply (loadPosition_errors w _).bind
  intro position
  apply (requireMut_errors tx _).bind
  intro _
  apply (requireMut_errors tx _).bind
  intro _
  apply (requireSeeds_errors rt _ _ _).bind
  intro _
  apply (@ErrorsIn.require _ AccountError _ _ _ hfeed).bind
  intro _
  apply (requireMut_errors tx _).bind
  intro _
  apply (requireSeeds_errors rt _ _ _).bind
  intro _
  apply (requireMut_errors tx _).bind
  intro _
  apply (requireAddress_errors _ _ howner).bind
  intro _
  apply (requireMut_errors tx _).bind
  intro _
  apply (requireAddress_errors _ _ hconstraint).bind
  intro _
  exact ErrorsIn.pure _

theorem cancelPosition_tryAccounts_errors (accs : CancelPosition) :
    ErrorsIn AccountError (accs.tryAccounts rt w tx) := by
  have howner : AccountError (.hwal .notPositionOwner) := Or.inr (Or.inr rfl)
  apply (requireSigner_errors tx _).bind
  intro _
  apply (loadConfig_errors w _).bind
  intro config
  apply (loadPosition_errors w _).bind
  intro position
  apply (requireMut_errors tx _).bind
  intro _
  apply (requireAddress_errors _ _ howner).bind
  intro _
  apply (requireMut_errors tx _).bind
  intro _
  apply (requireSeeds_errors rt _ _ _).bind
  intro _
  apply (requireMut_errors tx _).bind
  intro _
  apply (requireSeeds_errors rt _ _ _).bind
  intro _
  exact ErrorsIn.pure _

end Constraints

/-! ### The owner's way out -/

section Cancel

variable {rt : Runtime} {w : World} {tx : Tx}

/-- With the invariant and the supply bound, a refund always goes through. -/
theorem exists_cancelPosition {accs : CancelPosition} {config : Config} {position : Position}
    (haccs : CancelAccounts accs rt w tx config position)
    (hopen : position.status = statusOpen) (hinv : Invariant rt w)
    (hsupply : Ledger.SupplyAtMost (2 ^ 64 - 1) w.lamports) :
    ∃ w', cancelPosition rt w tx accs = .ok w' := by
  have hfunded := hinv.funded _ _ haccs.position_loaded
  have hcover : position.collateral.toNat ≤ (w.lamports accs.position).toNat := by omega
  have htry := cancelPosition_tryAccounts_eq_ok_iff.mpr haccs
  rcases exists_payOut accs.owner hsupply hcover with ⟨lamports, hpay⟩
  simp only [cancelPosition, htry, ok_bind, require_of_holds _ hopen, hpay]
  exact ⟨_, rfl⟩

/-- The accounts a position stores or derives are the ones its constraints ask for. -/
theorem PositionSound.cancelAccounts {key : Pubkey} {position : Position} {config : Config}
    (hsound : PositionSound rt w key position) (hinv : Invariant rt w)
    (hposition : w.positions key = some position)
    (hconfig : w.configs rt.configAddress = some config)
    (hsigned : position.owner ∈ tx.signers)
    (hwritable : [position.owner, rt.configAddress, key] ⊆ tx.writable) :
    CancelAccounts ⟨position.owner, rt.configAddress, key⟩ rt w tx config position := by
  have hbump := (hinv.configs _ _ hconfig).bump
  constructor
  case owner_signs => exact hsigned
  case config_loaded => exact hconfig
  case position_loaded => exact hposition
  case owner_mut => exact hwritable (by simp)
  case owner_matches => rfl
  case config_mut => exact hwritable (by simp)
  case config_seeds =>
    rw [hbump]
    exact rt.create_find .config
  case position_mut => exact hwritable (by simp)
  case position_seeds =>
    rw [hsound.bump]
    dsimp only
    rw [hsound.address]
    exact rt.create_find _

theorem PositionSound.tickAccounts {key keeper : Pubkey} {position : Position}
    {config : Config} {feed : PriceFeed} (hsound : PositionSound rt w key position)
    (hinv : Invariant rt w) (hposition : w.positions key = some position)
    (hconfig : w.configs rt.configAddress = some config)
    (hfeed : w.feeds position.feed = some feed) (hsigned : keeper ∈ tx.signers)
    (hwritable : [keeper, rt.configAddress, key, position.owner, config.feeReceiver] ⊆
      tx.writable) :
    TickAccounts ⟨keeper, rt.configAddress, position.feed, key, position.owner,
      config.feeReceiver⟩ rt w tx config feed position := by
  have hbump := (hinv.configs _ _ hconfig).bump
  constructor
  case keeper_signs => exact hsigned
  case config_loaded => exact hconfig
  case feed_loaded => exact hfeed
  case position_loaded => exact hposition
  case keeper_mut => exact hwritable (by simp)
  case config_mut => exact hwritable (by simp)
  case config_seeds =>
    rw [hbump]
    exact rt.create_find .config
  case feed_matches => rfl
  case position_mut => exact hwritable (by simp)
  case position_seeds =>
    rw [hsound.bump]
    dsimp only
    rw [hsound.address]
    exact rt.create_find _
  case owner_mut => exact hwritable (by simp)
  case owner_matches => rfl
  case feeReceiver_mut => exact hwritable (by simp)
  case feeReceiver_matches => rfl

end Cancel

/-! ### Progress -/

section Progress

variable {rt : Runtime} {w : World} {key : Pubkey} {position : Position}

theorem cancelPosition_errors (h : ReachableWithSupply rt w)
    (hposition : w.positions key = some position) (hopen : position.status = statusOpen)
    {tx : Tx} {accs : CancelPosition} (hkey : accs.position = key) {error : ProgramError}
    (herror : cancelPosition rt w tx accs = .error error) : AccountError error := by
  rcases ok_or_error (accs.tryAccounts rt w tx) with ⟨⟨config, loaded⟩, htry⟩ |
    ⟨accountError, htry⟩
  · have haccs := cancelPosition_tryAccounts_eq_ok_iff.mp htry
    have hloaded := haccs.position_loaded
    rw [hkey, hposition] at hloaded
    rw [← Option.some.inj hloaded] at haccs
    rcases exists_cancelPosition haccs hopen (reachable_invariant h.reachable)
      (reachable_supply h) with ⟨w', hok⟩
    rw [hok] at herror
    contradiction
  · simp only [cancelPosition, htry, error_bind, Except.error.injEq] at herror
    rw [← herror]
    exact cancelPosition_tryAccounts_errors rt w tx accs accountError htry

/-- A tick on an open position fails for a wrong account, a stale feed or the one
overflow, and for nothing else. -/
theorem tickPosition_errors (h : ReachableWithSupply rt w)
    (hposition : w.positions key = some position) (hopen : position.status = statusOpen)
    {tx : Tx} {accs : TickPosition} (hkey : accs.position = key) {error : ProgramError}
    (herror : tickPosition rt w tx accs = .error error) :
    AccountError error ∨ error = .hwal .priceFeedStale ∨
      error = .hwal .mathOverflow ∧
        ∃ feed, w.feeds position.feed = some feed ∧ position.ThresholdOverflows feed.price := by
  have hinv := reachable_invariant h.reachable
  rcases tickPosition_eq_error hinv (reachable_supply h) herror with
    haccount | ⟨config, feed, loaded, haccs, hrest⟩
  · exact Or.inl (tickPosition_tryAccounts_errors rt w tx accs error haccount)
  · have hloaded := haccs.position_loaded
    rw [hkey, hposition] at hloaded
    rw [← Option.some.inj hloaded] at haccs hrest
    have hprice := hinv.feeds _ _ haccs.feed_loaded
    rcases hrest with hguard | ⟨hover, herr⟩
    · have hpos : feed.price > 0 := UInt64.lt_iff_toNat_lt.mpr hprice
      simp only [tickPrice, require_of_holds _ hopen, require_of_holds _ hpos, ok_bind] at hguard
      rcases bind_eq_error_iff.mp hguard with hstale | ⟨_, -, hpure⟩
      · exact Or.inr (Or.inl (require_eq_error_iff.mp hstale).2.symm)
      · contradiction
    · refine Or.inr (Or.inr ⟨herr, feed, ?_, hover⟩)
      rw [← haccs.feed_matches]
      exact haccs.feed_loaded

/-- Every open position of every reachable state: its owner can cancel it, whatever
became of the feed and the config; any keeper can tick it while the feed is fresh,
unless the trailing threshold of a short position overflows; and no other error
of the two handlers is reachable for it. -/
theorem open_position_progress (h : ReachableWithSupply rt w)
    (hposition : w.positions key = some position) (hopen : position.status = statusOpen) :
    (∀ tx : Tx, position.owner ∈ tx.signers →
      [position.owner, rt.configAddress, key] ⊆ tx.writable →
      ∃ w', cancelPosition rt w tx ⟨position.owner, rt.configAddress, key⟩ = .ok w') ∧
    (∃ config feed, w.configs rt.configAddress = some config ∧
      w.feeds position.feed = some feed ∧
      ∀ (tx : Tx) (keeper : Pubkey), keeper ∈ tx.signers →
        [keeper, rt.configAddress, key, position.owner, config.feeReceiver] ⊆ tx.writable →
        tx.unixTimestamp.toInt - feed.lastUpdated.toInt ≤ 120 →
        (¬ position.ThresholdOverflows feed.price →
          ∃ w', tickPosition rt w tx ⟨keeper, rt.configAddress, position.feed, key,
            position.owner, config.feeReceiver⟩ = .ok w') ∧
        (position.ThresholdOverflows feed.price →
          tickPosition rt w tx ⟨keeper, rt.configAddress, position.feed, key,
            position.owner, config.feeReceiver⟩ = .error (.hwal .mathOverflow))) ∧
    (∀ (tx : Tx) (accs : CancelPosition) (error : ProgramError), accs.position = key →
      cancelPosition rt w tx accs = .error error → AccountError error) ∧
    ∀ (tx : Tx) (accs : TickPosition) (error : ProgramError), accs.position = key →
      tickPosition rt w tx accs = .error error →
      AccountError error ∨ error = .hwal .priceFeedStale ∨
        error = .hwal .mathOverflow ∧
          ∃ feed, w.feeds position.feed = some feed ∧
            position.ThresholdOverflows feed.price := by
  have hinv := reachable_invariant h.reachable
  have hsupply := reachable_supply h
  have hsound := hinv.positions key position hposition
  rcases hsound.config with ⟨config, hconfig⟩
  rcases hsound.feed with ⟨feed, hfeed⟩
  refine ⟨?_, ⟨config, feed, hconfig, hfeed, ?_⟩, ?_, ?_⟩
  · intro tx hsigned hwritable
    have haccs := hsound.cancelAccounts hinv hposition hconfig hsigned hwritable
    exact exists_cancelPosition haccs hopen hinv hsupply
  · intro tx keeper hsigned hwritable hfresh
    have haccs := hsound.tickAccounts hinv hposition hconfig hfeed hsigned hwritable
    have hpos : 0 < feed.price := UInt64.lt_iff_toNat_lt.mpr (hinv.feeds _ _ hfeed)
    have hguards := tickPrice_eq_ok_iff.mpr ⟨hopen, hpos, hfresh, rfl⟩
    constructor
    · intro hfits
      exact exists_tickPosition haccs hguards hinv hsupply hfits
    · intro hover
      exact tickPosition_of_overflow haccs hguards hsound.shape hover
  · intro tx accs error hkey herror
    exact cancelPosition_errors h hposition hopen hkey herror
  · intro tx accs error hkey herror
    exact tickPosition_errors h hposition hopen hkey herror

end Progress

open Localnet in
/-- Alice's freshly opened position can be cancelled and, while the price is between
its triggers, ticked. -/
theorem open_position_progress_localnet :
    (∃ w', cancelPosition cluster (runFrom cluster (World.genesis funds) (launch ++ [deposit]))
      (tx alice 1004) ⟨alice, config, position⟩ = .ok w') ∧
    ∃ w', tickPosition cluster (runFrom cluster (World.genesis funds) (launch ++ [deposit]))
      (tx keeper 1004) ⟨keeper, config, feed, position, alice, feeReceiver⟩ = .ok w' := by
  have hfields : ((runFrom cluster (World.genesis funds) (launch ++ [deposit])).positions
      position).map (fun p => (p.status, p.owner, p.feed, p.side)) =
        some (statusOpen, alice, feed, sideLong) := by decide +kernel
  have hconfigs : ((runFrom cluster (World.genesis funds) (launch ++ [deposit])).configs
      config).map Config.feeReceiver = some feeReceiver := by decide +kernel
  have hfeeds : ((runFrom cluster (World.genesis funds) (launch ++ [deposit])).feeds
      feed).map PriceFeed.lastUpdated = some 1001 := by decide +kernel
  rcases Option.map_eq_some_iff.mp hfields with ⟨opened, hopened, hvalues⟩
  simp only [Prod.mk.injEq] at hvalues
  rcases hvalues with ⟨hopen, howner, hfeedKey, hside⟩
  have hprogress := open_position_progress
    (⟨funds, launch ++ [deposit], funds_supply, rfl⟩ : ReachableWithSupply cluster _)
    hopened hopen
  have haddress : cluster.configAddress = config := by decide +kernel
  rw [howner, hfeedKey, haddress] at hprogress
  constructor
  · apply hprogress.1 (tx alice 1004) List.mem_cons_self
    simp only [List.cons_subset, List.nil_subset, and_true]
    decide +kernel
  · rcases hprogress.2.1 with ⟨stored, loaded, hstored, hloaded, htick⟩
    rw [hstored] at hconfigs
    rw [hloaded] at hfeeds
    have hreceiver : stored.feeReceiver = feeReceiver := Option.some.inj hconfigs
    have hupdated : loaded.lastUpdated = 1001 := Option.some.inj hfeeds
    rw [hreceiver, hupdated] at htick
    have hwritable : [keeper, config, position, alice, feeReceiver] ⊆
        (tx keeper 1004).writable := by
      simp only [List.cons_subset, List.nil_subset, and_true]
      decide +kernel
    apply (htick (tx keeper 1004) keeper List.mem_cons_self hwritable (by decide +kernel)).1
    intro hover
    have hshort := hover.1
    rw [hside] at hshort
    exact absurd hshort (by decide)

end Hwal
