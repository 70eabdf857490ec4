/-
The program knows no unit of price.  Run on prices in a finer unit, feed by feed and
whatever decimals the feeds declare, it moves the same lamports, fires the same triggers at
the same calls and refuses the same calls with the same errors.
-/
import Hwal.Alike

namespace Hwal

open Guard
open UInt64 (Scaled)

/-! ### Records in a finer unit -/

/-- The same feed with its price in a unit `k` times finer, whatever its decimals; two such
prices still fit the machine word. -/
def PriceFeed.InUnit (k : Nat) (f g : PriceFeed) : Prop :=
  ∃ price decimals, g = { f with price := price, decimals := decimals } ∧
    Scaled k f.price price ∧ price.toNat ≤ 2 ^ 63

/-- The fields of a position that hold prices. -/
structure Prices where
  entry : UInt64
  stop : UInt64
  takeProfit : UInt64
  offset : UInt64
  extreme : UInt64

def Position.prices (position : Position) : Prices :=
  ⟨position.entryPrice, position.stopPrice, position.takeProfitPrice, position.trailingOffset,
    position.trailingExtreme⟩

def Position.priced (position : Position) (prices : Prices) : Position :=
  { position with
    entryPrice := prices.entry
    stopPrice := prices.stop
    takeProfitPrice := prices.takeProfit
    trailingOffset := prices.offset
    trailingExtreme := prices.extreme }

structure Prices.InUnit (k : Nat) (a b : Prices) : Prop where
  entry : Scaled k a.entry b.entry
  stop : Scaled k a.stop b.stop
  takeProfit : Scaled k a.takeProfit b.takeProfit
  offset : Scaled k a.offset b.offset
  extreme : Scaled k a.extreme b.extreme
  entry_fits : b.entry.toNat ≤ 2 ^ 63
  offset_fits : b.offset.toNat < 2 ^ 63
  extreme_fits : b.extreme.toNat ≤ 2 ^ 63

/-- The same position with its prices in a unit `k` times finer. -/
def Position.InUnit (k : Nat) (p q : Position) : Prop :=
  ∃ prices, q = p.priced prices ∧ p.prices.InUnit k prices

theorem PriceFeed.InUnit.sameSource {k : Nat} (f g : PriceFeed) (h : f.InUnit k g) :
    SameSource f g := by
  rcases h with ⟨price, decimals, rfl, -⟩
  exact ⟨rfl, rfl⟩

theorem Position.InUnit.sameDeposit {k : Nat} {p q : Position} (h : p.InUnit k q) :
    SameDeposit p q := by
  rcases h with ⟨b, rfl, -⟩
  exact ⟨⟨rfl, rfl, rfl, rfl⟩, rfl, rfl⟩

/-! ### What the handlers do with prices -/

section Handlers

variable {k : Nat} (hk : 0 < k)

include hk in
theorem checkTriggers_inUnit (side : UInt8)
    {entry entry' stop stop' take take' offset offset' : UInt64}
    (hentry : Scaled k entry entry') (hstop : Scaled k stop stop')
    (htake : Scaled k take take') (hoffset : Scaled k offset offset') :
    checkTriggers side entry' stop' take' offset' =
      checkTriggers side entry stop take offset := by
  simp only [checkTriggers, checkPriceTriggers, gt_iff_lt, hstop.pos_iff hk, htake.pos_iff hk,
    hoffset.pos_iff hk, hstop.lt_iff hk hentry, hentry.lt_iff hk hstop, htake.lt_iff hk hentry,
    hentry.lt_iff hk htake, hoffset.lt_iff hk hentry]

theorem TriggersPlaced.offset_fits {side : UInt8} {entry stop take offset : UInt64}
    (h : TriggersPlaced side entry stop take offset) (hfits : entry.toNat ≤ 2 ^ 63) :
    offset.toNat < 2 ^ 63 := by
  have htrailing := h.trailing
  rw [UInt64.lt_iff_toNat_lt, UInt64.lt_iff_toNat_lt, UInt64.toNat_zero] at htrailing
  omega

namespace Position.InUnit

variable {p q : Position} {price price' : UInt64}

include hk

theorem retarget (h : p.InUnit k q) {stop stop' take take' offset offset' : UInt64}
    (hstop : Scaled k stop stop') (htake : Scaled k take take')
    (hoffset : Scaled k offset offset') (hfits : offset'.toNat < 2 ^ 63) :
    (p.retarget stop take offset).InUnit k (q.retarget stop' take' offset') := by
  rcases h with ⟨b, rfl, hb⟩
  have hsame : offset' = b.offset ↔ offset = p.trailingOffset := hoffset.eq_iff hk hb.offset
  by_cases hkept : offset = p.trailingOffset
  · have hkept' : offset' = (p.priced b).trailingOffset := hsame.mpr hkept
    rw [Position.retarget, Position.retarget, if_neg (not_not.mpr hkept),
      if_neg (not_not.mpr hkept')]
    exact ⟨{ b with stop := stop', takeProfit := take' }, rfl, hb.entry, hstop, htake,
      hb.offset, hb.extreme, hb.entry_fits, hb.offset_fits, hb.extreme_fits⟩
  · have hchanged : offset' ≠ (p.priced b).trailingOffset := fun heq => hkept (hsame.mp heq)
    rw [Position.retarget, Position.retarget, if_pos hkept, if_pos hchanged]
    exact ⟨⟨b.entry, stop', take', offset', b.entry⟩, rfl, hb.entry, hstop, htake, hoffset,
      hb.entry, hb.entry_fits, hfits, hb.entry_fits⟩

theorem observe (h : p.InUnit k q) (hprice : Scaled k price price')
    (hfits : price'.toNat ≤ 2 ^ 63) (now : Int64) :
    (p.observe price now).InUnit k (q.observe price' now) := by
  rcases h with ⟨b, rfl, hb⟩
  have hextreme : Scaled k (p.advanceExtreme price) ((p.priced b).advanceExtreme price') ∧
      ((p.priced b).advanceExtreme price').toNat ≤ 2 ^ 63 := by
    have hpos : 0 < b.offset ↔ 0 < p.trailingOffset := hb.offset.pos_iff hk
    have hup : b.extreme < price' ↔ p.trailingExtreme < price := hb.extreme.lt_iff hk hprice
    have hdown : price' < b.extreme ↔ price < p.trailingExtreme := hprice.lt_iff hk hb.extreme
    have hzero : b.extreme = 0 ↔ p.trailingExtreme = 0 := hb.extreme.eq_iff hk (Scaled.zero k)
    simp only [Position.advanceExtreme, Position.priced, gt_iff_lt, hpos, hup, hdown, hzero]
    split_ifs
    · exact ⟨hprice, hfits⟩
    · exact ⟨hb.extreme, hb.extreme_fits⟩
    · exact ⟨hprice, hfits⟩
    · exact ⟨hb.extreme, hb.extreme_fits⟩
    · exact ⟨hb.extreme, hb.extreme_fits⟩
  exact ⟨{ b with extreme := (p.priced b).advanceExtreme price' }, rfl, hb.entry, hb.stop,
    hb.takeProfit, hb.offset, hextreme.1, hb.entry_fits, hb.offset_fits, hextreme.2⟩

theorem stopHit_iff (h : p.InUnit k q) (hprice : Scaled k price price') :
    q.StopHit price' ↔ p.StopHit price := by
  rcases h with ⟨b, rfl, hb⟩
  have hstop : b.stop.toNat = k * p.stopPrice.toNat := hb.stop
  have hvalue : price'.toNat = k * price.toNat := hprice
  simp only [Position.StopHit, Position.priced, hstop, hvalue, Nat.mul_le_mul_left_iff hk,
    Nat.mul_pos_iff_of_pos_left hk]

theorem takeProfitHit_iff (h : p.InUnit k q) (hprice : Scaled k price price') :
    q.TakeProfitHit price' ↔ p.TakeProfitHit price := by
  rcases h with ⟨b, rfl, hb⟩
  have htake : b.takeProfit.toNat = k * p.takeProfitPrice.toNat := hb.takeProfit
  have hvalue : price'.toNat = k * price.toNat := hprice
  simp only [Position.TakeProfitHit, Position.priced, htake, hvalue,
    Nat.mul_le_mul_left_iff hk, Nat.mul_pos_iff_of_pos_left hk]

theorem trailingHit_iff (h : p.InUnit k q) (hprice : Scaled k price price') :
    q.TrailingHit price' ↔ p.TrailingHit price := by
  rcases h with ⟨b, rfl, hb⟩
  have hoffset : b.offset.toNat = k * p.trailingOffset.toNat := hb.offset
  have hextreme : b.extreme.toNat = k * p.trailingExtreme.toNat := hb.extreme
  have hvalue : price'.toNat = k * price.toNat := hprice
  simp only [Position.TrailingHit, Position.priced, hoffset, hextreme, hvalue, ← Nat.mul_add,
    Nat.mul_le_mul_left_iff hk, Nat.mul_pos_iff_of_pos_left hk]

/-- A long threshold leaves the machine word in both units or in neither; a short one, below
`2 ^ 64` in the finer unit, in neither. -/
theorem outOfRange_iff (h : p.InUnit k q) :
    q.ThresholdOutOfRange ↔ p.ThresholdOutOfRange := by
  rcases h with ⟨b, rfl, hb⟩
  have hoffset : b.offset.toNat = k * p.trailingOffset.toNat := hb.offset
  have hextreme : b.extreme.toNat = k * p.trailingExtreme.toNat := hb.extreme
  by_cases hside : p.side = sideLong
  · simp only [Position.ThresholdOutOfRange, Position.priced, hside, ↓reduceIte, hoffset,
      hextreme, Nat.mul_lt_mul_left hk, Nat.mul_pos_iff_of_pos_left hk]
  · have hoffsetLe := hb.offset.le hk
    have hextremeLe := hb.extreme.le hk
    have hoffsetFits := hb.offset_fits
    have hextremeFits := hb.extreme_fits
    simp only [Position.prices] at hoffsetLe hextremeLe
    simp only [Position.ThresholdOutOfRange, Position.priced, hside, ↓reduceIte]
    omega

theorem evaluateTrigger_eq (h : p.InUnit k q) (hprice : Scaled k price price') :
    evaluateTrigger q price' = evaluateTrigger p price := by
  have hstop := h.stopHit_iff hk hprice
  have htake := h.takeProfitHit_iff hk hprice
  have htrailing := h.trailingHit_iff hk hprice
  have hrange := h.outOfRange_iff hk
  have hstuck : q.Stuck price' ↔ p.Stuck price := by
    simp only [Position.Stuck, hstop, htake, hrange]
  by_cases hp : p.Stuck price
  · rw [evaluateTrigger_eq_error hp, evaluateTrigger_eq_error (hstuck.mpr hp)]
    rcases h with ⟨b, rfl, -⟩
    rfl
  · have hfirst : q.firstHit price' = p.firstHit price := by
      simp only [Position.firstHit, hstop, htake, htrailing]
    rw [evaluateTrigger_eq_firstHit hp, evaluateTrigger_eq_firstHit (hstuck.not.mpr hp), hfirst]

end Position.InUnit

end Handlers

/-! ### Worlds in finer units -/

section Worlds

variable {unit : Pubkey → Nat}

/-- The same position at `key`, in the unit of its feed. -/
def PositionInUnit (unit : Pubkey → Nat) (key : Pubkey) (p q : Position) : Prop :=
  p.InUnit (unit key) q ∧ unit p.feed = unit key

theorem PositionInUnit.sameDeposit {key : Pubkey} (p q : Position)
    (h : PositionInUnit unit key p q) : SameDeposit p q :=
  h.1.sameDeposit

/-- Two accounts at `key`; a position shares the unit of its feed. -/
inductive AccountInUnit (unit : Pubkey → Nat) (key : Pubkey) :
    Option ProgramAccount → Option ProgramAccount → Prop where
  | unused : AccountInUnit unit key none none
  | config (config : Config) :
      AccountInUnit unit key (some (.config config)) (some (.config config))
  | priceFeed {f g : PriceFeed} (h : f.InUnit (unit key) g) :
      AccountInUnit unit key (some (.priceFeed f)) (some (.priceFeed g))
  | position {p q : Position} (h : p.InUnit (unit key) q) (feed : unit p.feed = unit key) :
      AccountInUnit unit key (some (.position p)) (some (.position q))

/-- The same world with prices in finer units, an account's unit `unit key` times finer. -/
structure World.InUnits (unit : Pubkey → Nat) (w v : World) : Prop where
  lamports : v.lamports = w.lamports
  accounts : ∀ key, AccountInUnit unit key (w.accounts key) (v.accounts key)

namespace World.InUnits

variable {w v : World}

theorem withLamports (h : w.InUnits unit v) (lamports : Lamports) :
    (w.withLamports lamports).InUnits unit (v.withLamports lamports) :=
  ⟨rfl, h.accounts⟩

theorem emit (h : w.InUnits unit v) (event event' : Event) :
    (w.emit event).InUnits unit (v.emit event') :=
  ⟨h.lamports, h.accounts⟩

theorem store (h : w.InUnits unit v) {key : Pubkey} {account account' : ProgramAccount}
    (haccount : AccountInUnit unit key (some account) (some account')) :
    (w.store key account).InUnits unit (v.store key account') := by
  constructor
  case lamports => exact h.lamports
  case accounts =>
    intro k
    by_cases hk : k = key
    · subst hk
      simp only [World.store, Function.update_self]
      exact haccount
    · simp only [World.store, Function.update_of_ne hk]
      exact h.accounts k

theorem notOwned (h : w.InUnits unit v) (key : Pubkey) :
    v.notOwned key = w.notOwned key := by
  rw [World.notOwned, World.notOwned, h.lamports]

theorem loadConfig (h : w.InUnits unit v) (key : Pubkey) :
    v.loadConfig key = w.loadConfig key := by
  have haccounts := h.accounts key
  unfold World.loadConfig
  rw [h.notOwned]
  generalize w.accounts key = account at haccounts ⊢
  generalize v.accounts key = account' at haccounts ⊢
  cases haccounts <;> rfl

theorem loadPriceFeed (h : w.InUnits unit v) (key : Pubkey) :
    Coupled (PriceFeed.InUnit (unit key)) (w.loadPriceFeed key) (v.loadPriceFeed key) := by
  have haccounts := h.accounts key
  unfold World.loadPriceFeed
  rw [h.notOwned]
  generalize w.accounts key = account at haccounts ⊢
  generalize v.accounts key = account' at haccounts ⊢
  cases haccounts with
  | unused => exact .error _
  | config => exact .error _
  | priceFeed hfeed => exact .ok hfeed
  | position => exact .error _

theorem loadPosition (h : w.InUnits unit v) (key : Pubkey) :
    Coupled (PositionInUnit unit key) (w.loadPosition key) (v.loadPosition key) := by
  have haccounts := h.accounts key
  unfold World.loadPosition
  rw [h.notOwned]
  generalize w.accounts key = account at haccounts ⊢
  generalize v.accounts key = account' at haccounts ⊢
  cases haccounts with
  | unused => exact .error _
  | config => exact .error _
  | priceFeed => exact .error _
  | position hposition hfeed => exact .ok ⟨hposition, hfeed⟩

theorem unused_iff (h : w.InUnits unit v) (key : Pubkey) :
    v.accounts key = none ↔ w.accounts key = none := by
  have haccounts := h.accounts key
  generalize w.accounts key = account at haccounts ⊢
  generalize v.accounts key = account' at haccounts ⊢
  cases haccounts <;> simp

theorem initAccount (h : w.InUnits unit v) (rt : Runtime) (tx : Tx) (payer account : Pubkey)
    (seeds : Seeds) (space : Nat) :
    Coupled (FundedAlike Eq) (w.initAccount rt tx payer account seeds space)
      (v.initAccount rt tx payer account seeds space) :=
  (MovesAlike.eq rt tx [payer, account]).initAccount h.lamports.symm (by simp) (by simp)
    (h.unused_iff account) seeds space

theorem store_position (h : w.InUnits unit v) {key : Pubkey} {p q : Position}
    (hpq : PositionInUnit unit key p q) :
    (w.store key (.position p)).InUnits unit (v.store key (.position q)) :=
  h.store (.position hpq.1 hpq.2)

end World.InUnits

/-! ### The instructions -/

section Instructions

variable {w v : World} {rt : Runtime} {tx : Tx} (h : w.InUnits unit v)
  (hunit : ∀ key, 0 < unit key)

include h

theorem initializeConfig_inUnits (accs : InitializeConfig) (feeBps keeperRewardBps : UInt16) :
    Coupled (World.InUnits unit) (initializeConfig rt w tx accs feeBps keeperRewardBps)
      (initializeConfig rt v tx accs feeBps keeperRewardBps) := by
  apply initializeConfig_coupled (h.initAccount _ _ _ _ _ _)
  rintro lamports _ bump rfl
  exact ((h.withLamports _).store (.config _)).emit _ _

theorem updateConfig_inUnits (accs : UpdateConfig) (newAdmin newFeeReceiver : Option Pubkey)
    (newFeeBps newKeeperRewardBps : Option UInt16) :
    Coupled (World.InUnits unit)
      (updateConfig rt w tx accs newAdmin newFeeReceiver newFeeBps newKeeperRewardBps)
      (updateConfig rt v tx accs newAdmin newFeeReceiver newFeeBps newKeeperRewardBps) := by
  apply updateConfig_coupled SameKeys.of_eq (coupled_eq (h.loadConfig _))
  · rintro c _ rfl
    exact coupled_eq rfl
  · rintro c _ rfl
    exact h.store (.config _)

include hunit in
theorem initializePriceFeed_inUnits (accs : InitializePriceFeed) (symbol : FeedSymbol)
    (decimals decimals' : UInt8) {price price' : UInt64}
    (hprice : Scaled (unit accs.feed) price price') (hfits : price'.toNat ≤ 2 ^ 63) :
    Coupled (World.InUnits unit) (initializePriceFeed rt w tx accs symbol decimals price)
      (initializePriceFeed rt v tx accs symbol decimals' price') := by
  apply initializePriceFeed_coupled SameKeys.of_eq (coupled_eq (h.loadConfig _))
    (h.initAccount _ _ _ _ _ _) (hprice.pos_iff (hunit _))
  rintro lamports _ bump rfl
  have hfeed : (newPriceFeed accs symbol decimals price tx.unixTimestamp bump).InUnit
      (unit accs.feed) (newPriceFeed accs symbol decimals' price' tx.unixTimestamp bump) :=
    ⟨price', decimals', rfl, hprice, hfits⟩
  exact ((h.withLamports _).store (.priceFeed hfeed)).emit _ _

include hunit in
theorem updatePriceFeed_inUnits (accs : UpdatePriceFeed) {price price' : UInt64}
    (hprice : Scaled (unit accs.feed) price price') (hfits : price'.toNat ≤ 2 ^ 63) :
    Coupled (World.InUnits unit) (updatePriceFeed w tx accs price)
      (updatePriceFeed v tx accs price') := by
  apply updatePriceFeed_coupled PriceFeed.InUnit.sameSource (h.loadPriceFeed accs.feed)
    (hprice.pos_iff (hunit _))
  rintro f _ ⟨old, decimals, rfl, -⟩
  exact (h.store (.priceFeed ⟨price', decimals, rfl, hprice, hfits⟩)).emit _ _

theorem registerLazerFeed_inUnits (accs : RegisterLazerFeed) (lazerFeedId : UInt64)
    (channel : UInt8) :
    Coupled (World.InUnits unit) (registerLazerFeed rt w tx accs lazerFeedId channel)
      (registerLazerFeed rt v tx accs lazerFeedId channel) := by
  apply registerLazerFeed_coupled SameKeys.of_eq PriceFeed.InUnit.sameSource
    (coupled_eq (h.loadConfig _)) (h.loadPriceFeed accs.feed)
  rintro f _ ⟨price, decimals, rfl, hprice⟩
  have hregistered : (f.register lazerFeedId channel).InUnit (unit accs.feed)
      ({ f with price := price, decimals := decimals }.register lazerFeedId channel) :=
    ⟨price, decimals, rfl, hprice⟩
  exact (h.store (.priceFeed hregistered)).emit _ _

include hunit in
/-- A deposit at scaled triggers, on a feed of the position's unit. -/
theorem openPosition_inUnits (accs : OpenPosition) (args : OpenPositionArgs)
    (hfeedUnit : unit accs.feed = unit accs.position) {stop take offset : UInt64}
    (hstop : Scaled (unit accs.position) args.stopPrice stop)
    (htake : Scaled (unit accs.position) args.takeProfitPrice take)
    (hoffset : Scaled (unit accs.position) args.trailingOffset offset) :
    Coupled (World.InUnits unit) (openPosition rt w tx accs args)
      (openPosition rt v tx accs
        { args with stopPrice := stop, takeProfitPrice := take, trailingOffset := offset }) := by
  have hfeed := h.loadPriceFeed accs.feed
  rw [hfeedUnit] at hfeed
  refine openPosition_coupled ?_ ?_ (.eq rt tx _) SameKeys.of_eq
    (coupled_eq (h.loadConfig _)) hfeed (h.initAccount _ _ _ _ _ _) ?_ ?_
  · rfl
  · rfl
  · rintro f _ ⟨price, decimals, rfl, hprice, -⟩
    simp only [checkOpen, requireFresh, gt_iff_lt, hprice.pos_iff (hunit _),
      checkTriggers_inUnit (hunit _) _ hprice hstop htake hoffset]
  · rintro config _ f _ lamports _ bump rfl ⟨price, decimals, rfl, hprice, hfits⟩ rfl hchecked
    have hcheck : checkTriggers args.side price stop take offset = .ok () := by
      rw [checkTriggers_inUnit (hunit _) args.side hprice hstop htake hoffset]
      exact checkTriggers_eq_ok_iff.mpr hchecked.placed
    have hplaced := checkTriggers_eq_ok_iff.mp hcheck
    have hopened : (newPosition accs args f.price tx.unixTimestamp bump).InUnit
        (unit accs.position) (newPosition accs
          { args with stopPrice := stop, takeProfitPrice := take, trailingOffset := offset }
          price tx.unixTimestamp bump) :=
      ⟨⟨price, stop, take, offset, price⟩, rfl, hprice, hstop, htake, hoffset, hprice, hfits,
        hplaced.offset_fits hfits, hfits⟩
    exact (((h.withLamports _).store_position ⟨hopened, hfeedUnit⟩).store (.config _)).emit _ _

include hunit in
omit h in
theorem updateTriggersHandler_inUnits {key : Pubkey}
    {stop stop' take take' offset offset' : UInt64}
    (hstop : Scaled (unit key) stop stop') (htake : Scaled (unit key) take take')
    (hoffset : Scaled (unit key) offset offset') (p q : Position)
    (hpq : PositionInUnit unit key p q) :
    Coupled (PositionInUnit unit key) (updateTriggersHandler p stop take offset)
      (updateTriggersHandler q stop' take' offset') := by
  rcases hpq with ⟨hposition, hfeed⟩
  have hretarget := hposition.retarget (hunit _) hstop htake hoffset
  rcases hposition with ⟨b, rfl, hb⟩
  unfold updateTriggersHandler
  apply Coupled.same_guard
  have hcheck : checkTriggers p.side b.entry stop' take' offset' =
      checkTriggers p.side p.entryPrice stop take offset :=
    checkTriggers_inUnit (hunit _) p.side hb.entry hstop htake hoffset
  simp only [Position.priced] at hretarget ⊢
  rw [hcheck]
  apply Coupled.same_bind
  intro _ hchecked
  rw [← hcheck] at hchecked
  have hfeed' : (p.retarget stop take offset).feed = p.feed := by rw [retarget_frame]
  have hplaced := checkTriggers_eq_ok_iff.mp hchecked
  exact .pure ⟨hretarget (hplaced.offset_fits hb.entry_fits), hfeed' ▸ hfeed⟩

include hunit in
theorem updateTriggers_inUnits (accs : UpdateTriggers)
    {stop stop' take take' offset offset' : UInt64}
    (hstop : Scaled (unit accs.position) stop stop')
    (htake : Scaled (unit accs.position) take take')
    (hoffset : Scaled (unit accs.position) offset offset') :
    Coupled (World.InUnits unit) (updateTriggers rt w tx accs stop take offset)
      (updateTriggers rt v tx accs stop' take' offset') := by
  apply updateTriggers_coupled (fun p q hpq => (hpq.sameDeposit p q).toSameAccount)
    (h.loadPosition accs.position)
  · exact updateTriggersHandler_inUnits hunit hstop htake hoffset
  · intro p q hpq
    exact (h.store_position hpq).emit _ _

include hunit in
omit h in
/-- The price a tick goes on with, what it makes of the record and what it finds. -/
theorem tickPrice_inUnits {feed key : Pubkey} (now : Int64) (f g : PriceFeed) (p q : Position)
    (hfg : f.InUnit (unit feed) g) (hpq : PositionInUnit unit key p q)
    (hmatches : feed = p.feed) :
    Coupled (fun price price' => True ∧
        PositionInUnit unit key (p.observe price now) (q.observe price' now) ∧
        evaluateTrigger (q.observe price' now) price' =
          evaluateTrigger (p.observe price now) price)
      (tickPrice p f now) (tickPrice q g now) := by
  rcases hpq with ⟨hposition, hfeed⟩
  rw [hmatches, hfeed] at hfg
  rcases hfg with ⟨price, decimals, rfl, hprice, hfits⟩
  have hobserved := hposition.observe (hunit _) hprice hfits now
  have hevaluated := hobserved.evaluateTrigger_eq (hunit _) hprice
  rcases hposition with ⟨b, rfl, -⟩
  unfold tickPrice
  simp only [gt_iff_lt, hprice.pos_iff (hunit _)]
  apply Coupled.same_guard
  apply Coupled.same_guard
  apply Coupled.same_guard
  exact .pure ⟨trivial, ⟨hobserved, hfeed⟩, hevaluated⟩

include hunit in
theorem tickPosition_inUnits (accs : TickPosition) :
    Coupled (World.InUnits unit) (tickPosition rt w tx accs) (tickPosition rt v tx accs) := by
  apply tickPosition_coupled (P := fun _ _ => True) (.eq rt tx _) h.lamports.symm
    PositionInUnit.sameDeposit (h.loadConfig _) (h.loadPriceFeed accs.feed)
    (h.loadPosition accs.position) (tickPrice_inUnits hunit tx.unixTimestamp)
  · intro p q price price' hpq _
    exact (h.store_position hpq).emit _ _
  · rintro config p q price price' trigger payout lamports _ ⟨⟨b, rfl, hb⟩, hfeed⟩ - rfl
    have hsettled : PositionInUnit unit accs.position (p.settled trigger tx.unixTimestamp)
        ((p.priced b).settled trigger tx.unixTimestamp) := ⟨⟨b, rfl, hb⟩, hfeed⟩
    exact (((h.withLamports _).store_position hsettled).store (.config _)).emit _ _

theorem cancelPosition_inUnits (accs : CancelPosition) :
    Coupled (World.InUnits unit) (cancelPosition rt w tx accs)
      (cancelPosition rt v tx accs) := by
  apply cancelPosition_coupled (.eq rt tx _) h.lamports.symm PositionInUnit.sameDeposit
    (h.loadConfig _) (h.loadPosition accs.position)
  rintro config p _ lamports _ ⟨⟨b, rfl, hb⟩, hfeed⟩ rfl
  have hcancelled : PositionInUnit unit accs.position (p.cancelled tx.unixTimestamp)
      ((p.priced b).cancelled tx.unixTimestamp) := ⟨⟨b, rfl, hb⟩, hfeed⟩
  exact (((h.withLamports _).store_position hcancelled).store (.config _)).emit _ _

omit h in
theorem PositionInUnit.mark_eq {key : Pubkey} (p q : Position)
    (hpq : PositionInUnit unit key p q) : q.erDelegated = p.erDelegated := by
  rcases hpq with ⟨⟨b, rfl, -⟩, -⟩
  rfl

omit h in
theorem PositionInUnit.delegate {key : Pubkey} {p q : Position}
    (hpq : PositionInUnit unit key p q) (flag : UInt8) :
    PositionInUnit unit key { p with erDelegated := flag } { q with erDelegated := flag } := by
  rcases hpq with ⟨⟨b, rfl, hb⟩, hfeed⟩
  exact ⟨⟨b, rfl, hb⟩, hfeed⟩

theorem delegatePosition_inUnits (accs : DelegatePosition) :
    Coupled (World.InUnits unit) (delegatePosition rt w tx accs)
      (delegatePosition rt v tx accs) := by
  apply delegatePosition_coupled (.eq rt tx _) h.lamports.symm PositionInUnit.sameDeposit
    PositionInUnit.mark_eq (h.loadPosition accs.position)
  rintro p q lamports _ hpq rfl
  exact ((h.withLamports _).store_position (hpq.delegate 1)).emit _ _

theorem undelegatePosition_inUnits (accs : UndelegatePosition) :
    Coupled (World.InUnits unit) (undelegatePosition rt w tx accs)
      (undelegatePosition rt v tx accs) := by
  apply undelegatePosition_coupled (.eq rt tx _) h.lamports.symm PositionInUnit.sameDeposit
    PositionInUnit.mark_eq (h.loadPosition accs.position)
  rintro p q lamports _ hpq rfl
  exact ((h.withLamports _).store_position (hpq.delegate 0)).emit _ _

end Instructions

/-! ### Posted messages -/

def LazerMessage.InUnit (k : Nat) (message message' : LazerMessage) : Prop :=
  ∃ price, message' = { message with price := price } ∧ Scaled k message.price price ∧
    price.toNat ≤ 2 ^ 63

/-- Two postings that differ in the price they carry: the payloads decode to the same message
but for its unit, or fail to decode alike, and are signed equally well. -/
structure SamePosting (rt : Runtime) (k : Nat) (tx tx' : Tx) (payload payload' : List UInt8) :
    Prop where
  signers : tx'.signers = tx.signers
  writable : tx'.writable = tx.writable
  unixTimestamp : tx'.unixTimestamp = tx.unixTimestamp
  precompiles : tx'.precompilesPass rt = tx.precompilesPass rt
  carried : verifyLazerSignaturePresent tx' payload' = verifyLazerSignaturePresent tx payload
  message : Coupled (LazerMessage.InUnit k) (decodeLazerPayload payload)
    (decodeLazerPayload payload')

section Postings

variable {w v : World} {rt : Runtime} {tx tx' : Tx} {payload payload' : List UInt8} {k : Nat}

theorem SamePosting.authentic (h : SamePosting rt k tx tx' payload payload') :
    tx'.authentic rt = tx.authentic rt := by
  rw [Tx.authentic, Tx.authentic, h.signers]

theorem SamePosting.accepted (h : SamePosting rt k tx tx' payload payload') (hk : 0 < k)
    {f g : PriceFeed} (hfeed : f.InUnit k g) :
    Coupled (LazerMessage.InUnit k) (acceptLazerPayload f tx payload)
      (acceptLazerPayload g tx' payload') := by
  rcases hfeed with ⟨old, decimals, rfl, -⟩
  unfold acceptLazerPayload
  rw [h.carried, h.unixTimestamp]
  apply Coupled.same_guard
  apply h.message.bind
  rintro message _ ⟨price, rfl, hprice, hfits⟩
  simp only [gt_iff_lt, hprice.pos_iff hk]
  apply Coupled.same_guard
  apply Coupled.same_guard
  apply Coupled.same_guard
  apply Coupled.same_guard
  apply Coupled.same_guard
  exact .pure ⟨price, rfl, hprice, hfits⟩

theorem updatePriceFeedFromLazer_inUnits (h : w.InUnits unit v) (hunit : ∀ key, 0 < unit key)
    (accs : UpdatePriceFeedFromLazer)
    (hposting : SamePosting rt (unit accs.feed) tx tx' payload payload') :
    Coupled (World.InUnits unit) (updatePriceFeedFromLazer w tx accs payload)
      (updatePriceFeedFromLazer v tx' accs payload') := by
  apply updatePriceFeedFromLazer_coupled hposting.signers hposting.writable
    hposting.unixTimestamp (h.loadPriceFeed accs.feed)
  · intro f g hfg
    exact hposting.accepted (hunit _) hfg
  · rintro f _ message _ ⟨old, decimals, rfl, -⟩ ⟨price, rfl, hprice⟩
    exact ((h.store (.priceFeed ⟨price, decimals, rfl, hprice⟩)).emit _ _).emit _ _

end Postings

/-! ### Runs -/

/-- The instructions whose arguments carry no price. -/
def Instruction.NamesNoPrice : Instruction → Prop
  | .initializePriceFeed .. => False
  | .updatePriceFeed .. => False
  | .openPosition .. => False
  | .updateTriggers .. => False
  | .updatePriceFeedFromLazer .. => False
  | _ => True

/-- The same action with the prices it names in the units of the accounts they are for. -/
inductive Action.InUnits (rt : Runtime) (unit : Pubkey → Nat) : Action → Action → Prop where
  | transfer (src dst : Pubkey) (amount : UInt64) :
      Action.InUnits rt unit (.transfer src dst amount) (.transfer src dst amount)
  | same (tx : Tx) {ix : Instruction} (h : ix.NamesNoPrice) :
      Action.InUnits rt unit (.invoke tx ix) (.invoke tx ix)
  | initializePriceFeed (tx : Tx) (accs : InitializePriceFeed) (symbol : FeedSymbol)
      (decimals decimals' : UInt8) {price price' : UInt64}
      (h : Scaled (unit accs.feed) price price') (fits : price'.toNat ≤ 2 ^ 63) :
      Action.InUnits rt unit (.invoke tx (.initializePriceFeed accs symbol decimals price))
        (.invoke tx (.initializePriceFeed accs symbol decimals' price'))
  | updatePriceFeed (tx : Tx) (accs : UpdatePriceFeed) {price price' : UInt64}
      (h : Scaled (unit accs.feed) price price') (fits : price'.toNat ≤ 2 ^ 63) :
      Action.InUnits rt unit (.invoke tx (.updatePriceFeed accs price))
        (.invoke tx (.updatePriceFeed accs price'))
  | updatePriceFeedFromLazer {tx tx' : Tx} (accs : UpdatePriceFeedFromLazer)
      {payload payload' : List UInt8}
      (h : SamePosting rt (unit accs.feed) tx tx' payload payload') :
      Action.InUnits rt unit (.invoke tx (.updatePriceFeedFromLazer accs payload))
        (.invoke tx' (.updatePriceFeedFromLazer accs payload'))
  | openPosition (tx : Tx) (accs : OpenPosition) (args : OpenPositionArgs)
      (feed : unit accs.feed = unit accs.position) {stop takeProfit offset : UInt64}
      (hstop : Scaled (unit accs.position) args.stopPrice stop)
      (htakeProfit : Scaled (unit accs.position) args.takeProfitPrice takeProfit)
      (hoffset : Scaled (unit accs.position) args.trailingOffset offset) :
      Action.InUnits rt unit (.invoke tx (.openPosition accs args))
        (.invoke tx (.openPosition accs
          { args with
            stopPrice := stop
            takeProfitPrice := takeProfit
            trailingOffset := offset }))
  | updateTriggers (tx : Tx) (accs : UpdateTriggers)
      {stop stop' takeProfit takeProfit' offset offset' : UInt64}
      (hstop : Scaled (unit accs.position) stop stop')
      (htakeProfit : Scaled (unit accs.position) takeProfit takeProfit')
      (hoffset : Scaled (unit accs.position) offset offset') :
      Action.InUnits rt unit (.invoke tx (.updateTriggers accs stop takeProfit offset))
        (.invoke tx (.updateTriggers accs stop' takeProfit' offset'))

section Runs

variable {w v : World} {rt : Runtime} (h : w.InUnits unit v) (hunit : ∀ key, 0 < unit key)

include h hunit

theorem execute_inUnits (tx : Tx) {ix : Instruction} (hix : ix.NamesNoPrice) :
    Coupled (World.InUnits unit) (execute rt w tx ix) (execute rt v tx ix) := by
  cases ix with
  | initializeConfig => exact initializeConfig_inUnits h _ _ _
  | updateConfig => exact updateConfig_inUnits h _ _ _ _ _
  | tickPosition => exact tickPosition_inUnits h hunit _
  | cancelPosition => exact cancelPosition_inUnits h _
  | registerLazerFeed => exact registerLazerFeed_inUnits h _ _ _
  | delegatePosition => exact delegatePosition_inUnits h _
  | undelegatePosition => exact undelegatePosition_inUnits h _
  | _ => exact hix.elim

theorem attempt_inUnits {action action' : Action} (haction : action.InUnits rt unit action') :
    Coupled (World.InUnits unit) (attempt rt w action) (attempt rt v action') := by
  cases haction with
  | transfer src dst amount =>
      apply transfer_coupled (coupled_eq (by rw [h.lamports]))
      rintro lamports _ rfl
      exact h.withLamports lamports
  | same tx hix => exact invoke_coupled rfl rfl (execute_inUnits h hunit tx hix)
  | initializePriceFeed tx accs symbol decimals decimals' hprice hfits =>
      exact invoke_coupled rfl rfl
        (initializePriceFeed_inUnits h hunit accs symbol decimals decimals' hprice hfits)
  | updatePriceFeed tx accs hprice hfits =>
      exact invoke_coupled rfl rfl (updatePriceFeed_inUnits h hunit accs hprice hfits)
  | updatePriceFeedFromLazer accs hposting =>
      exact invoke_coupled hposting.authentic hposting.precompiles
        (updatePriceFeedFromLazer_inUnits h hunit accs hposting)
  | openPosition tx accs args hfeed hstop htake hoffset =>
      exact invoke_coupled rfl rfl
        (openPosition_inUnits h hunit accs args hfeed hstop htake hoffset)
  | updateTriggers tx accs hstop htake hoffset =>
      exact invoke_coupled rfl rfl (updateTriggers_inUnits h hunit accs hstop htake hoffset)

theorem run_inUnits {actions actions' : List Action}
    (hactions : List.Forall₂ (Action.InUnits rt unit) actions actions') :
    (runFrom rt w actions).InUnits unit (runFrom rt v actions') := by
  induction hactions generalizing w v with
  | nil => exact h
  | @cons action action' rest rest' hfirst hrest ih =>
      exact ih (step_of_coupled h (attempt_inUnits h hunit hfirst))

/-- Rewrite the prices a run names into finer units, feed by feed: the same lamports end up in
the same accounts, the config counts the same, every feed and every position is the same but
for its unit, and whatever is tried next fails in the one world exactly when it fails in the
other, with the same error. -/
theorem price_unit_symmetry {actions actions' : List Action}
    (hactions : List.Forall₂ (Action.InUnits rt unit) actions actions') :
    (runFrom rt w actions).InUnits unit (runFrom rt v actions') ∧
      ∀ next next', Action.InUnits rt unit next next' → ∀ error,
        attempt rt (runFrom rt w actions) next = .error error ↔
          attempt rt (runFrom rt v actions') next' = .error error := by
  have hrun := run_inUnits h hunit hactions
  refine ⟨hrun, ?_⟩
  intro next next' hnext error
  exact (attempt_inUnits hrun hunit hnext).error_iff error

end Runs

end Worlds

theorem World.InUnits.genesis (unit : Pubkey → Nat) (lamports : Lamports) :
    (World.genesis lamports).InUnits unit (World.genesis lamports) :=
  ⟨rfl, fun _ => .unused⟩

open Localnet in
/-- A feed of nine decimals instead of six, every price a thousand times the number: the stop
is reached and settled all the same. -/
theorem price_unit_symmetry_nineDecimals :
    let coarse := launch ++ [deposit, push 89000000 1006, tick feeReceiver 1007]
    let fine : List Action :=
      [.invoke (tx admin 1000)
          (.initializeConfig ⟨admin, feeReceiver, config, systemProgramId⟩ 50 25),
        .invoke (tx admin 1001)
          (.initializePriceFeed ⟨admin, config, feedAuthority, feed, systemProgramId⟩ symbol 9
            100000000000),
        .invoke (tx admin 1002) (.registerLazerFeed ⟨admin, config, feed⟩ 6 1),
        .invoke (tx alice 1003)
          (.openPosition ⟨alice, config, feed, position, systemProgramId⟩
            ⟨1, 0, 50000000, 90000000000, 120000000000, 0⟩),
        push 89000000000 1006, tick feeReceiver 1007]
    (runFrom cluster (World.genesis funds) fine).lamports =
      (runFrom cluster (World.genesis funds) coarse).lamports := by
  intro coarse fine
  have hprices : List.Forall₂ (Action.InUnits cluster fun _ => 1000) coarse fine := by
    refine .cons (.same _ trivial) (.cons ?_ (.cons (.same _ trivial) (.cons ?_ (.cons ?_
      (.cons (.same _ trivial) .nil)))))
    · exact .initializePriceFeed _ _ _ _ _ (by decide) (by decide)
    · exact .openPosition _ _ ⟨1, 0, 50000000, 90000000, 120000000, 0⟩ rfl (by decide)
        (by decide) (by decide)
    · exact .updatePriceFeed _ _ (by decide) (by decide)
  exact (price_unit_symmetry (World.InUnits.genesis _ funds) (by simp) hprices).1.lamports

end Hwal
