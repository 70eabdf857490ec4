/-
What holds in every reachable state: derived addresses and bumps, capped rates,
positive prices, positions whose numbers fit their side, and balances that
cover the rent and the collateral written in the account next to them.
-/
import Hwal.AccountEffects

namespace Hwal

open Guard

def Runtime.configAddress (rt : Runtime) : Pubkey := (rt.findProgramAddress .config).1

def Runtime.positionAddress (rt : Runtime) (owner : Pubkey) (nonce : UInt64) : Pubkey :=
  (rt.findProgramAddress (.position owner nonce)).1

/-- The least balance that keeps a position account alive. -/
def Runtime.positionRent (rt : Runtime) : Nat := (rt.minimumBalance positionSpace).toNat

/-! ### One position on its own -/

/-- A position whose numbers make sense for its side and status. -/
structure Position.Sound (position : Position) : Prop where
  side : position.side = sideLong ∨ position.side = sideShort
  entry_pos : 0 < position.entryPrice.toNat
  placed : TriggersPlaced position.side position.entryPrice position.stopPrice
    position.takeProfitPrice position.trailingOffset
  extreme_long : position.side = sideLong →
    position.entryPrice.toNat ≤ position.trailingExtreme.toNat
  extreme_short : position.side ≠ sideLong →
    0 < position.trailingExtreme.toNat ∧
      position.trailingExtreme.toNat ≤ position.entryPrice.toNat
  status : position.status = statusOpen ∨ position.status = statusTriggered ∨
    position.status = statusCancelled
  reason : position.triggerReason = triggerNone ↔ position.status ≠ statusTriggered
  emptied : position.status ≠ statusOpen → position.collateral = 0

theorem newPosition_sound {accs : OpenPosition} {args : OpenPositionArgs}
    {feed : PriceFeed} {now : Int64} (h : OpenChecked feed now args) (bump : UInt8) :
    (newPosition accs args feed.price now bump).Sound := by
  have hpos : 0 < feed.price.toNat := UInt64.lt_iff_toNat_lt.mp h.price_pos
  constructor
  case side => exact h.side
  case entry_pos => exact hpos
  case placed => exact h.placed
  case extreme_long => exact fun _ => Nat.le_refl _
  case extreme_short => exact fun _ => ⟨hpos, Nat.le_refl _⟩
  case status => exact Or.inl rfl
  case reason => exact ⟨fun _ => by simp [newPosition, statusOpen, statusTriggered], fun _ => rfl⟩
  case emptied => exact fun hclosed => absurd rfl hclosed

theorem Position.Sound.retarget {position : Position} (h : position.Sound)
    {stopPrice takeProfitPrice trailingOffset : UInt64}
    (hplaced : TriggersPlaced position.side position.entryPrice stopPrice takeProfitPrice
      trailingOffset) :
    (position.retarget stopPrice takeProfitPrice trailingOffset).Sound := by
  have hextreme := retarget_trailingExtreme position stopPrice takeProfitPrice trailingOffset
  rw [retarget_frame]
  constructor
  case side => exact h.side
  case entry_pos => exact h.entry_pos
  case placed => exact hplaced
  case extreme_long =>
    intro hside
    dsimp only
    rw [hextreme]
    split
    · exact h.extreme_long hside
    · exact Nat.le_refl _
  case extreme_short =>
    intro hside
    dsimp only
    rw [hextreme]
    split
    · exact h.extreme_short hside
    · exact ⟨h.entry_pos, Nat.le_refl _⟩
  case status => exact h.status
  case reason => exact h.reason
  case emptied => exact h.emptied

theorem Position.Sound.observe {position : Position} (h : position.Sound) {price : UInt64}
    (hprice : 0 < price.toNat) (now : Int64) : (position.observe price now).Sound := by
  constructor
  case side => exact h.side
  case entry_pos => exact h.entry_pos
  case placed => exact h.placed
  case extreme_long =>
    intro hside
    have hold := h.extreme_long hside
    by_cases hoff : position.trailingOffset.toNat = 0
    · simpa [Position.observe, advanceExtreme_of_off price hoff] using hold
    · have hmax := advanceExtreme_long price (Nat.pos_of_ne_zero hoff) hside
      simp only [Position.observe, hmax]
      omega
  case extreme_short =>
    intro hside
    have hold := h.extreme_short hside
    by_cases hoff : position.trailingOffset.toNat = 0
    · simpa [Position.observe, advanceExtreme_of_off price hoff] using hold
    · have hmin := advanceExtreme_short price (Nat.pos_of_ne_zero hoff) hside hold.1
      simp only [Position.observe, hmin]
      omega
  case status => exact h.status
  case reason => exact h.reason
  case emptied => exact h.emptied

theorem Position.Sound.settled {position : Position} (h : position.Sound) {trigger : UInt8}
    (htrigger : trigger ≠ triggerNone) (now : Int64) : (position.settled trigger now).Sound := by
  constructor
  case side => exact h.side
  case entry_pos => exact h.entry_pos
  case placed => exact h.placed
  case extreme_long => exact h.extreme_long
  case extreme_short => exact h.extreme_short
  case status => exact Or.inr (Or.inl rfl)
  case reason => exact ⟨fun hnone => absurd hnone htrigger, fun hne => absurd rfl hne⟩
  case emptied => exact fun _ => rfl

theorem Position.Sound.cancelled {position : Position} (h : position.Sound)
    (hopen : position.status = statusOpen) (now : Int64) : (position.cancelled now).Sound := by
  have hreason : position.triggerReason = triggerNone := by
    apply h.reason.mpr
    rw [hopen]
    decide
  constructor
  case side => exact h.side
  case entry_pos => exact h.entry_pos
  case placed => exact h.placed
  case extreme_long => exact h.extreme_long
  case extreme_short => exact h.extreme_short
  case status => exact Or.inr (Or.inr rfl)
  case reason => exact ⟨fun _ => by simp [Position.cancelled, statusCancelled, statusTriggered],
    fun _ => hreason⟩
  case emptied => exact fun _ => rfl

theorem Position.Sound.delegate {position : Position} (h : position.Sound) (flag : UInt8) :
    ({ position with erDelegated := flag }).Sound :=
  ⟨h.side, h.entry_pos, h.placed, h.extreme_long, h.extreme_short, h.status, h.reason,
    h.emptied⟩

/-- A long position's threshold always fits, so only a short one gets stuck. -/
theorem Position.Sound.observe_in_range {position : Position} (h : position.Sound)
    {price : UInt64} (hprice : 0 < price.toNat) (now : Int64)
    (hside : position.side = sideLong) :
    ¬ (position.observe price now).ThresholdOutOfRange := by
  rintro ⟨hoff, hout⟩
  have hobserved := h.observe hprice now
  have hoffset := UInt64.lt_iff_toNat_lt.mp
    (hobserved.placed.trailing (UInt64.lt_iff_toNat_lt.mpr hoff))
  have hextreme := hobserved.extreme_long hside
  have hlt : (position.observe price now).trailingExtreme.toNat <
      (position.observe price now).trailingOffset.toNat := by
    have hsame : (position.observe price now).side = sideLong := hside
    simpa only [hsame, ↓reduceIte] using hout
  omega

/-! ### The whole world -/

/-- A config sits at its one address, under its canonical bump, with capped rates. -/
structure ConfigSound (rt : Runtime) (key : Pubkey) (config : Config) : Prop where
  address : key = rt.configAddress
  bump : config.bump = (rt.findProgramAddress .config).2
  capped : config.RatesCapped

/-- A position account and what the rest of the world must provide for it. -/
structure PositionSound (rt : Runtime) (w : World) (key : Pubkey) (position : Position) :
    Prop where
  shape : position.Sound
  owner : rt.canSign position.owner = true
  address : key = rt.positionAddress position.owner position.nonce
  bump : position.bump = (rt.findProgramAddress (.position position.owner position.nonce)).2
  feed : ∃ feed, w.feeds position.feed = some feed
  config : ∃ config, w.configs rt.configAddress = some config

structure Invariant (rt : Runtime) (w : World) : Prop where
  configs : ∀ key config, w.configs key = some config → ConfigSound rt key config
  feeds : ∀ key feed, w.feeds key = some feed → 0 < feed.price.toNat
  positions : ∀ key position, w.positions key = some position →
    PositionSound rt w key position
  funded : ∀ key position, w.positions key = some position →
    rt.positionRent + position.collateral.toNat ≤ (w.lamports key).toNat

theorem genesis_invariant (rt : Runtime) (lamports : Lamports) :
    Invariant rt (World.genesis lamports) := by
  constructor <;> simp

section Step

variable {rt : Runtime} {w w' : World} {action : Action}

/-- Feeds and configs are never closed. -/
theorem Effect.feeds_persist (h : Effect rt w action w') {key : Pubkey} {feed : PriceFeed}
    (hfeed : w.feeds key = some feed) : ∃ feed', w'.feeds key = some feed' := by
  have hat := h.atFeed key
  rw [hfeed] at hat
  generalize w'.feeds key = after at hat ⊢
  cases hat with
  | kept => exact ⟨feed, rfl⟩
  | pushed account heff => exact ⟨_, rfl⟩
  | registered account heff => exact ⟨_, rfl⟩
  | verified account heff => exact ⟨_, rfl⟩

theorem Effect.configs_persist (h : Effect rt w action w') {key : Pubkey} {config : Config}
    (hconfig : w.configs key = some config) : ∃ config', w'.configs key = some config' := by
  have hat := h.atConfig key
  rw [hconfig] at hat
  generalize w'.configs key = after at hat ⊢
  cases hat with
  | kept => exact ⟨config, rfl⟩
  | changed account heff => exact ⟨_, rfl⟩
  | opened account heff => exact ⟨_, rfl⟩
  | settled account heff => exact ⟨_, rfl⟩
  | cancelled account heff => exact ⟨_, rfl⟩

theorem Effect.keeps_configs (h : Effect rt w action w') (hinv : Invariant rt w)
    (key : Pubkey) (config : Config) (hconfig : w'.configs key = some config) :
    ConfigSound rt key config := by
  have hat := h.atConfig key
  generalize hbefore : w.configs key = before at hat
  rw [hconfig] at hat
  cases hat with
  | kept => exact hinv.configs key config hbefore
  | created account heff =>
      subst account
      exact ⟨heff.init.address, heff.init.bump_eq, heff.fee_capped, heff.reward_capped⟩
  | changed account heff =>
      have hold := hinv.configs _ _ hbefore
      rcases updateConfigHandler_eq_ok heff.handled with ⟨hfields, hcaps⟩
      exact ⟨hold.address, by rw [hfields]; exact hold.bump, hcaps hold.capped⟩
  | opened account heff =>
      have hold := hinv.configs _ _ hbefore
      exact ⟨hold.address, hold.bump, hold.capped⟩
  | settled account heff =>
      have hold := hinv.configs _ _ hbefore
      exact ⟨hold.address, hold.bump, hold.capped⟩
  | cancelled account heff =>
      have hold := hinv.configs _ _ hbefore
      exact ⟨hold.address, hold.bump, hold.capped⟩

theorem Effect.keeps_feeds (h : Effect rt w action w') (hinv : Invariant rt w)
    (key : Pubkey) (feed : PriceFeed) (hfeed : w'.feeds key = some feed) :
    0 < feed.price.toNat := by
  have hat := h.atFeed key
  generalize hbefore : w.feeds key = before at hat
  rw [hfeed] at hat
  cases hat with
  | kept => exact hinv.feeds key feed hbefore
  | created account heff => exact UInt64.lt_iff_toNat_lt.mp heff.price_pos
  | pushed account heff => exact UInt64.lt_iff_toNat_lt.mp heff.price_pos
  | registered account heff =>
      have hold := hinv.feeds _ _ hbefore
      exact hold
  | verified account heff => exact UInt64.lt_iff_toNat_lt.mp heff.accepted.price_pos

/-- The parts of `PositionSound` that an update must re-establish; accounts the
position depends on are still there afterwards. -/
theorem PositionSound.step {key : Pubkey} {position position' : Position}
    (hold : PositionSound rt w key position) (h : Effect rt w action w')
    (hshape : position'.Sound) (howner : position'.owner = position.owner)
    (hnonce : position'.nonce = position.nonce) (hbump : position'.bump = position.bump)
    (hfeed : position'.feed = position.feed) : PositionSound rt w' key position' := by
  rcases hold.feed with ⟨feed, hfeedOld⟩
  rcases hold.config with ⟨config, hconfigOld⟩
  constructor
  case shape => exact hshape
  case owner => rw [howner]; exact hold.owner
  case address => rw [howner, hnonce]; exact hold.address
  case bump => rw [howner, hnonce, hbump]; exact hold.bump
  case feed => rw [hfeed]; exact h.feeds_persist hfeedOld
  case config => exact h.configs_persist hconfigOld

theorem PositionSound.derived {key : Pubkey} {position : Position}
    (h : PositionSound rt w key position) : rt.IsDerived key := by
  rw [h.address]
  exact isDerived_findProgramAddress rt _

theorem PositionSound.ne_owner {key : Pubkey} {position : Position}
    (h : PositionSound rt w key position) : key ≠ position.owner := by
  intro heq
  have hsigns := h.owner
  rw [← heq, h.derived.cannot_sign] at hsigns
  contradiction

theorem TickEvaluated.price_pos {tx : Tx} {accs : TickPosition} {config : Config}
    {feed : PriceFeed} {position : Position}
    (h : TickEvaluated rt w tx accs config feed position) : 0 < feed.price.toNat :=
  UInt64.lt_iff_toNat_lt.mp (tickPrice_eq_ok_iff.mp h.guards).2.1

theorem keeps_positions (hok : attempt rt w action = .ok w') (hinv : Invariant rt w)
    (key : Pubkey) (position : Position) (hposition : w'.positions key = some position) :
    PositionSound rt w' key position := by
  have h := attempt_effect hok
  have hat := h.atPosition key
  generalize hbefore : w.positions key = before at hat
  rw [hposition] at hat
  cases hat with
  | kept pays =>
      have hold := hinv.positions _ _ hbefore
      exact hold.step h hold.shape rfl rfl rfl rfl
  | opened account heff =>
      subst account
      have hconfig := (hinv.configs _ _ heff.config_loaded).address
      constructor
      case shape => exact newPosition_sound heff.checked _
      case owner => exact Tx.canSign_of_mem (attempt_authentic hok) heff.signed
      case address => exact heff.init.address
      case bump => exact heff.init.bump_eq
      case feed => exact h.feeds_persist heff.feed_loaded
      case config =>
        rw [← hconfig]
        exact h.configs_persist heff.config_loaded
  | retargeted account heff =>
      have hold := hinv.positions _ _ hbefore
      apply hold.step h (hold.shape.retarget heff.placed) <;> rw [retarget_frame]
  | ticked account heff =>
      have hold := hinv.positions _ _ hbefore
      have hshape := hold.shape.observe heff.toTickEvaluated.price_pos
      exact hold.step h (hshape _) rfl rfl rfl rfl
  | settled account heff =>
      have hold := hinv.positions _ _ hbefore
      have hshape := hold.shape.observe heff.toTickEvaluated.price_pos
      exact hold.step h ((hshape _).settled heff.fires _) rfl rfl rfl rfl
  | cancelled account heff =>
      have hold := hinv.positions _ _ hbefore
      exact hold.step h (hold.shape.cancelled heff.status _) rfl rfl rfl rfl
  | delegated account heff =>
      have hold := hinv.positions _ _ hbefore
      exact hold.step h (hold.shape.delegate _) rfl rfl rfl rfl
  | undelegated account heff =>
      have hold := hinv.positions _ _ hbefore
      exact hold.step h (hold.shape.delegate _) rfl rfl rfl rfl

/-- A payout takes no more than the collateral out of the position account. -/
theorem settlement_keeps_rent {accs : TickPosition} {config : Config} {collateral : UInt64}
    {payout : Payout} {lamports lamports' : Lamports}
    (hpayout : PayoutOf config collateral payout)
    (hpaid : Ledger.Moved (settlementTransfers accs payout) lamports lamports') :
    (lamports accs.position).toNat ≤ (lamports' accs.position).toNat + collateral.toNat := by
  have hnet := hpaid accs.position
  have htotal := hpayout.total
  simp only [settlementTransfers, Ledger.netDelta_cons, Ledger.netDelta_nil,
    Ledger.Transfer.delta] at hnet
  split_ifs at hnet <;> omega

theorem keeps_funded (h : attempt rt w action = .ok w') (hinv : Invariant rt w)
    (key : Pubkey) (position : Position) (hposition : w'.positions key = some position) :
    rt.positionRent + position.collateral.toNat ≤ (w'.lamports key).toNat := by
  have hderived := (keeps_positions h hinv key position hposition).derived
  have hat := (attempt_effect h).atPosition key
  generalize hbefore : w.positions key = before at hat
  rw [hposition] at hat
  cases hat with
  | kept pays =>
      have hold := hinv.funded _ _ hbefore
      have hlamports := lamports_le_of_not_paysFrom h hderived pays
      omega
  | @opened tx accs args config feed rent bump _ account heff =>
      subst account
      have hne := hderived.ne_signer (attempt_authentic h) heff.signed
      have hrent := heff.init.moved accs.position
      have hdeposit := heff.deposited accs.position
      rw [Ledger.netDelta_cons, Ledger.netDelta_nil, Ledger.Transfer.delta_dst hne]
        at hrent hdeposit
      simp only [Runtime.positionRent, newPosition]
      dsimp only at hrent hdeposit
      omega
  | retargeted account heff =>
      have hold := hinv.funded _ _ hbefore
      rw [heff.lamports, retarget_frame]
      exact hold
  | ticked account heff =>
      have hold := hinv.funded _ _ hbefore
      rw [heff.lamports]
      exact hold
  | settled account heff =>
      subst account
      have hold := hinv.funded _ _ hbefore
      have hkept := settlement_keeps_rent heff.payout_of heff.paid
      rw [fired_collateral, UInt64.toNat_zero]
      omega
  | cancelled account heff =>
      subst account
      have hold := hinv.funded _ _ hbefore
      have hkept := moved_source_le heff.refunded
      rw [cancelled_collateral, UInt64.toNat_zero]
      omega
  | delegated account heff =>
      rcases heff.cpi with ⟨ix, hcpi⟩
      rcases hderived with ⟨seeds, bump, hcreate⟩
      have hold := hinv.funded _ _ hbefore
      rw [rt.invokeDelegation_keeps _ _ _ _ hcpi seeds bump _ hcreate]
      exact hold
  | undelegated account heff =>
      rcases heff.cpi with ⟨ix, hcpi⟩
      rcases hderived with ⟨seeds, bump, hcreate⟩
      have hold := hinv.funded _ _ hbefore
      rw [rt.invokeDelegation_keeps _ _ _ _ hcpi seeds bump _ hcreate]
      exact hold

/-- Every step keeps the invariant. -/
theorem step_invariant (hinv : Invariant rt w) (action : Action) :
    Invariant rt (step rt w action) := by
  rcases step_cases rt w action with hok | hsame
  · have heffect := attempt_effect hok
    constructor
    case configs => exact heffect.keeps_configs hinv
    case feeds => exact heffect.keeps_feeds hinv
    case positions => exact keeps_positions hok hinv
    case funded => exact keeps_funded hok hinv
  · rw [hsame]
    exact hinv

theorem reachable_invariant (h : Reachable rt w) : Invariant rt w := by
  rcases h with ⟨lamports, actions, rfl⟩
  apply Transition.run_invariant (step rt) (genesis_invariant rt lamports)
  intro t action ht
  exact step_invariant ht action

theorem invariant_of_mem_history {lamports : Lamports} {actions : List Action} {m : Moment}
    (h : m ∈ historyFrom rt (World.genesis lamports) actions) : Invariant rt m.before :=
  reachable_invariant (reachable_of_mem_history h).1

/-! ### The supply -/

theorem Effect.moved (h : Effect rt w action w') :
    ∃ transfers, Ledger.Moved transfers w.lamports w'.lamports := by
  cases h with
  | configCreated heff => exact ⟨_, heff.init.moved⟩
  | configChanged heff => exact ⟨[], heff.lamports ▸ Ledger.Moved.nil _⟩
  | feedCreated heff => exact ⟨_, heff.init.moved⟩
  | feedPushed heff => exact ⟨[], heff.lamports ▸ Ledger.Moved.nil _⟩
  | feedRegistered heff => exact ⟨[], heff.lamports ▸ Ledger.Moved.nil _⟩
  | feedVerified heff => exact ⟨[], heff.lamports ▸ Ledger.Moved.nil _⟩
  | positionOpened heff => exact ⟨_, heff.init.moved.append heff.deposited⟩
  | triggersChanged heff => exact ⟨[], heff.lamports ▸ Ledger.Moved.nil _⟩
  | tickRecorded heff => exact ⟨[], heff.lamports ▸ Ledger.Moved.nil _⟩
  | positionSettled heff => exact ⟨_, heff.paid⟩
  | positionCancelled heff => exact ⟨_, heff.refunded⟩
  | delegated heff =>
      rcases heff.cpi with ⟨ix, hcpi⟩
      exact rt.invokeDelegation_moves _ _ _ _ hcpi
  | undelegated heff =>
      rcases heff.cpi with ⟨ix, hcpi⟩
      exact rt.invokeDelegation_moves _ _ _ _ hcpi
  | lamportsSent heff => exact ⟨_, heff.moved⟩

theorem step_supply {total : Nat} (h : Ledger.SupplyAtMost total w.lamports)
    (action : Action) : Ledger.SupplyAtMost total (step rt w action).lamports := by
  rcases step_effect rt w action with heffect | hsame
  · rcases heffect.moved with ⟨transfers, hmoved⟩
    exact h.moved hmoved
  · rw [hsame]
    exact h

/-- No run creates lamports. -/
theorem reachable_supply (h : ReachableWithSupply rt w) :
    Ledger.SupplyAtMost (2 ^ 64 - 1) w.lamports := by
  rcases h with ⟨lamports, actions, hsupply, rfl⟩
  induction actions using List.reverseRecOn with
  | nil => exact hsupply
  | append_singleton earlier action ih =>
      rw [runFrom_snoc]
      exact step_supply ih action

end Step

end Hwal
