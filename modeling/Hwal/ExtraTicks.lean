/-
More ticks never delay a trigger.  Of two runs that differ in extra ticks of one
position, the one with more of them is ahead: its trailing extreme has seen every price
the other's has, and it settles no later.
-/
import Hwal.Alike
import Hwal.Progress

namespace Hwal

open Guard

/-! ### Records -/

/-- `q` differs from `p` in what ticks count and in an extreme that has moved at least
as far. -/
structure Ahead (p q : Position) : Prop where
  same : ∃ lastTickAt tickCount trailingExtreme,
    p = { q with
      lastTickAt := lastTickAt, tickCount := tickCount, trailingExtreme := trailingExtreme }
  long : p.status = statusOpen → p.side = sideLong →
    p.trailingExtreme.toNat ≤ q.trailingExtreme.toNat
  short : p.status = statusOpen → p.side ≠ sideLong →
    q.trailingExtreme.toNat ≤ p.trailingExtreme.toNat

theorem Ahead.refl (p : Position) : Ahead p p :=
  ⟨⟨_, _, _, rfl⟩, fun _ _ => Nat.le_refl _, fun _ _ => Nat.le_refl _⟩

section Records

variable {p q : Position} {price : UInt64}

theorem Ahead.side_eq (h : Ahead p q) : p.side = q.side := by
  rcases h.same with ⟨_, _, _, rfl⟩
  rfl

theorem Ahead.status_eq (h : Ahead p q) : p.status = q.status := by
  rcases h.same with ⟨_, _, _, rfl⟩
  rfl

theorem Ahead.reason_eq (h : Ahead p q) : p.triggerReason = q.triggerReason := by
  rcases h.same with ⟨_, _, _, rfl⟩
  rfl

theorem Ahead.offset_eq (h : Ahead p q) : p.trailingOffset = q.trailingOffset := by
  rcases h.same with ⟨_, _, _, rfl⟩
  rfl

/-- Whoever sees another price gets further ahead. -/
theorem Ahead.observe_right (h : Ahead p q) (hq : q.Sound) (price : UInt64) (now : Int64) :
    Ahead p (q.observe price now) := by
  constructor
  case same =>
    rcases h.same with ⟨a, b, c, rfl⟩
    exact ⟨a, b, c, rfl⟩
  case long =>
    intro hopen hside
    have hle := h.long hopen hside
    change p.trailingExtreme.toNat ≤ (q.advanceExtreme price).toNat
    by_cases hoff : q.trailingOffset.toNat = 0
    · rwa [advanceExtreme_of_off price hoff]
    · rw [advanceExtreme_long price (Nat.pos_of_ne_zero hoff) (h.side_eq ▸ hside)]
      omega
  case short =>
    intro hopen hside
    have hle := h.short hopen hside
    have hsideQ : q.side ≠ sideLong := h.side_eq ▸ hside
    change (q.advanceExtreme price).toNat ≤ p.trailingExtreme.toNat
    by_cases hoff : q.trailingOffset.toNat = 0
    · rwa [advanceExtreme_of_off price hoff]
    · rw [advanceExtreme_short price (Nat.pos_of_ne_zero hoff) hsideQ (hq.extreme_short hsideQ).1]
      omega

theorem Ahead.observe (h : Ahead p q) (hp : p.Sound) (hq : q.Sound) (price : UInt64)
    (now : Int64) : Ahead (p.observe price now) (q.observe price now) := by
  have hoffset := congrArg UInt64.toNat h.offset_eq
  constructor
  case same =>
    rcases h.same with ⟨_, _, _, rfl⟩
    exact ⟨_, _, _, rfl⟩
  case long =>
    intro hopen hside
    change p.side = sideLong at hside
    have hle := h.long hopen hside
    change (p.advanceExtreme price).toNat ≤ (q.advanceExtreme price).toNat
    by_cases hoff : q.trailingOffset.toNat = 0
    · rwa [advanceExtreme_of_off price hoff, advanceExtreme_of_off price (hoffset.trans hoff)]
    · have hpos := Nat.pos_of_ne_zero hoff
      rw [advanceExtreme_long price hpos (h.side_eq ▸ hside),
        advanceExtreme_long price (hoffset ▸ hpos) hside]
      omega
  case short =>
    intro hopen hside
    change p.side ≠ sideLong at hside
    have hle := h.short hopen hside
    have hsideQ : q.side ≠ sideLong := h.side_eq ▸ hside
    change (q.advanceExtreme price).toNat ≤ (p.advanceExtreme price).toNat
    by_cases hoff : q.trailingOffset.toNat = 0
    · rwa [advanceExtreme_of_off price hoff, advanceExtreme_of_off price (hoffset.trans hoff)]
    · have hpos := Nat.pos_of_ne_zero hoff
      rw [advanceExtreme_short price hpos hsideQ (hq.extreme_short hsideQ).1,
        advanceExtreme_short price (hoffset ▸ hpos) hside (hp.extreme_short hside).1]
      omega

/-- A price at which trailing is hit does not move the extreme. -/
theorem advanceExtreme_of_trailingHit {now : Int64}
    (h : (q.observe price now).TrailingHit price) :
    q.advanceExtreme price = q.trailingExtreme := by
  rcases h with ⟨hoff, hhit⟩
  change 0 < q.trailingOffset.toNat at hoff
  have hpos : q.trailingOffset > 0 := UInt64.lt_iff_toNat_lt.mpr hoff
  by_cases hside : q.side = sideLong
  · have hsame : (q.observe price now).side = sideLong := hside
    rw [if_pos hsame] at hhit
    change price.toNat + q.trailingOffset.toNat ≤ (q.advanceExtreme price).toNat at hhit
    have hmax := advanceExtreme_long price hoff hside
    rw [← UInt64.toNat_inj]
    omega
  · have hsame : (q.observe price now).side ≠ sideLong := hside
    rw [if_neg hsame] at hhit
    change (q.advanceExtreme price).toNat + q.trailingOffset.toNat ≤ price.toNat at hhit
    simp only [Position.advanceExtreme, hpos, hside, ↓reduceIte] at hhit ⊢
    split
    · rename_i hdown
      rw [if_pos hdown] at hhit
      omega
    · rfl

/-- The record that lags may see that price alone. -/
theorem Ahead.observe_left (h : Ahead p q) (hp : p.Sound) (hq : q.Sound) {now : Int64}
    (hhit : (q.observe price now).TrailingHit price) : Ahead (p.observe price now) q := by
  have hboth := h.observe hp hq price now
  have hsame : (q.observe price now).trailingExtreme = q.trailingExtreme :=
    advanceExtreme_of_trailingHit hhit
  constructor
  case same =>
    rcases h.same with ⟨_, _, _, rfl⟩
    exact ⟨_, _, _, rfl⟩
  case long =>
    intro hopen hside
    have hle := hboth.long hopen hside
    rwa [hsame] at hle
  case short =>
    intro hopen hside
    have hle := hboth.short hopen hside
    rwa [hsame] at hle

/-- A closed record has nowhere to move. -/
theorem Ahead.of_closed (hsame : ∃ lastTickAt tickCount trailingExtreme,
      p = { q with
        lastTickAt := lastTickAt, tickCount := tickCount, trailingExtreme := trailingExtreme })
    (hclosed : p.status ≠ statusOpen) : Ahead p q :=
  ⟨hsame, fun hopen => absurd hopen hclosed, fun hopen => absurd hopen hclosed⟩

theorem Ahead.settled (h : Ahead p q) (trigger : UInt8) (now : Int64) :
    Ahead (p.settled trigger now) (q.settled trigger now) := by
  have hclosed : statusTriggered ≠ statusOpen := by decide
  rcases h.same with ⟨_, _, _, rfl⟩
  exact .of_closed ⟨_, _, _, rfl⟩ hclosed

theorem Ahead.cancelled (h : Ahead p q) (now : Int64) :
    Ahead (p.cancelled now) (q.cancelled now) := by
  have hclosed : statusCancelled ≠ statusOpen := by decide
  rcases h.same with ⟨_, _, _, rfl⟩
  exact .of_closed ⟨_, _, _, rfl⟩ hclosed

/-- A changed offset restarts both extremes at the one entry price. -/
theorem Ahead.retarget (h : Ahead p q) (stopPrice takeProfitPrice trailingOffset : UInt64) :
    Ahead (p.retarget stopPrice takeProfitPrice trailingOffset)
      (q.retarget stopPrice takeProfitPrice trailingOffset) := by
  rcases h with ⟨⟨a, b, c, rfl⟩, hlong, hshort⟩
  by_cases hsame : trailingOffset = q.trailingOffset
  · subst hsame
    simp only [Position.retarget, ne_eq, not_true_eq_false, ↓reduceIte]
    exact ⟨⟨a, b, c, rfl⟩, hlong, hshort⟩
  · simp only [Position.retarget, ne_eq, hsame, not_false_eq_true, ↓reduceIte]
    exact ⟨⟨a, b, q.entryPrice, rfl⟩, fun _ _ => Nat.le_refl _, fun _ _ => Nat.le_refl _⟩

theorem Ahead.delegate (h : Ahead p q) (flag : UInt8) :
    Ahead { p with erDelegated := flag } { q with erDelegated := flag } := by
  rcases h with ⟨⟨a, b, c, rfl⟩, hlong, hshort⟩
  exact ⟨⟨a, b, c, rfl⟩, hlong, hshort⟩

/-! #### What they make of a price -/

theorem Ahead.stopHit_iff (h : Ahead p q) : p.StopHit price ↔ q.StopHit price := by
  rcases h.same with ⟨_, _, _, rfl⟩
  exact Iff.rfl

theorem Ahead.takeProfitHit_iff (h : Ahead p q) :
    p.TakeProfitHit price ↔ q.TakeProfitHit price := by
  rcases h.same with ⟨_, _, _, rfl⟩
  exact Iff.rfl

theorem Ahead.trailingHit (h : Ahead p q) (hopen : p.status = statusOpen)
    (hhit : p.TrailingHit price) : q.TrailingHit price := by
  rcases hhit with ⟨hoff, hhit⟩
  rw [h.offset_eq] at hoff hhit
  refine ⟨hoff, ?_⟩
  by_cases hside : p.side = sideLong
  · have hle := h.long hopen hside
    rw [if_pos hside] at hhit
    rw [if_pos (h.side_eq ▸ hside)]
    omega
  · have hle := h.short hopen hside
    rw [if_neg hside] at hhit
    rw [if_neg (h.side_eq ▸ hside)]
    omega

theorem Ahead.outOfRange (h : Ahead p q) (hopen : p.status = statusOpen)
    (hout : q.ThresholdOutOfRange) : p.ThresholdOutOfRange := by
  rcases hout with ⟨hoff, hout⟩
  rw [← h.offset_eq] at hoff hout
  refine ⟨hoff, ?_⟩
  by_cases hside : p.side = sideLong
  · have hle := h.long hopen hside
    rw [if_pos (h.side_eq ▸ hside)] at hout
    rw [if_pos hside]
    omega
  · have hle := h.short hopen hside
    rw [if_neg (h.side_eq ▸ hside)] at hout
    rw [if_neg hside]
    omega

/-- Where the record ahead gets stuck, the other one does too. -/
theorem Ahead.stuck (h : Ahead p q) (hopen : p.status = statusOpen) (hstuck : q.Stuck price) :
    p.Stuck price :=
  ⟨h.stopHit_iff.not.mpr hstuck.1, h.takeProfitHit_iff.not.mpr hstuck.2.1,
    h.outOfRange hopen hstuck.2.2⟩

/-- Where the record behind fires, the other one does too, for the same reason. -/
theorem Ahead.firstHit_eq (h : Ahead p q) (hopen : p.status = statusOpen)
    (hfires : p.firstHit price ≠ triggerNone) : q.firstHit price = p.firstHit price := by
  unfold Position.firstHit at hfires ⊢
  by_cases hstop : p.StopHit price
  · rw [if_pos hstop, if_pos (h.stopHit_iff.mp hstop)]
  · by_cases htake : p.TakeProfitHit price
    · rw [if_neg hstop, if_neg (h.stopHit_iff.not.mp hstop), if_pos htake,
        if_pos (h.takeProfitHit_iff.mp htake)]
    · rw [if_neg hstop, if_neg htake] at hfires ⊢
      rw [if_neg (h.stopHit_iff.not.mp hstop), if_neg (h.takeProfitHit_iff.not.mp htake)]
      by_cases htrail : p.TrailingHit price
      · rw [if_pos htrail, if_pos (h.trailingHit hopen htrail)]
      · rw [if_neg htrail] at hfires
        exact absurd rfl hfires

/-- Where only the record ahead fires, it is for trailing. -/
theorem Ahead.trailing_of_first (h : Ahead p q) (hquiet : p.firstHit price = triggerNone)
    (hfires : q.firstHit price ≠ triggerNone) : q.TrailingHit price := by
  rcases firstHit_eq_none_iff.mp hquiet with ⟨hstop, htake, -⟩
  by_contra htrail
  apply hfires
  exact firstHit_eq_none_iff.mpr
    ⟨h.stopHit_iff.not.mp hstop, h.takeProfitHit_iff.not.mp htake, htrail⟩

end Records

/-! ### The owner's instructions on the position -/

section Owner

variable {key : Pubkey} {w v : World} {rt : Runtime} {tx : Tx}

theorem updateTriggersHandler_ahead {p q : Position} (h : Ahead p q)
    (stopPrice takeProfitPrice trailingOffset : UInt64) :
    Coupled Ahead (updateTriggersHandler p stopPrice takeProfitPrice trailingOffset)
      (updateTriggersHandler q stopPrice takeProfitPrice trailingOffset) := by
  have hretarget := h.retarget stopPrice takeProfitPrice trailingOffset
  rcases h.same with ⟨_, _, _, rfl⟩
  unfold updateTriggersHandler
  apply Coupled.same_guard
  apply Coupled.same_guard
  exact .pure hretarget

theorem Ahead.sameDeposit (p q : Position) (h : Ahead p q) : SameDeposit p q := by
  rcases h.same with ⟨_, _, _, rfl⟩
  exact ⟨⟨rfl, rfl, rfl, rfl⟩, rfl, rfl⟩

theorem Ahead.mark_eq (p q : Position) (h : Ahead p q) : q.erDelegated = p.erDelegated := by
  rcases h.same with ⟨_, _, _, rfl⟩
  rfl

theorem updateTriggers_ahead (h : AlikeBut Ahead key w v) {accs : UpdateTriggers}
    (hkey : accs.position = key) (stopPrice takeProfitPrice trailingOffset : UInt64) :
    Coupled (AlikeBut Ahead key)
      (updateTriggers rt w tx accs stopPrice takeProfitPrice trailingOffset)
      (updateTriggers rt v tx accs stopPrice takeProfitPrice trailingOffset) := by
  subst hkey
  apply updateTriggers_coupled (fun p q hpq => (hpq.sameDeposit p q).toSameAccount)
    (h.loadPosition Ahead.refl)
  · intro p q hpq
    exact updateTriggersHandler_ahead hpq _ _ _
  · intro p q hpq
    exact (h.store_position hpq).emit _ _

theorem cancelPosition_ahead (h : AlikeBut Ahead key w v) {accs : CancelPosition}
    (hkey : accs.position = key) :
    Coupled (AlikeBut Ahead key) (cancelPosition rt w tx accs) (cancelPosition rt v tx accs) := by
  subst hkey
  apply cancelPosition_coupled (.eq rt tx _) h.lamports.symm Ahead.sameDeposit
    (h.loadConfig _) (h.loadPosition Ahead.refl)
  rintro config p q lamports _ hpq rfl
  exact (((h.withLamports _).store_position (hpq.cancelled _)).store _ _).emit _ _

theorem delegatePosition_ahead (h : AlikeBut Ahead key w v) {accs : DelegatePosition}
    (hkey : accs.position = key) :
    Coupled (AlikeBut Ahead key) (delegatePosition rt w tx accs)
      (delegatePosition rt v tx accs) := by
  subst hkey
  apply delegatePosition_coupled (.eq rt tx _) h.lamports.symm Ahead.sameDeposit Ahead.mark_eq
    (h.loadPosition Ahead.refl)
  rintro p q lamports _ hpq rfl
  exact ((h.withLamports _).store_position (hpq.delegate 1)).emit _ _

theorem undelegatePosition_ahead (h : AlikeBut Ahead key w v) {accs : UndelegatePosition}
    (hkey : accs.position = key) :
    Coupled (AlikeBut Ahead key) (undelegatePosition rt w tx accs)
      (undelegatePosition rt v tx accs) := by
  subst hkey
  apply undelegatePosition_coupled (.eq rt tx _) h.lamports.symm Ahead.sameDeposit
    Ahead.mark_eq (h.loadPosition Ahead.refl)
  rintro p q lamports _ hpq rfl
  exact ((h.withLamports _).store_position (hpq.delegate 0)).emit _ _

end Owner

/-! ### One tick, seen from both -/

def TriggeredAt (key : Pubkey) (w : World) : Prop :=
  ∃ position, w.positions key = some position ∧ position.status = statusTriggered

/-- The outcomes of one tick in two worlds: `v` is still ahead, or has settled first. -/
inductive TickPair (key : Pubkey) (w v : World) :
    Except ProgramError World → Except ProgramError World → Prop where
  | both {w' v'} (h : AlikeBut Ahead key w' v') : TickPair key w v (.ok w') (.ok v')
  | neither {e e'} : TickPair key w v (.error e) (.error e')
  | left {w' e} (h : AlikeBut Ahead key w' v) : TickPair key w v (.ok w') (.error e)
  | right {v' e} (h : AlikeBut Ahead key w v') : TickPair key w v (.error e) (.ok v')
  | first {w' v'} (hw : ¬ TriggeredAt key w') (hv : TriggeredAt key v') :
      TickPair key w v (.ok w') (.ok v')
  | alone {v' e} (hw : ¬ TriggeredAt key w) (hv : TriggeredAt key v') :
      TickPair key w v (.error e) (.ok v')

theorem TickPair.of_coupled {key : Pubkey} {w v : World} {x y : Except ProgramError World}
    (h : Coupled (AlikeBut Ahead key) x y) : TickPair key w v x y := by
  cases h with
  | ok halike => exact .both halike
  | error e => exact .neither

theorem not_triggeredAt_of_open {key : Pubkey} {w : World} {position : Position}
    (hposition : w.positions key = some position) (hopen : position.status = statusOpen) :
    ¬ TriggeredAt key w := by
  rintro ⟨other, hother, htriggered⟩
  obtain rfl := Option.some.inj (hposition.symm.trans hother)
  rw [hopen] at htriggered
  exact absurd htriggered (by decide)

theorem accounts_of_position {key : Pubkey} {w : World} {position : Position}
    (h : w.positions key = some position) : w.accounts key = some (.position position) := by
  unfold World.positions at h
  split at h
  · rename_i stored haccount
    rw [haccount, Option.some.inj h]
  · contradiction

section Tick

variable {w v : World} {rt : Runtime} {tx : Tx} {accs : TickPosition}

/-- Both settle the same collateral from the same balances. -/
theorem settlePosition_ahead (h : AlikeBut Ahead accs.position w v) {p q : Position}
    (hpq : Ahead p q) (config : Config) (price : UInt64) (trigger : UInt8) :
    Coupled (AlikeBut Ahead accs.position) (settlePosition w tx accs config p price trigger)
      (settlePosition v tx accs config q price trigger) := by
  apply settlePosition_coupled (hpq.sameDeposit p q).collateral
  · intro payout
    exact coupled_eq (by rw [h.lamports])
  · rintro payout lamports _ rfl
    have hsettled := hpq.settled trigger tx.unixTimestamp
    exact (((h.withLamports _).store_position hsettled).store _ _).emit _ _

/-- A settlement that goes through closes the position. -/
theorem triggeredAt_of_settled {config : Config} {position : Position} {price : UInt64}
    {trigger : UInt8} {w' : World} (hconfig : w.configs accs.config = some config)
    (hposition : (w.positions accs.position).isSome)
    (h : settlePosition w tx accs config position price trigger = .ok w') :
    TriggeredAt accs.position w' := by
  rcases settlePosition_eq_ok h with ⟨payout, lamports, -, -, rfl⟩
  rcases Option.isSome_iff_exists.mp hposition with ⟨loaded, hloaded⟩
  obtain ⟨hnoConfig, hnoFeed⟩ := World.views_of_position hloaded
  obtain ⟨-, -, hpositions⟩ := @views_store_position_config (w.withLamports lamports)
    accs.position accs.config (position.settled trigger tx.unixTimestamp) config
    (config.countTriggered payout) hnoConfig hnoFeed hconfig
  refine ⟨position.settled trigger tx.unixTimestamp, ?_, rfl⟩
  rw [World.emit_positions, hpositions, Function.update_self]

theorem not_triggeredAt_recordTick {position : Position} (hopen : position.status = statusOpen)
    (price : UInt64) : ¬ TriggeredAt accs.position (recordTick w accs position price) := by
  apply not_triggeredAt_of_open _ hopen
  rw [recordTick, World.positions_written]

/-- What the extra tick, or the shared one, does to the record ahead alone. -/
theorem tickPosition_right (h : AlikeBut Ahead accs.position w v) {config : Config}
    {feed : PriceFeed} {p q : Position} (hp : w.positions accs.position = some p)
    (haccs : TickAccounts accs rt v tx config feed q) (hpq : Ahead p q) (hq : q.Sound)
    (hguards : tickPrice q feed tx.unixTimestamp = .ok feed.price) :
    (∃ e, tickPosition rt v tx accs = .error e) ∨
      (∃ v', tickPosition rt v tx accs = .ok v' ∧ AlikeBut Ahead accs.position w v') ∨
      ∃ v', tickPosition rt v tx accs = .ok v' ∧ TriggeredAt accs.position v' := by
  by_cases hstuck : (q.observe feed.price tx.unixTimestamp).Stuck feed.price
  · exact Or.inl ⟨_, tickPosition_of_stuck haccs hguards hstuck⟩
  · by_cases hquiet :
        (q.observe feed.price tx.unixTimestamp).firstHit feed.price = triggerNone
    · refine Or.inr (Or.inl ⟨_, tickPosition_of_quiet haccs hguards hstuck hquiet, ?_⟩)
      have hfurther := hpq.observe_right hq feed.price tx.unixTimestamp
      exact (h.store_right (accounts_of_position hp) hfurther).emit_right _
    · have hsettle := tickPosition_of_fires haccs hguards hstuck hquiet
      rcases ok_or_error (tickPosition rt v tx accs) with ⟨v', hok⟩ | herror
      · refine Or.inr (Or.inr ⟨v', hok, ?_⟩)
        rw [hsettle] at hok
        apply triggeredAt_of_settled haccs.config_loaded _ hok
        rw [haccs.position_loaded, Option.isSome_some]
      · exact Or.inl herror

section Pair

variable {config : Config} {feed : PriceFeed} {p q : Position}

/-- The record behind meets no condition; the one ahead may. -/
theorem tickPosition_pair_of_quiet (h : AlikeBut Ahead accs.position w v)
    (haccs : TickAccounts accs rt w tx config feed p)
    (haccs' : TickAccounts accs rt v tx config feed q) (hpq : Ahead p q) (hp : p.Sound)
    (hq : q.Sound) (hguard : tickPrice p feed tx.unixTimestamp = .ok feed.price)
    (hguard' : tickPrice q feed tx.unixTimestamp = .ok feed.price)
    (hstuck : ¬ (p.observe feed.price tx.unixTimestamp).Stuck feed.price)
    (hstuck' : ¬ (q.observe feed.price tx.unixTimestamp).Stuck feed.price)
    (hquiet : (p.observe feed.price tx.unixTimestamp).firstHit feed.price = triggerNone) :
    TickPair accs.position w v (tickPosition rt w tx accs) (tickPosition rt v tx accs) := by
  have hobserved := hpq.observe hp hq feed.price tx.unixTimestamp
  rw [tickPosition_of_quiet haccs hguard hstuck hquiet]
  by_cases hquiet' : (q.observe feed.price tx.unixTimestamp).firstHit feed.price = triggerNone
  · rw [tickPosition_of_quiet haccs' hguard' hstuck' hquiet']
    exact .both ((h.store_position hobserved).emit _ _)
  · have hsettle := tickPosition_of_fires haccs' hguard' hstuck' hquiet'
    rcases ok_or_error (tickPosition rt v tx accs) with ⟨v', hok⟩ | ⟨e, herror⟩
    · rw [hok]
      rw [hsettle] at hok
      apply TickPair.first
      · have hopen : (p.observe feed.price tx.unixTimestamp).status = statusOpen :=
          (tickPrice_eq_ok_iff.mp hguard).1
        exact not_triggeredAt_recordTick hopen feed.price
      · apply triggeredAt_of_settled haccs'.config_loaded _ hok
        rw [haccs'.position_loaded, Option.isSome_some]
    · rw [herror]
      have hhit := hobserved.trailing_of_first hquiet hquiet'
      have hlag := hpq.observe_left hp hq hhit
      exact .left ((h.store_left (accounts_of_position haccs'.position_loaded) hlag).emit_left _)

theorem tickPosition_pair_of_guards (h : AlikeBut Ahead accs.position w v)
    (haccs : TickAccounts accs rt w tx config feed p)
    (haccs' : TickAccounts accs rt v tx config feed q) (hpq : Ahead p q) (hp : p.Sound)
    (hq : q.Sound) (hguard : tickPrice p feed tx.unixTimestamp = .ok feed.price)
    (hguard' : tickPrice q feed tx.unixTimestamp = .ok feed.price) :
    TickPair accs.position w v (tickPosition rt w tx accs) (tickPosition rt v tx accs) := by
  have hopen := (tickPrice_eq_ok_iff.mp hguard).1
  have hobserved := hpq.observe hp hq feed.price tx.unixTimestamp
  by_cases hstuck : (p.observe feed.price tx.unixTimestamp).Stuck feed.price
  · rw [tickPosition_of_stuck haccs hguard hstuck]
    rcases tickPosition_right h haccs.position_loaded haccs' hpq hq hguard' with
      ⟨e', hright'⟩ | ⟨v', hright', halike⟩ | ⟨v', hright', hfired⟩
    · rw [hright']
      exact .neither
    · rw [hright']
      exact .right halike
    · rw [hright']
      exact .alone (not_triggeredAt_of_open haccs.position_loaded hopen) hfired
  · have hstuck' : ¬ (q.observe feed.price tx.unixTimestamp).Stuck feed.price :=
      fun hs => hstuck (hobserved.stuck hopen hs)
    by_cases hquiet : (p.observe feed.price tx.unixTimestamp).firstHit feed.price = triggerNone
    · exact tickPosition_pair_of_quiet h haccs haccs' hpq hp hq hguard hguard' hstuck hstuck'
        hquiet
    · have hreason := hobserved.firstHit_eq hopen hquiet
      have hfires' : (q.observe feed.price tx.unixTimestamp).firstHit feed.price ≠
          triggerNone := by rwa [hreason]
      rw [tickPosition_of_fires haccs hguard hstuck hquiet,
        tickPosition_of_fires haccs' hguard' hstuck' hfires', hreason]
      exact .of_coupled (settlePosition_ahead h hobserved config _ _)

end Pair

theorem tickPosition_pair (h : AlikeBut Ahead accs.position w v) (hw : Invariant rt w)
    (hv : Invariant rt v) :
    TickPair accs.position w v (tickPosition rt w tx accs) (tickPosition rt v tx accs) := by
  have htry := tickPosition_tryAccounts_coupled rt tx SameKeys.of_eq
    (fun p q hpq => (Ahead.sameDeposit p q hpq).toSameAccount)
    (coupled_eq (h.loadConfig accs.config)) (coupled_eq (h.loadPriceFeed accs.feed))
    (h.loadPosition Ahead.refl)
  cases hleft : accs.tryAccounts rt w tx with
  | error e =>
      rw [hleft] at htry
      simp only [tickPosition, hleft, htry.of_error, error_bind]
      exact .neither
  | ok found =>
      rw [hleft] at htry
      rcases found with ⟨config, feed, p⟩
      rcases htry.of_ok with ⟨⟨config', feed', q⟩, hright, hconfig, hfeed, -, hpq⟩
      dsimp only at hconfig hfeed hpq
      rw [← hconfig, ← hfeed] at hright
      have haccs := tickPosition_tryAccounts_eq_ok_iff.mp hleft
      have haccs' := tickPosition_tryAccounts_eq_ok_iff.mp hright
      have hp := (hw.positions _ _ haccs.position_loaded).shape
      have hq := (hv.positions _ _ haccs'.position_loaded).shape
      have hsame : tickPrice q feed tx.unixTimestamp = tickPrice p feed tx.unixTimestamp := by
        rcases hpq.same with ⟨_, _, _, rfl⟩
        rfl
      cases hguard : tickPrice p feed tx.unixTimestamp with
      | error e =>
          rw [hguard] at hsame
          simp only [tickPosition, hleft, hright, ok_bind, hguard, hsame, error_bind]
          exact .neither
      | ok price =>
          obtain rfl := (tickPrice_eq_ok_iff.mp hguard).2.2.2
          rw [hguard] at hsame
          exact tickPosition_pair_of_guards h haccs haccs' hpq hp hq hguard hsame

end Tick

theorem AlikeBut.position_ahead {key : Pubkey} {w v : World} {p : Position}
    (h : AlikeBut Ahead key w v) (hp : w.positions key = some p) :
    ∃ q, v.positions key = some q ∧ Ahead p q := by
  have hloaded := accounts_of_position hp
  rcases h.at_cases with hsame | ⟨p', q, hp', hq, hpq⟩
  · refine ⟨p, ?_, Ahead.refl p⟩
    rw [World.positions, hsame, hloaded]
  · rw [hloaded] at hp'
    obtain rfl := ProgramAccount.position.inj (Option.some.inj hp')
    refine ⟨q, ?_, hpq⟩
    rw [World.positions, hq]

/-! ### Two runs -/

/-- `bs` is `as` with more ticks of the position at `key`, at any points. -/
inductive ExtraTicks (key : Pubkey) : List Action → List Action → Prop where
  | nil : ExtraTicks key [] []
  | both {as bs} (action : Action) (h : ExtraTicks key as bs) :
      ExtraTicks key (action :: as) (action :: bs)
  | extra {as bs} (tx : Tx) (accs : TickPosition) (hkey : accs.position = key)
      (h : ExtraTicks key as bs) :
      ExtraTicks key as (.invoke tx (.tickPosition accs) :: bs)

section Steps

variable {key : Pubkey} {w v : World} {rt : Runtime}

theorem attempt_of_pass {tx : Tx} {ix : Instruction}
    (h : tx.authentic rt = true ∧ tx.precompilesPass rt = true) :
    attempt rt w (.invoke tx ix) = execute rt w tx ix := by
  simp only [attempt, require_of_holds _ h.1, require_of_holds _ h.2, ok_bind]

theorem step_of_not_pass {tx : Tx} {ix : Instruction}
    (h : ¬ (tx.authentic rt = true ∧ tx.precompilesPass rt = true)) :
    step rt w (.invoke tx ix) = w := by
  rcases ok_or_error (attempt rt w (.invoke tx ix)) with ⟨w', hok⟩ | ⟨e, herror⟩
  · rcases attempt_invoke_eq_ok_iff.mp hok with ⟨htx, hpre, -⟩
    exact absurd ⟨htx, hpre⟩ h
  · exact step_of_error herror

theorem TickPair.step {tx : Tx} {accs : TickPosition} (halike : AlikeBut Ahead key w v)
    (h : TickPair key w v (attempt rt w (.invoke tx (.tickPosition accs)))
      (attempt rt v (.invoke tx (.tickPosition accs)))) :
    AlikeBut Ahead key (step rt w (.invoke tx (.tickPosition accs)))
        (step rt v (.invoke tx (.tickPosition accs))) ∨
      TriggeredAt key (step rt v (.invoke tx (.tickPosition accs))) ∧
        ¬ TriggeredAt key (step rt w (.invoke tx (.tickPosition accs))) := by
  unfold Hwal.step
  generalize attempt rt w (.invoke tx (.tickPosition accs)) = outcome at h ⊢
  generalize attempt rt v (.invoke tx (.tickPosition accs)) = outcome' at h ⊢
  cases h with
  | both h => exact Or.inl h
  | neither => exact Or.inl halike
  | left h => exact Or.inl h
  | right h => exact Or.inl h
  | first hw hv => exact Or.inr ⟨hv, hw⟩
  | alone hw hv => exact Or.inr ⟨hv, hw⟩

/-- An action both runs take keeps the second one ahead, or settles it alone. -/
theorem shared_step (h : AlikeBut Ahead key w v) (hw : Reachable rt w) (hv : Reachable rt v)
    (action : Action) :
    AlikeBut Ahead key (step rt w action) (step rt v action) ∨
      TriggeredAt key (step rt v action) ∧ ¬ TriggeredAt key (step rt w action) := by
  cases action with
  | transfer src dst amount => exact Or.inl (step_of_coupled h (transfer_alike h src dst amount))
  | invoke tx ix =>
      by_cases hpass : tx.authentic rt = true ∧ tx.precompilesPass rt = true
      · have hcoupled (hexec : Coupled (AlikeBut Ahead key) (execute rt w tx ix)
            (execute rt v tx ix)) :
            AlikeBut Ahead key (step rt w (.invoke tx ix)) (step rt v (.invoke tx ix)) := by
          apply step_of_coupled h
          rw [attempt_of_pass hpass, attempt_of_pass hpass]
          exact hexec
        by_cases hix : ix.ActsOn key
        · cases ix with
          | tickPosition accs =>
              subst hix
              apply TickPair.step h
              rw [attempt_of_pass hpass, attempt_of_pass hpass]
              exact tickPosition_pair h (reachable_invariant hw) (reachable_invariant hv)
          | updateTriggers accs => exact Or.inl (hcoupled (updateTriggers_ahead h hix _ _ _))
          | cancelPosition accs => exact Or.inl (hcoupled (cancelPosition_ahead h hix))
          | delegatePosition accs => exact Or.inl (hcoupled (delegatePosition_ahead h hix))
          | undelegatePosition accs => exact Or.inl (hcoupled (undelegatePosition_ahead h hix))
          | initializeConfig => exact hix.elim
          | updateConfig => exact hix.elim
          | initializePriceFeed => exact hix.elim
          | updatePriceFeed => exact hix.elim
          | openPosition => exact hix.elim
          | registerLazerFeed => exact hix.elim
          | updatePriceFeedFromLazer => exact hix.elim
        · exact Or.inl (hcoupled (execute_alike h hix))
      · rw [step_of_not_pass hpass, step_of_not_pass hpass]
        exact Or.inl h

/-- An extra tick keeps the second run ahead, or settles it. -/
theorem extra_step (h : AlikeBut Ahead key w v) (hv : Reachable rt v) (tx : Tx)
    {accs : TickPosition} (hkey : accs.position = key) :
    AlikeBut Ahead key w (step rt v (.invoke tx (.tickPosition accs))) ∨
      TriggeredAt key (step rt v (.invoke tx (.tickPosition accs))) := by
  subst hkey
  rcases ok_or_error (attempt rt v (.invoke tx (.tickPosition accs))) with ⟨v', hok⟩ | ⟨e, herror⟩
  · rw [step_of_ok hok]
    rcases attempt_invoke_eq_ok_iff.mp hok with ⟨-, -, hexec⟩
    change tickPosition rt v tx accs = .ok v' at hexec
    rcases tick_written_of_ok hexec with ⟨config, feed, q, heval, -⟩
    have hq := ((reachable_invariant hv).positions _ _ heval.accounts.position_loaded).shape
    have hright (p : Position) (hp : w.positions accs.position = some p) (hpq : Ahead p q) :
        AlikeBut Ahead accs.position w v' ∨ TriggeredAt accs.position v' := by
      rcases tickPosition_right h hp heval.accounts hpq hq heval.guards with
        ⟨e, herror⟩ | ⟨v'', hok', halike⟩ | ⟨v'', hok', hfired⟩
      · rw [hexec] at herror
        contradiction
      · rw [hexec] at hok'
        obtain rfl := Except.ok.inj hok'
        exact Or.inl halike
      · rw [hexec] at hok'
        obtain rfl := Except.ok.inj hok'
        exact Or.inr hfired
    have hloaded := accounts_of_position heval.accounts.position_loaded
    rcases h.at_cases with hsame | ⟨p, other, hp, hother, hpq⟩
    · apply hright q _ (Ahead.refl q)
      rw [World.positions, ← hsame, hloaded]
    · rw [hloaded] at hother
      obtain rfl := ProgramAccount.position.inj (Option.some.inj hother)
      apply hright p _ hpq
      rw [World.positions, hp]
  · rw [step_of_error herror]
    exact Or.inl h

theorem triggeredAt_run (h : TriggeredAt key v) (later : List Action) :
    TriggeredAt key (runFrom rt v later) := by
  rcases h with ⟨position, hposition, htriggered⟩
  have hclosed : position.status ≠ statusOpen := by
    rw [htriggered]
    decide
  exact ⟨position, closed_run hposition hclosed later, htriggered⟩

/-- At the end of two such runs the one with the extra ticks is ahead, or has settled. -/
theorem ahead_of_run {as bs : List Action} (hext : ExtraTicks key as bs)
    (h : AlikeBut Ahead key w v) (hw : Reachable rt w) (hv : Reachable rt v) :
    AlikeBut Ahead key (runFrom rt w as) (runFrom rt v bs) ∨
      TriggeredAt key (runFrom rt v bs) := by
  induction hext generalizing w v with
  | nil => exact Or.inl h
  | @both as bs action hrest ih =>
      rcases shared_step h hw hv action with halike | ⟨hfired, -⟩
      · exact ih halike (hw.run [action]) (hv.run [action])
      · exact Or.inr (triggeredAt_run hfired bs)
  | @extra as bs tx accs hkey hrest ih =>
      rcases extra_step h hv tx hkey with halike | hfired
      · exact ih halike hw (hv.run [.invoke tx (.tickPosition accs)])
      · exact Or.inr (triggeredAt_run hfired bs)

end Steps

/-- From any reachable state: where the run without the extra ticks has settled, the run
with them has too; if one more shared action settles both, it is for the same reason; and
while both are open, the extreme of the run with the extra ticks is at least as far. -/
theorem extra_ticks_never_delay {rt : Runtime} {w : World} (h : Reachable rt w) {key : Pubkey}
    {as bs : List Action} (hext : ExtraTicks key as bs) :
    (TriggeredAt key (runFrom rt w as) → TriggeredAt key (runFrom rt w bs)) ∧
    (∀ action p q, ¬ TriggeredAt key (runFrom rt w bs) →
      (step rt (runFrom rt w as) action).positions key = some p →
      (step rt (runFrom rt w bs) action).positions key = some q →
      p.status = statusTriggered → q.status = statusTriggered →
      q.triggerReason = p.triggerReason) ∧
    ∀ p q, (runFrom rt w as).positions key = some p → (runFrom rt w bs).positions key = some q →
      p.status = statusOpen → q.status = statusOpen → 0 < p.trailingOffset →
      q.trailingOffset = p.trailingOffset ∧
      (p.side = sideLong → p.trailingExtreme ≤ q.trailingExtreme) ∧
      (p.side = sideShort → q.trailingExtreme ≤ p.trailingExtreme) := by
  have hahead := ahead_of_run hext (AlikeBut.refl Ahead key w) h h
  refine ⟨?_, ?_, ?_⟩
  · rintro ⟨p, hp, htriggered⟩
    rcases hahead with halike | hfired
    · rcases halike.position_ahead hp with ⟨q, hq, hpq⟩
      exact ⟨q, hq, hpq.status_eq ▸ htriggered⟩
    · exact hfired
  · intro action p q hnot hp hq hpStatus hqStatus
    rcases hahead with halike | hfired
    · rcases shared_step halike (h.run as) (h.run bs) action with hafter | ⟨-, hbehind⟩
      · rcases hafter.position_ahead hp with ⟨q', hq', hpq⟩
        obtain rfl := Option.some.inj (hq'.symm.trans hq)
        exact hpq.reason_eq.symm
      · exact absurd ⟨p, hp, hpStatus⟩ hbehind
    · exact absurd hfired hnot
  · intro p q hp hq hpOpen hqOpen hoff
    rcases hahead with halike | hfired
    · rcases halike.position_ahead hp with ⟨q', hq', hpq⟩
      obtain rfl := Option.some.inj (hq'.symm.trans hq)
      refine ⟨hpq.offset_eq.symm, fun hside => ?_, fun hside => ?_⟩
      · exact UInt64.le_iff_toNat_le.mpr (hpq.long hpOpen hside)
      · have hne : p.side ≠ sideLong := by
          rw [hside]
          decide
        exact UInt64.le_iff_toNat_le.mpr (hpq.short hpOpen hne)
    · exact absurd hfired (not_triggeredAt_of_open hq hqOpen)

section Localnet

open Localnet

/-- Alice follows the price at a distance of 5000000. -/
def trailing : List Action :=
  launch ++ [.invoke (tx alice 1003)
    (.openPosition ⟨alice, config, feed, position, systemProgramId⟩
      ⟨1, 0, 50000000, 0, 0, 5000000⟩)]

/-- Rise to 120000000, then fall; the peak itself is not ticked. -/
def fewTicks : List Action :=
  [push 120000000 1004, push 116000000 1006, tick feeReceiver 1007, push 110000000 1008,
    tick feeReceiver 1009]

/-- The same, with a tick at the peak. -/
def moreTicks : List Action :=
  [push 120000000 1004, tick feeReceiver 1005, push 116000000 1006, tick feeReceiver 1007,
    push 110000000 1008, tick feeReceiver 1009]

theorem moreTicks_extra : ExtraTicks position fewTicks moreTicks :=
  .both _ (.extra _ _ rfl (.both _ (.both _ (.both _ (.both _ .nil)))))

/-- The run with fewer ticks ends triggered, so the other one does. -/
theorem moreTicks_triggered :
    TriggeredAt position
      (runFrom cluster (runFrom cluster (World.genesis funds) trailing) moreTicks) := by
  have hreach : Reachable cluster (runFrom cluster (World.genesis funds) trailing) :=
    ⟨funds, trailing, rfl⟩
  have hfew : ((runFrom cluster (runFrom cluster (World.genesis funds) trailing)
      fewTicks).positions position).map Position.status = some statusTriggered := by
    decide +kernel
  exact (extra_ticks_never_delay hreach moreTicks_extra).1 (Option.map_eq_some_iff.mp hfew)

end Localnet

end Hwal
