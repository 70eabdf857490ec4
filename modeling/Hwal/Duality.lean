/-
A short position is a long one seen in a mirror: opened, retargeted and ticked at the
mirrored prices it fires when the long one does and for the same reason.
-/
import Hwal.PositionMachine

namespace Hwal

open Guard

/-- The price on the other side of the mirror; a disabled trigger stays 0. -/
def mirrored (m price : UInt64) : UInt64 := if price = 0 then 0 else m - price

/-- A trigger a mirror at `m` can show: off, or strictly between 0 and `m`. -/
def Mirrorable (m price : UInt64) : Prop := price = 0 ∨ price < m

/-- Both off, or the two add up. -/
def Reflected (m price price' : UInt64) : Prop :=
  price.toNat = 0 ∧ price'.toNat = 0 ∨
    0 < price.toNat ∧ 0 < price'.toNat ∧ price.toNat + price'.toNat = m.toNat

theorem reflected_mirrored {m price : UInt64} (h : Mirrorable m price) :
    Reflected m price (mirrored m price) := by
  by_cases hoff : price = 0
  · left
    subst hoff
    exact ⟨rfl, rfl⟩
  · right
    have hlt : price < m := h.resolve_left hoff
    have hnat := UInt64.lt_iff_toNat_lt.mp hlt
    have hpos : 0 < price.toNat := by
      apply Nat.pos_of_ne_zero
      intro hzero
      exact hoff (UInt64.toNat_inj.mp hzero)
    have hdiff : (m - price).toNat = m.toNat - price.toNat :=
      UInt64.toNat_sub_of_le m price (UInt64.le_of_lt hlt)
    rw [mirrored, if_neg hoff, hdiff]
    omega

/-! ### The checks on the triggers -/

/-- Each stop and each take-profit is accepted on the one side exactly when its mirror
image is on the other, and refused with the same error. -/
theorem checkPriceTriggers_mirrored {m entryPrice stopPrice takeProfitPrice : UInt64}
    (hlt : entryPrice < m) (hstop : Mirrorable m stopPrice)
    (htake : Mirrorable m takeProfitPrice) :
    checkPriceTriggers sideShort (m - entryPrice) (mirrored m stopPrice)
        (mirrored m takeProfitPrice) =
      checkPriceTriggers sideLong entryPrice stopPrice takeProfitPrice := by
  have hentry : (m - entryPrice).toNat = m.toNat - entryPrice.toNat :=
    UInt64.toNat_sub_of_le m entryPrice (UInt64.le_of_lt hlt)
  have hbound := UInt64.lt_iff_toNat_lt.mp hlt
  have hstopImage := reflected_mirrored hstop
  have htakeImage := reflected_mirrored htake
  have hstopIff : (mirrored m stopPrice > 0 → mirrored m stopPrice > m - entryPrice) ↔
      (stopPrice > 0 → stopPrice < entryPrice) := by
    simp only [gt_iff_lt, UInt64.lt_iff_toNat_lt, UInt64.toNat_zero, hentry]
    unfold Reflected at hstopImage
    omega
  have htakeIff : (mirrored m takeProfitPrice > 0 →
        mirrored m takeProfitPrice < m - entryPrice) ↔
      (takeProfitPrice > 0 → takeProfitPrice > entryPrice) := by
    simp only [gt_iff_lt, UInt64.lt_iff_toNat_lt, UInt64.toNat_zero, hentry]
    unfold Reflected at htakeImage
    omega
  have hside : sideShort ≠ sideLong := by decide
  simp only [checkPriceTriggers, hside, ↓reduceIte, require, hstopIff, htakeIff]

/-! ### Two records, one the image of the other -/

structure MirrorImage (m : UInt64) (long short : Position) : Prop where
  long_side : long.side = sideLong
  short_side : short.side ≠ sideLong
  entry : long.entryPrice.toNat + short.entryPrice.toNat = m.toNat
  stop : Reflected m long.stopPrice short.stopPrice
  takeProfit : Reflected m long.takeProfitPrice short.takeProfitPrice
  offset : short.trailingOffset = long.trailingOffset
  extreme : long.trailingExtreme.toNat + short.trailingExtreme.toNat = m.toNat
  status : short.status = long.status
  reason : short.triggerReason = long.triggerReason
  long_sound : long.Sound
  short_sound : short.Sound

namespace MirrorImage

variable {m : UInt64} {long short : Position} {price price' : UInt64}

theorem stopHit_iff (h : MirrorImage m long short)
    (hprice : price.toNat + price'.toNat = m.toNat) :
    short.StopHit price' ↔ long.StopHit price := by
  have hstop := h.stop
  simp only [Position.StopHit, h.long_side, h.short_side, ↓reduceIte]
  unfold Reflected at hstop
  omega

theorem takeProfitHit_iff (h : MirrorImage m long short)
    (hprice : price.toNat + price'.toNat = m.toNat) :
    short.TakeProfitHit price' ↔ long.TakeProfitHit price := by
  have htake := h.takeProfit
  simp only [Position.TakeProfitHit, h.long_side, h.short_side, ↓reduceIte]
  unfold Reflected at htake
  omega

theorem trailingHit_iff (h : MirrorImage m long short)
    (hprice : price.toNat + price'.toNat = m.toNat) :
    short.TrailingHit price' ↔ long.TrailingHit price := by
  have hextreme := h.extreme
  simp only [Position.TrailingHit, h.long_side, h.short_side, h.offset, ↓reduceIte]
  omega

theorem firstHit_eq (h : MirrorImage m long short)
    (hprice : price.toNat + price'.toNat = m.toNat) :
    short.firstHit price' = long.firstHit price := by
  simp only [Position.firstHit, h.stopHit_iff hprice, h.takeProfitHit_iff hprice,
    h.trailingHit_iff hprice]

/-- Neither threshold leaves the machine word: the long one stays above 0, the short one
below the mirror. -/
theorem in_range (h : MirrorImage m long short) :
    ¬ long.ThresholdOutOfRange ∧ ¬ short.ThresholdOutOfRange := by
  have hentry := h.entry
  have hextreme := h.extreme
  have hbound := m.toNat_lt
  have hlong := h.long_sound.extreme_long h.long_side
  constructor
  · rintro ⟨hoff, hout⟩
    rw [if_pos h.long_side] at hout
    have hoffset := UInt64.lt_iff_toNat_lt.mp
      (h.long_sound.placed.trailing (UInt64.lt_iff_toNat_lt.mpr hoff))
    omega
  · rintro ⟨hoff, hout⟩
    rw [if_neg h.short_side] at hout
    rw [h.offset] at hoff hout
    have hoffset := UInt64.lt_iff_toNat_lt.mp
      (h.long_sound.placed.trailing (UInt64.lt_iff_toNat_lt.mpr hoff))
    omega

theorem observe (h : MirrorImage m long short)
    (hprice : price.toNat + price'.toNat = m.toNat) (hpos : 0 < price.toNat)
    (hpos' : 0 < price'.toNat) (now now' : Int64) :
    MirrorImage m (long.observe price now) (short.observe price' now') := by
  have hextreme := h.extreme
  constructor
  case long_side => exact h.long_side
  case short_side => exact h.short_side
  case entry => exact h.entry
  case stop => exact h.stop
  case takeProfit => exact h.takeProfit
  case offset => exact h.offset
  case extreme =>
    change (long.advanceExtreme price).toNat + (short.advanceExtreme price').toNat = m.toNat
    by_cases hoff : long.trailingOffset.toNat = 0
    · rw [advanceExtreme_of_off price hoff,
        advanceExtreme_of_off price' (by rw [h.offset, hoff])]
      exact hextreme
    · have hon := Nat.pos_of_ne_zero hoff
      rw [advanceExtreme_long price hon h.long_side,
        advanceExtreme_short price' (by rw [h.offset]; exact hon) h.short_side
          (h.short_sound.extreme_short h.short_side).1]
      omega
  case status => exact h.status
  case reason => exact h.reason
  case long_sound => exact h.long_sound.observe hpos now
  case short_sound => exact h.short_sound.observe hpos' now'

theorem settled (h : MirrorImage m long short) {trigger : UInt8}
    (htrigger : trigger ≠ triggerNone) (now now' : Int64) :
    MirrorImage m (long.settled trigger now) (short.settled trigger now') :=
  ⟨h.long_side, h.short_side, h.entry, h.stop, h.takeProfit, h.offset, h.extreme, rfl, rfl,
    h.long_sound.settled htrigger now, h.short_sound.settled htrigger now'⟩

theorem ticked (h : MirrorImage m long short)
    (hprice : price.toNat + price'.toNat = m.toNat) (hpos : 0 < price.toNat)
    (hpos' : 0 < price'.toNat) (now now' : Int64) :
    MirrorImage m (long.ticked price now) (short.ticked price' now') := by
  have hobserved := h.observe hprice hpos hpos' now now'
  have hfirst := hobserved.firstHit_eq hprice
  by_cases hquiet : (long.observe price now).firstHit price = triggerNone
  · rw [Position.ticked, Position.ticked, hfirst, if_pos hquiet, if_pos hquiet]
    exact hobserved
  · rw [Position.ticked, Position.ticked, hfirst, if_neg hquiet, if_neg hquiet,
      Position.fired, Position.fired, hfirst]
    exact hobserved.settled hquiet now now'

theorem retarget (h : MirrorImage m long short) {stop take stop' take' offset : UInt64}
    (hstop : Reflected m stop stop') (htake : Reflected m take take')
    (hplaced : TriggersPlaced long.side long.entryPrice stop take offset)
    (hplaced' : TriggersPlaced short.side short.entryPrice stop' take' offset) :
    MirrorImage m (long.retarget stop take offset) (short.retarget stop' take' offset) := by
  have hsound := h.long_sound.retarget hplaced
  have hsound' := h.short_sound.retarget hplaced'
  have hextreme := retarget_trailingExtreme long stop take offset
  have hextreme' := retarget_trailingExtreme short stop' take' offset
  rw [retarget_frame] at hsound hsound' ⊢
  rw [retarget_frame short]
  constructor
  case long_side => exact h.long_side
  case short_side => exact h.short_side
  case entry => exact h.entry
  case stop => exact hstop
  case takeProfit => exact htake
  case offset => rfl
  case extreme =>
    dsimp only
    rw [hextreme, hextreme', h.offset]
    split
    · exact h.extreme
    · exact h.entry
  case status => exact h.status
  case reason => exact h.reason
  case long_sound => exact hsound
  case short_sound => exact hsound'

end MirrorImage

/-! ### Mirrored calls -/

/-- The same call at mirrored prices; a tick reads a fresh feed. -/
inductive MirroredCall (m : UInt64) : PositionCall → PositionCall → Prop where
  | tick {feed feed' : PriceFeed} {now now' : Int64} (pos : 0 < feed.price)
      (lt : feed.price < m) (image : feed'.price = m - feed.price)
      (fresh : now.toInt - feed.lastUpdated.toInt ≤ 120)
      (fresh' : now'.toInt - feed'.lastUpdated.toInt ≤ 120) :
      MirroredCall m (.tick feed now) (.tick feed' now')
  | retarget {stopPrice takeProfitPrice : UInt64} (trailingOffset : UInt64)
      (stop : Mirrorable m stopPrice) (takeProfit : Mirrorable m takeProfitPrice) :
      MirroredCall m (.retarget stopPrice takeProfitPrice trailingOffset)
        (.retarget (mirrored m stopPrice) (mirrored m takeProfitPrice) trailingOffset)

/-- A call of `update_triggers` goes through. -/
def UpdateAccepted (position : Position) (call : PositionCall) : Prop :=
  ∀ stopPrice takeProfitPrice trailingOffset,
    call = .retarget stopPrice takeProfitPrice trailingOffset →
      ∃ position', position.handle call = .ok position'

/-- A tick of an open position goes through. -/
def TickGoesThrough (position : Position) (call : PositionCall) : Prop :=
  ∀ feed now, call = .tick feed now → position.status = statusOpen →
    ∃ position', position.handle call = .ok position'

theorem tick_of_closed {position : Position} (h : position.status ≠ statusOpen)
    (feed : PriceFeed) (now : Int64) : position.after (.tick feed now) = position := by
  have herror : position.handle (.tick feed now) = .error (.hwal .positionNotOpen) := by
    simp only [Position.handle, Position.tick, tickPrice, require, h, ↓reduceIte, error_bind]
  exact after_of_error herror

namespace MirrorImage

variable {m : UInt64} {long short : Position} {call call' : PositionCall}

theorem tick_ok (h : MirrorImage m long short) {feed feed' : PriceFeed} {now now' : Int64}
    (hcall : MirroredCall m (.tick feed now) (.tick feed' now'))
    (hopen : long.status = statusOpen) :
    long.handle (.tick feed now) = .ok (long.ticked feed.price now) ∧
      short.handle (.tick feed' now') = .ok (short.ticked feed'.price now') ∧
      MirrorImage m (long.ticked feed.price now) (short.ticked feed'.price now') := by
  cases hcall with
  | tick pos lt image fresh fresh' =>
      have hdiff : feed'.price.toNat = m.toNat - feed.price.toNat := by
        rw [image]
        exact UInt64.toNat_sub_of_le m feed.price (UInt64.le_of_lt lt)
      have hbound := UInt64.lt_iff_toNat_lt.mp lt
      have hpos : 0 < feed.price.toNat := UInt64.lt_iff_toNat_lt.mp pos
      have hprice : feed.price.toNat + feed'.price.toNat = m.toNat := by omega
      have hpos' : 0 < feed'.price.toNat := by omega
      have hobserved := h.observe hprice hpos hpos' now now'
      have hopen' : short.status = statusOpen := h.status.trans hopen
      refine ⟨?_, ?_, h.ticked hprice hpos hpos' now now'⟩
      · apply tick_eq_ok_iff.mpr
        refine ⟨tickPrice_eq_ok_iff.mpr ⟨hopen, pos, fresh, rfl⟩, ?_, rfl⟩
        exact fun hstuck => hobserved.in_range.1 hstuck.2.2
      · apply tick_eq_ok_iff.mpr
        refine ⟨tickPrice_eq_ok_iff.mpr ⟨hopen', UInt64.lt_iff_toNat_lt.mpr hpos', fresh', rfl⟩,
          ?_, rfl⟩
        exact fun hstuck => hobserved.in_range.2 hstuck.2.2

/-- One call on either side. -/
theorem after (h : MirrorImage m long short) (hcall : MirroredCall m call call')
    (hlong : UpdateAccepted long call) (hshort : UpdateAccepted short call') :
    MirrorImage m (long.after call) (short.after call') ∧ TickGoesThrough long call ∧
      TickGoesThrough short call' := by
  have hcalls := hcall
  cases hcall with
  | @tick feed feed' now now' pos lt image fresh fresh' =>
      by_cases hopen : long.status = statusOpen
      · rcases h.tick_ok hcalls hopen with ⟨hok, hok', himage⟩
        rw [after_of_ok hok, after_of_ok hok']
        exact ⟨himage, fun _ _ _ _ => ⟨_, hok⟩, fun _ _ _ _ => ⟨_, hok'⟩⟩
      · have hclosed : short.status ≠ statusOpen := fun hs => hopen (h.status.symm.trans hs)
        rw [tick_of_closed hopen, tick_of_closed hclosed]
        exact ⟨h, fun _ _ _ hs => absurd hs hopen, fun _ _ _ hs => absurd hs hclosed⟩
  | retarget offset hstop htake =>
      rcases hlong _ _ _ rfl with ⟨long', hok⟩
      rcases hshort _ _ _ rfl with ⟨short', hok'⟩
      rcases updateTriggersHandler_eq_ok_iff.mp hok with ⟨-, hplaced, rfl⟩
      rcases updateTriggersHandler_eq_ok_iff.mp hok' with ⟨-, hplaced', rfl⟩
      rw [after_of_ok hok, after_of_ok hok']
      refine ⟨h.retarget (reflected_mirrored hstop) (reflected_mirrored htake) hplaced hplaced',
        ?_, ?_⟩
      · intro feed now htick
        contradiction
      · intro feed now htick
        contradiction

/-- Whole lists of calls. -/
theorem afterAll (h : MirrorImage m long short) {calls calls' : List PositionCall}
    (hcalls : List.Forall₂ (MirroredCall m) calls calls')
    (hlong : long.Along UpdateAccepted calls) (hshort : short.Along UpdateAccepted calls') :
    MirrorImage m (long.afterAll calls) (short.afterAll calls') ∧
      long.Along TickGoesThrough calls ∧ short.Along TickGoesThrough calls' := by
  induction hcalls generalizing long short with
  | nil => exact ⟨h, trivial, trivial⟩
  | cons hcall hrest ih =>
      rcases h.after hcall hlong.1 hshort.1 with ⟨hafter, htick, htick'⟩
      rcases ih hafter hlong.2 hshort.2 with ⟨himage, hticks, hticks'⟩
      exact ⟨himage, ⟨htick, hticks⟩, ⟨htick', hticks'⟩⟩

end MirrorImage

/-! ### Runs -/

/-- An opening that went through, and what happened after it. -/
structure PositionRun (rt : Runtime) where
  start : World
  tx : Tx
  accs : OpenPosition
  args : OpenPositionArgs
  feed : PriceFeed
  opened : World
  later : List Action
  reachable : ReachableWithSupply rt start
  feed_loaded : start.feeds accs.feed = some feed
  succeeded : attempt rt start (.invoke tx (.openPosition accs args)) = .ok opened

namespace PositionRun

variable {rt : Runtime} (run : PositionRun rt)

def history : List Moment := historyFrom rt run.opened run.later

/-- The calls made on the position after its opening. -/
def calls : List PositionCall := callsOf rt run.accs.position run.history

def record : Option Position :=
  (runFrom rt run.opened run.later).positions run.accs.position

/-- The run without the actions after the `n`-th. -/
def upTo (n : Nat) : PositionRun rt := { run with later := run.later.take n }

/-- Every `update_triggers` that reaches the position is accepted. -/
def UpdatesAccepted : Prop :=
  ∀ m ∈ run.history, ∀ stopPrice takeProfitPrice trailingOffset,
    callAt rt run.accs.position m.before m.action =
      some (.retarget stopPrice takeProfitPrice trailingOffset) → Succeeded rt m

/-- No tick of the open position aborts. -/
def TicksGoThrough : Prop :=
  ∀ m ∈ run.history, ∀ before feed now,
    m.before.positions run.accs.position = some before →
    callAt rt run.accs.position m.before m.action = some (.tick feed now) →
    before.status = statusOpen → Succeeded rt m

theorem opened_reachable : ReachableWithSupply rt run.opened := by
  rw [← step_of_ok run.succeeded]
  exact run.reachable.step _

theorem opened_record :
    OpenChecked run.feed run.tx.unixTimestamp run.args ∧
      ∃ bump, run.opened.positions run.accs.position =
        some (newPosition run.accs run.args run.feed.price run.tx.unixTimestamp bump) := by
  rcases positionOpened_of_ok (attempt_invoke_eq_ok_iff.mp run.succeeded).2.2 with
    ⟨config, feed, rent, bump, heff⟩
  have hfeed : feed = run.feed :=
    Option.some.inj (heff.feed_loaded.symm.trans run.feed_loaded)
  subst hfeed
  refine ⟨heff.checked, bump, ?_⟩
  rw [heff.positions, Function.update_self]

theorem history_split (n : Nat) : run.history = (run.upTo n).history ++
    historyFrom rt (runFrom rt run.opened (run.later.take n)) (run.later.drop n) := by
  rw [history, ← List.take_append_drop n run.later, historyFrom, Transition.trace_append,
    List.take_append_drop]
  rfl

theorem calls_split (n : Nat) : ∃ rest, run.calls = (run.upTo n).calls ++ rest := by
  refine ⟨callsOf rt run.accs.position
    (historyFrom rt (runFrom rt run.opened (run.later.take n)) (run.later.drop n)), ?_⟩
  rw [calls, run.history_split n, callsOf, List.filterMap_append]
  rfl

theorem UpdatesAccepted.upTo {run : PositionRun rt} (h : run.UpdatesAccepted) (n : Nat) :
    (run.upTo n).UpdatesAccepted := by
  intro m hm
  apply h m
  rw [run.history_split n]
  exact List.mem_append_left _ hm

end PositionRun

/-- A long and a short position opened, ticked and retargeted at mirrored prices,
whatever else happens in the two runs. -/
structure MirroredRuns {rt : Runtime} (m : UInt64) (long short : PositionRun rt) : Prop where
  long_side : long.args.side = sideLong
  short_side : short.args.side = sideShort
  entry_lt : long.feed.price < m
  entry : short.feed.price = m - long.feed.price
  stop_in : Mirrorable m long.args.stopPrice
  stop : short.args.stopPrice = mirrored m long.args.stopPrice
  takeProfit_in : Mirrorable m long.args.takeProfitPrice
  takeProfit : short.args.takeProfitPrice = mirrored m long.args.takeProfitPrice
  offset : short.args.trailingOffset = long.args.trailingOffset
  calls : List.Forall₂ (MirroredCall m) long.calls short.calls
  long_accepted : long.UpdatesAccepted
  short_accepted : short.UpdatesAccepted

section Runs

variable {rt : Runtime} {m : UInt64} {long short : PositionRun rt}

/-- Runs stay mirrored when both are cut off after the same number of calls. -/
theorem MirroredRuns.upTo (h : MirroredRuns m long short) {i j : Nat}
    (hcount : (long.upTo i).calls.length = (short.upTo j).calls.length) :
    MirroredRuns m (long.upTo i) (short.upTo j) := by
  have hcalls : List.Forall₂ (MirroredCall m) (long.upTo i).calls (short.upTo j).calls := by
    rcases long.calls_split i with ⟨rest, hlong⟩
    rcases short.calls_split j with ⟨rest', hshort⟩
    have htake := List.forall₂_take (long.upTo i).calls.length h.calls
    rw [hlong, List.take_left, hshort, hcount, List.take_left] at htake
    exact htake
  exact ⟨h.long_side, h.short_side, h.entry_lt, h.entry, h.stop_in, h.stop, h.takeProfit_in,
    h.takeProfit, h.offset, hcalls, h.long_accepted.upTo i, h.short_accepted.upTo j⟩

/-- The two records right after the openings. -/
theorem MirroredRuns.opened (h : MirroredRuns m long short) : ∃ p q,
    long.opened.positions long.accs.position = some p ∧
      short.opened.positions short.accs.position = some q ∧ MirrorImage m p q := by
  rcases long.opened_record with ⟨hchecked, bump, hrecord⟩
  rcases short.opened_record with ⟨hchecked', bump', hrecord'⟩
  have hentry : short.feed.price.toNat = m.toNat - long.feed.price.toNat := by
    rw [h.entry]
    exact UInt64.toNat_sub_of_le m long.feed.price (UInt64.le_of_lt h.entry_lt)
  have hbound := UInt64.lt_iff_toNat_lt.mp h.entry_lt
  have hsum : long.feed.price.toNat + short.feed.price.toNat = m.toNat := by omega
  refine ⟨_, _, hrecord, hrecord', ?_⟩
  constructor
  case long_side => exact h.long_side
  case short_side =>
    intro hside
    have hshort : sideShort = sideLong := h.short_side.symm.trans hside
    exact absurd hshort (by decide)
  case entry => exact hsum
  case stop =>
    have hstop := reflected_mirrored h.stop_in
    rw [← h.stop] at hstop
    exact hstop
  case takeProfit =>
    have htake := reflected_mirrored h.takeProfit_in
    rw [← h.takeProfit] at htake
    exact htake
  case offset => exact h.offset
  case extreme => exact hsum
  case status => rfl
  case reason => rfl
  case long_sound => exact newPosition_sound hchecked bump
  case short_sound => exact newPosition_sound hchecked' bump'

theorem PositionRun.UpdatesAccepted.along {run : PositionRun rt} (h : run.UpdatesAccepted)
    {position : Position} (hrecord : run.opened.positions run.accs.position = some position) :
    position.Along UpdateAccepted run.calls := by
  apply (along_iff_of_run run.opened_reachable hrecord run.later).mpr
  intro moment hm before call hbefore hcall stop take offset hretarget
  rw [hretarget] at hcall ⊢
  have hok := h moment hm stop take offset hcall
  exact (succeeded_iff_handled run.opened_reachable hm hbefore hcall).mp hok

theorem PositionRun.ticksGoThrough_of_along {run : PositionRun rt} {position : Position}
    (hrecord : run.opened.positions run.accs.position = some position)
    (h : position.Along TickGoesThrough run.calls) : run.TicksGoThrough := by
  intro moment hm before feed now hbefore hcall hopen
  have hticks := (along_iff_of_run run.opened_reachable hrecord run.later).mp h
  have hhandled := hticks moment hm before _ hbefore hcall feed now rfl hopen
  exact (succeeded_iff_handled run.opened_reachable hm hbefore hcall).mpr hhandled

/-- At the end of mirrored runs one record is the image of the other, and no tick has
aborted on either side. -/
theorem MirroredRuns.finish (h : MirroredRuns m long short) :
    (∃ p q, long.record = some p ∧ short.record = some q ∧ MirrorImage m p q) ∧
      long.TicksGoThrough ∧ short.TicksGoThrough := by
  rcases h.opened with ⟨p, q, hp, hq, himage⟩
  rcases himage.afterAll h.calls (h.long_accepted.along hp) (h.short_accepted.along hq) with
    ⟨hafter, hticks, hticks'⟩
  have hlong := record_of_run long.opened_reachable hp long.later
  have hshort := record_of_run short.opened_reachable hq short.later
  exact ⟨⟨_, _, hlong, hshort, hafter⟩, PositionRun.ticksGoThrough_of_along hp hticks,
    PositionRun.ticksGoThrough_of_along hq hticks'⟩

/-- After the same number of calls, a long position and its mirrored short are both open
or both settled, for the same reason, their extremes are mirrored, and no tick of an open
one aborts; and the price checks accept on the one side what they accept on the other. -/
theorem long_short_duality (h : MirroredRuns m long short) :
    (∀ i j, (long.upTo i).calls.length = (short.upTo j).calls.length →
      ∃ p q, (long.upTo i).record = some p ∧ (short.upTo j).record = some q ∧
        q.status = p.status ∧ q.triggerReason = p.triggerReason ∧
        p.trailingExtreme < m ∧ q.trailingExtreme = m - p.trailingExtreme) ∧
    long.TicksGoThrough ∧ short.TicksGoThrough ∧
    ∀ entryPrice stopPrice takeProfitPrice, entryPrice < m → Mirrorable m stopPrice →
      Mirrorable m takeProfitPrice →
      checkPriceTriggers sideShort (m - entryPrice) (mirrored m stopPrice)
          (mirrored m takeProfitPrice) =
        checkPriceTriggers sideLong entryPrice stopPrice takeProfitPrice := by
  refine ⟨?_, h.finish.2.1, h.finish.2.2, ?_⟩
  · intro i j hcount
    rcases (h.upTo hcount).finish.1 with ⟨p, q, hp, hq, himage⟩
    have hextreme := himage.extreme
    have hpos := (himage.short_sound.extreme_short himage.short_side).1
    have hlt : p.trailingExtreme < m := UInt64.lt_iff_toNat_lt.mpr (by omega)
    refine ⟨p, q, hp, hq, himage.status, himage.reason, hlt, ?_⟩
    rw [← UInt64.toNat_inj, UInt64.toNat_sub_of_le _ _ (UInt64.le_of_lt hlt)]
    omega
  · intro entryPrice stopPrice takeProfitPrice hlt hstop htake
    exact checkPriceTriggers_mirrored hlt hstop htake

end Runs

section Localnet

open Localnet

/-- An opening of alice's on the launched feed, at 100. -/
def alicesRun (args : OpenPositionArgs) (later : List Action)
    (h : (attempt cluster (runFrom cluster (World.genesis funds) launch)
      (.invoke (tx alice 1003)
        (.openPosition ⟨alice, config, feed, position, systemProgramId⟩ args))).isOk = true) :
    PositionRun cluster where
  start := runFrom cluster (World.genesis funds) launch
  tx := tx alice 1003
  accs := ⟨alice, config, feed, position, systemProgramId⟩
  args := args
  feed := launchedFeed
  opened := step cluster (runFrom cluster (World.genesis funds) launch) (.invoke (tx alice 1003)
    (.openPosition ⟨alice, config, feed, position, systemProgramId⟩ args))
  later := later
  reachable := ⟨funds, launch, funds_supply, rfl⟩
  feed_loaded := by decide +kernel
  succeeded := succeeded_of_isOk h

/-- Long at 100: the price rises to 130, the trailing offset is set to 10, the price falls. -/
def risingLong : PositionRun cluster :=
  alicesRun ⟨1, 0, 50000000, 90000000, 0, 5000000⟩
    [push 104000000 1004, tick feeReceiver 1005, retarget 0 140000000 10000000 1006,
      push 130000000 1007, tick feeReceiver 1008, push 119000000 1009, tick feeReceiver 1010]
    (by decide +kernel)

/-- The same in a mirror at 200, where each price is what is missing to 200. -/
def fallingShort : PositionRun cluster :=
  alicesRun ⟨1, 1, 50000000, 110000000, 0, 5000000⟩
    [push 96000000 1004, tick feeReceiver 1005, retarget 0 60000000 10000000 1006,
      push 70000000 1007, tick feeReceiver 1008, push 81000000 1009, tick feeReceiver 1010]
    (by decide +kernel)

/-- The calls of either run, for its three prices and the retargeted triggers. -/
def fourCalls (first second third stopPrice takeProfitPrice : UInt64) : List PositionCall :=
  [.tick (launchedFeed.record first 1004) 1005,
    .retarget stopPrice takeProfitPrice 10000000,
    .tick ((launchedFeed.record first 1004).record second 1007) 1008,
    .tick (((launchedFeed.record first 1004).record second 1007).record third 1009) 1010]

theorem risingLong_mirrored : MirroredRuns 200000000 risingLong fallingShort := by
  have hlong : risingLong.calls = fourCalls 104000000 130000000 119000000 0 140000000 := by
    decide +kernel
  have hshort : fallingShort.calls = fourCalls 96000000 70000000 81000000
      (mirrored 200000000 0) (mirrored 200000000 140000000) := by decide +kernel
  constructor
  case long_side => rfl
  case short_side => rfl
  case entry_lt => decide +kernel
  case entry => decide +kernel
  case stop_in => exact Or.inr (by decide +kernel)
  case stop => decide +kernel
  case takeProfit_in => exact Or.inl rfl
  case takeProfit => decide +kernel
  case offset => rfl
  case calls =>
    rw [hlong, hshort]
    have htick {feed feed' : PriceFeed} {now now' : Int64}
        (h : 0 < feed.price ∧ feed.price < 200000000 ∧ feed'.price = 200000000 - feed.price ∧
          now.toInt - feed.lastUpdated.toInt ≤ 120 ∧
          now'.toInt - feed'.lastUpdated.toInt ≤ 120) :
        MirroredCall 200000000 (.tick feed now) (.tick feed' now') :=
      .tick h.1 h.2.1 h.2.2.1 h.2.2.2.1 h.2.2.2.2
    have hretarget : MirroredCall 200000000 (.retarget 0 140000000 10000000)
        (.retarget (mirrored 200000000 0) (mirrored 200000000 140000000) 10000000) :=
      .retarget 10000000 (Or.inl rfl) (Or.inr (by decide))
    exact .cons (htick (by decide +kernel)) (.cons hretarget
      (.cons (htick (by decide +kernel)) (.cons (htick (by decide +kernel)) .nil)))
  case long_accepted =>
    intro m hm stop take offset _
    exact succeeded_of_all (by decide +kernel) m hm
  case short_accepted =>
    intro m hm stop take offset _
    exact succeeded_of_all (by decide +kernel) m hm

/-- Both fire on their trailing stop at the third tick, the extremes at 130 and 70. -/
theorem long_short_duality_risingLong :
    ∃ p q, risingLong.record = some p ∧ fallingShort.record = some q ∧
      p.triggerReason = triggerTrailing ∧ q.triggerReason = p.triggerReason ∧
      q.trailingExtreme = 200000000 - p.trailingExtreme := by
  rcases (long_short_duality risingLong_mirrored).1 7 7 (by decide +kernel) with
    ⟨p, q, hp, hq, -, hreason, -, hextreme⟩
  have hfired : risingLong.record.map Position.triggerReason = some triggerTrailing := by
    decide +kernel
  have hrecord : risingLong.record = some p := hp
  rw [hrecord] at hfired
  exact ⟨p, q, hp, hq, Option.some.inj hfired, hreason, hextreme⟩

end Localnet

end Hwal
