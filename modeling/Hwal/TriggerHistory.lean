/-
When a position fires: at the first attempt at which one of the three conditions
holds over the whole price history, for the first of them that holds, whatever
else happens in the run.
-/
import Hwal.PriceHistory

namespace Hwal

open Guard

/-- A successful `cancel_position` of the position at `key`. -/
def CancelsAt (rt : Runtime) (key : Pubkey) (m : Moment) : Prop :=
  Succeeded rt m ∧ ∃ tx accs, m.action = .invoke tx (.cancelPosition accs) ∧
    accs.position = key

/-- Not fired yet: no attempt met a condition. -/
def NotFired (watch : Watch) (position : Position) : Prop :=
  position.status = statusOpen ∧
    ∀ a ∈ watch.attempts, a.outcome position.side position.entryPrice.toNat = triggerNone

/-- Fired at the last attempt, the first one that met a condition. -/
def FiredAtFirstHit (watch : Watch) (position : Position) : Prop :=
  position.status = statusTriggered ∧ ∃ quiet last, watch.attempts = quiet ++ [last] ∧
    (∀ a ∈ quiet, a.outcome position.side position.entryPrice.toNat = triggerNone) ∧
    last.outcome position.side position.entryPrice.toNat ≠ triggerNone ∧
    position.triggerReason = last.outcome position.side position.entryPrice.toNat

/-- What an observer's notes say about a position. -/
structure Watched (watch : Watch) (position : Position) : Prop where
  follows : position.status = statusOpen → position.Follows watch.window
  verdict : NotFired watch position ∨ FiredAtFirstHit watch position

/-- Before the position exists there is nothing to note. -/
def Watching (watch : Watch) : Option Position → Prop
  | none => watch = ⟨[], []⟩
  | some position => Watched watch position

section Step

variable {rt : Runtime} {w w' : World} {key : Pubkey} {watch : Watch} {position : Position}

/-- No attempt on a position that is still open met a condition. -/
theorem Watched.notFired (h : Watched watch position) (hopen : position.status = statusOpen) :
    NotFired watch position := by
  rcases h.verdict with hquiet | hfired
  · exact hquiet
  · have hstatus := hfired.1
    rw [hopen] at hstatus
    exact absurd hstatus (by decide)

section Attempts

variable {price : UInt64} {now : Int64}

/-- An attempt that aborts is noted, and the record stays. -/
theorem Watched.stuck (h : Watched watch position) (hopen : position.status = statusOpen)
    (hsound : position.Sound) (hover : position.ThresholdOverflows price) :
    Watched (watch.record position price) position := by
  have hfollows := h.follows hopen
  have houtcome := hfollows.outcome_of_overflow hsound hover
  exact ⟨fun _ => hfollows.stuck hsound hover,
    Or.inl ⟨hopen, forall_mem_snoc (h.notFired hopen).2 houtcome⟩⟩

/-- An attempt that meets no condition is noted, and the record has seen its price. -/
theorem Watched.ticked (h : Watched watch position) (hopen : position.status = statusOpen)
    (hsound : position.Sound) (hstuck : ¬ (position.observe price now).Stuck price)
    (hquiet : (position.observe price now).firstHit price = triggerNone) :
    Watched (watch.record position price) (position.observe price now) := by
  have hfollows := h.follows hopen
  have houtcome := hfollows.outcome_eq_firstHit hsound now hstuck
  exact ⟨fun _ => hfollows.observe hsound now,
    Or.inl ⟨hopen, forall_mem_snoc (h.notFired hopen).2 (houtcome.trans hquiet)⟩⟩

/-- The first attempt that meets a condition is the last one noted. -/
theorem Watched.fired (h : Watched watch position) (hopen : position.status = statusOpen)
    (hsound : position.Sound) (hstuck : ¬ (position.observe price now).Stuck price)
    (hfires : (position.observe price now).firstHit price ≠ triggerNone) :
    Watched (watch.record position price) (position.fired price now) := by
  have houtcome := (h.follows hopen).outcome_eq_firstHit hsound now hstuck
  constructor
  case follows =>
    intro hclosed
    rw [fired_status] at hclosed
    exact absurd hclosed (by decide)
  case verdict =>
    refine Or.inr ⟨rfl, watch.attempts, _, rfl, (h.notFired hopen).2, ?_, houtcome.symm⟩
    intro hnone
    exact hfires (houtcome.symm.trans hnone)

/-- New triggers leave the notes as they are; a new offset starts a new window. -/
theorem Watched.retargeted (h : Watched watch position) (hopen : position.status = statusOpen)
    (stopPrice takeProfitPrice trailingOffset : UInt64) :
    Watched (if trailingOffset = position.trailingOffset then watch
        else { watch with window := [] })
      (position.retarget stopPrice takeProfitPrice trailingOffset) := by
  have hquiet := h.notFired hopen
  have hextreme := retarget_trailingExtreme position stopPrice takeProfitPrice trailingOffset
  rw [retarget_frame, hextreme]
  by_cases hoffset : trailingOffset = position.trailingOffset
  · have hfollows := h.follows hopen
    rw [if_pos hoffset, if_pos hoffset, hoffset]
    exact ⟨fun _ => hfollows, Or.inl hquiet⟩
  · rw [if_neg hoffset, if_neg hoffset]
    exact ⟨fun _ => Position.Follows.of_entry rfl, Or.inl hquiet⟩

end Attempts

/-- One attempted tick: it aborts, is recorded or settles, and the notes say which. -/
theorem Watched.record {action : Action} {price : UInt64} (hinv : Invariant rt w)
    (hsupply : Ledger.SupplyAtMost (2 ^ 64 - 1) w.lamports)
    (h : Watched watch position) (hposition : w.positions key = some position)
    {loaded : Position}
    (hinput : tickInput rt key ⟨w, action, step rt w action⟩ = some (loaded, price)) :
    ∃ position', (step rt w action).positions key = some position' ∧
      Watched (watch.record loaded price) position' := by
  rcases tickInput_eq_some_iff.mp hinput with
    ⟨tx, accs, config, feed, haction, hkey, htx, hpre, haccs, hguards, rfl⟩
  dsimp only at haction haccs
  subst hkey haction
  have hsame : loaded = position :=
    Option.some.inj (haccs.position_loaded.symm.trans hposition)
  subst hsame
  have hopen := (tickPrice_eq_ok_iff.mp hguards).1
  have hprice := hinv.feeds _ _ haccs.feed_loaded
  have hsound := (hinv.positions _ _ hposition).shape
  by_cases hover : loaded.ThresholdOverflows feed.price
  · have herror : attempt rt w (.invoke tx (.tickPosition accs)) =
        .error (.hwal .mathOverflow) := by
      have hexec : execute rt w tx (.tickPosition accs) = .error (.hwal .mathOverflow) :=
        tickPosition_of_overflow haccs hguards hsound hover
      simp only [attempt, require_of_holds _ htx, require_of_holds _ hpre, ok_bind, hexec]
    rw [step_of_error herror]
    exact ⟨loaded, hposition, h.stuck hopen hsound hover⟩
  · rcases exists_tickPosition haccs hguards hinv hsupply hover with ⟨w', hok⟩
    have hattempt : attempt rt w (.invoke tx (.tickPosition accs)) = .ok w' :=
      attempt_invoke_eq_ok_iff.mpr ⟨htx, hpre, hok⟩
    have hstuck : ¬ (loaded.observe feed.price tx.unixTimestamp).Stuck feed.price :=
      fun hs => hover ((observe_stuck_iff hsound hprice tx.unixTimestamp).mp hs)
    rw [step_of_ok hattempt]
    rcases tick_effect_of_ok hok with ⟨_, _, _, heff⟩ | ⟨_, _, _, _, heff⟩
    · rcases heff.accounts.unique haccs with ⟨rfl, rfl, rfl⟩
      rw [heff.positions, Function.update_self]
      exact ⟨_, rfl, h.ticked hopen hsound hstuck heff.quiet⟩
    · rcases heff.accounts.unique haccs with ⟨rfl, rfl, rfl⟩
      rw [heff.positions, Function.update_self]
      exact ⟨_, rfl, h.fired hopen hsound hstuck heff.fires⟩

/-- A step that is no attempt leaves the notes and the record in agreement. -/
theorem Watched.idle {action : Action} (h : Watched watch position)
    (hposition : w.positions key = some position)
    (hinput : tickInput rt key ⟨w, action, step rt w action⟩ = none)
    (hcancel : ¬ CancelsAt rt key ⟨w, action, step rt w action⟩) :
    ∃ position', (step rt w action).positions key = some position' ∧
      Watched (watch.next rt key ⟨w, action, step rt w action⟩) position' := by
  have hnext : watch.next rt key ⟨w, action, step rt w action⟩ =
      if offsetAt key (step rt w action) = offsetAt key w then watch
      else { watch with window := [] } := by
    simp only [Watch.next, hinput]
  rw [hnext]
  rcases ok_or_error (attempt rt w action) with ⟨w', hok⟩ | ⟨error, herror⟩
  · have hat := (attempt_effect hok).atPosition key
    rw [step_of_ok hok] at hinput hcancel ⊢
    rw [hposition] at hat
    generalize hafter : w'.positions key = after at hat
    have hoffsets (position' : Position) (hsame : after = some position') :
        offsetAt key w' = offsetAt key w ↔
          position'.trailingOffset = position.trailingOffset := by
      rw [offsetAt, offsetAt, hafter, hposition, hsame, Option.map_some, Option.map_some,
        Option.some.injEq]
    cases hat with
    | kept pays =>
        rw [if_pos ((hoffsets position rfl).mpr rfl)]
        exact ⟨position, rfl, h⟩
    | @retargeted tx accs stop take offset _ _ account heff =>
        have hiff := hoffsets _ rfl
        rw [retarget_trailingOffset] at hiff
        rw [if_congr hiff rfl rfl]
        exact ⟨_, rfl, h.retargeted heff.status stop take offset⟩
    | ticked account heff =>
        subst account
        rw [tickInput_of_ok hok heff.toTickEvaluated] at hinput
        contradiction
    | settled account heff =>
        subst account
        rw [tickInput_of_ok hok heff.toTickEvaluated] at hinput
        contradiction
    | @cancelled tx accs config _ _ account heff =>
        exact absurd ⟨hok, tx, accs, rfl, account⟩ hcancel
    | delegated account heff =>
        rw [if_pos ((hoffsets _ rfl).mpr rfl)]
        exact ⟨_, rfl, h.follows, h.verdict⟩
    | undelegated account heff =>
        rw [if_pos ((hoffsets _ rfl).mpr rfl)]
        exact ⟨_, rfl, h.follows, h.verdict⟩
  · rw [step_of_error herror, if_pos rfl]
    exact ⟨position, hposition, h⟩

/-- Where there is no position, a step leaves the empty notes empty. -/
theorem next_of_unopened {action : Action} (hnone : w.positions key = none) :
    (⟨[], []⟩ : Watch).next rt key ⟨w, action, step rt w action⟩ = ⟨[], []⟩ := by
  have hinput : tickInput rt key ⟨w, action, step rt w action⟩ = none := by
    rw [Option.eq_none_iff_forall_ne_some]
    rintro ⟨loaded, price⟩ hsome
    have hloaded := (loaded_of_tickInput hsome).1
    dsimp only at hloaded
    rw [hnone] at hloaded
    contradiction
  simp only [Watch.next, hinput, ite_self]

/-- A position starts with empty notes, whose extreme is the entry price. -/
theorem watched_opening {action : Action} (hnone : w.positions key = none)
    (hafter : (step rt w action).positions key = some position) :
    Watched ((⟨[], []⟩ : Watch).next rt key ⟨w, action, step rt w action⟩) position := by
  rw [next_of_unopened hnone]
  rcases step_effect rt w action with heffect | hsame
  · have hat := heffect.atPosition key
    rw [hnone, hafter] at hat
    cases hat with
    | opened account heff =>
        exact ⟨fun _ => Position.Follows.of_entry rfl, Or.inl ⟨rfl, by simp⟩⟩
  · rw [hsame, hnone] at hafter
    contradiction

/-- One step of a run, whatever it is, keeps the notes and the record in agreement. -/
theorem Watching.step (hinv : Invariant rt w)
    (hsupply : Ledger.SupplyAtMost (2 ^ 64 - 1) w.lamports) {action : Action}
    (hcancel : ¬ CancelsAt rt key ⟨w, action, step rt w action⟩)
    (h : Watching watch (w.positions key)) :
    Watching (watch.next rt key ⟨w, action, Hwal.step rt w action⟩)
      ((Hwal.step rt w action).positions key) := by
  cases hbefore : w.positions key with
  | none =>
      rw [hbefore] at h
      have hempty : watch = ⟨[], []⟩ := h
      subst hempty
      cases hafter : (Hwal.step rt w action).positions key with
      | none => exact next_of_unopened hbefore
      | some position => exact watched_opening hbefore hafter
  | some position =>
      rw [hbefore] at h
      have hwatched : Watched watch position := h
      cases hinput : tickInput rt key ⟨w, action, Hwal.step rt w action⟩ with
      | none =>
          rcases hwatched.idle hbefore hinput hcancel with ⟨position', hafter, hnext⟩
          rw [hafter]
          exact hnext
      | some input =>
          rcases input with ⟨loaded, price⟩
          rcases hwatched.record hinv hsupply hbefore hinput with ⟨position', hafter, hnext⟩
          rw [hafter, Watch.next, hinput]
          exact hnext

/-- After a tick that goes through, the stored extreme is the one of the history. -/
theorem Watched.extreme_of_tick (hinv : Invariant rt w) (h : Watched watch position)
    (hposition : w.positions key = some position) {tx : Tx} {accs : TickPosition}
    (haccount : accs.position = key)
    (hok : attempt rt w (.invoke tx (.tickPosition accs)) = .ok w')
    {after : Position} (hafter : w'.positions key = some after)
    (hoff : 0 < after.trailingOffset.toNat)
    (hknown : after.side = sideLong ∨
      (after.triggerReason ≠ triggerStopLoss ∧ after.triggerReason ≠ triggerTakeProfit) ∨
      extremeOf after.side after.entryPrice.toNat
          (watch.next rt key ⟨w, .invoke tx (.tickPosition accs), w'⟩).window +
        after.trailingOffset.toNat < 2 ^ 64) :
    after.trailingExtreme.toNat = extremeOf after.side after.entryPrice.toNat
      (watch.next rt key ⟨w, .invoke tx (.tickPosition accs), w'⟩).window := by
  subst haccount
  have htick := (attempt_invoke_eq_ok_iff.mp hok).2.2
  have hsound := (hinv.positions _ _ hposition).shape
  rcases tick_written_of_ok htick with ⟨config, feed, loaded, heff, hwritten⟩
  have hsame : loaded = position :=
    Option.some.inj (heff.accounts.position_loaded.symm.trans hposition)
  subst hsame
  have hopen := (tickPrice_eq_ok_iff.mp heff.guards).1
  have hfollows := h.follows hopen
  rw [Watch.next, tickInput_of_ok hok heff] at hknown ⊢
  rw [hwritten] at hafter
  obtain rfl := Option.some.inj hafter
  by_cases hquiet :
      (loaded.observe feed.price tx.unixTimestamp).firstHit feed.price = triggerNone
  · rw [Position.ticked, if_pos hquiet] at hoff ⊢
    apply hfollows.exact_after_tick hsound tx.unixTimestamp heff.threshold hoff
    right
    left
    rw [hquiet]
    decide
  · rw [Position.ticked, if_neg hquiet] at hoff hknown ⊢
    exact hfollows.exact_after_tick hsound tx.unixTimestamp heff.threshold hoff hknown

end Step

/-! ### Whole runs -/

section Runs

variable (rt : Runtime) (lamports : Lamports) (actions : List Action) (key : Pubkey)

/-- At the end of every run without a cancellation the notes fit the record. -/
theorem watching_of_run (hsupply : Ledger.SupplyAtMost (2 ^ 64 - 1) lamports)
    (hkept : ∀ m ∈ historyFrom rt (World.genesis lamports) actions, ¬ CancelsAt rt key m) :
    Watching (watch rt key (historyFrom rt (World.genesis lamports) actions))
      ((runFrom rt (World.genesis lamports) actions).positions key) := by
  induction actions using List.reverseRecOn with
  | nil => rfl
  | append_singleton earlier action ih =>
      rw [historyFrom_snoc] at hkept
      have hreach : ReachableWithSupply rt (runFrom rt (World.genesis lamports) earlier) :=
        ⟨lamports, earlier, hsupply, rfl⟩
      rw [historyFrom_snoc, runFrom_snoc, watch_snoc]
      apply Watching.step (reachable_invariant hreach.reachable) (reachable_supply hreach)
      · exact hkept _ (List.mem_append_right _ (List.mem_singleton.mpr rfl))
      · exact ih fun m hm => hkept m (List.mem_append_left _ hm)

/-- A position fires at the first attempt that meets one of the three conditions over
the whole price history, for the first condition it meets, and stays open until then;
after every tick that goes through, the stored extreme is the extreme over the history,
unless a short position was closed by its stop or its take-profit while the threshold of
that extreme lay past `u64`. -/
theorem trigger_semantics (hsupply : Ledger.SupplyAtMost (2 ^ 64 - 1) lamports)
    (hkept : ∀ m ∈ historyFrom rt (World.genesis lamports) actions, ¬ CancelsAt rt key m)
    {position : Position}
    (hposition : (runFrom rt (World.genesis lamports) actions).positions key =
      some position) :
    (∃ m ∈ historyFrom rt (World.genesis lamports) actions, OpenedAs rt key position m) ∧
    (NotFired (watch rt key (historyFrom rt (World.genesis lamports) actions)) position ∨
      FiredAtFirstHit (watch rt key (historyFrom rt (World.genesis lamports) actions))
        position) ∧
    ∀ earlier later tx accs w' after,
      actions = earlier ++ .invoke tx (.tickPosition accs) :: later →
      accs.position = key →
      attempt rt (runFrom rt (World.genesis lamports) earlier)
        (.invoke tx (.tickPosition accs)) = .ok w' →
      w'.positions key = some after → 0 < after.trailingOffset.toNat →
      let extreme := extremeOf after.side after.entryPrice.toNat
        (watch rt key (historyFrom rt (World.genesis lamports)
          (earlier ++ [.invoke tx (.tickPosition accs)]))).window
      (after.side = sideLong ∨
        (after.triggerReason ≠ triggerStopLoss ∧ after.triggerReason ≠ triggerTakeProfit) ∨
        extreme + after.trailingOffset.toNat < 2 ^ 64) →
      after.trailingExtreme.toNat = extreme := by
  refine ⟨openedAs_of_run rt lamports actions hposition, ?_, ?_⟩
  · have hwatching := watching_of_run rt lamports actions key hsupply hkept
    rw [hposition] at hwatching
    have hwatched : Watched _ position := hwatching
    exact hwatched.verdict
  · intro earlier later tx accs w' after hactions haccount hok hafter hoff extreme hknown
    have hreach : Reachable rt (runFrom rt (World.genesis lamports) earlier) :=
      ⟨lamports, earlier, rfl⟩
    have hearlier := Transition.forall_mem_earlier (step rt) hkept hactions
    have hwatching := watching_of_run rt lamports earlier key hsupply hearlier
    have hextreme : extreme = extremeOf after.side after.entryPrice.toNat
        ((watch rt key (historyFrom rt (World.genesis lamports) earlier)).next rt key
          ⟨runFrom rt (World.genesis lamports) earlier, .invoke tx (.tickPosition accs),
            w'⟩).window := by
      rw [← step_of_ok hok, ← watch_snoc, ← historyFrom_snoc]
    rw [hextreme] at hknown ⊢
    rcases attempt_invoke_eq_ok_iff.mp hok with ⟨-, -, htick⟩
    rcases tick_written_of_ok htick with ⟨_, _, before, heff, -⟩
    have hbefore := heff.accounts.position_loaded
    rw [haccount] at hbefore
    rw [hbefore] at hwatching
    have hwatched : Watched _ before := hwatching
    exact hwatched.extreme_of_tick (reachable_invariant hreach) hbefore haccount hok hafter
      hoff hknown

end Runs

section Fired

open Localnet

/-- The price falls to 95, then through the stop at 90. -/
def fallingPrices : List Action :=
  launch ++ [deposit, push 95000000 1004, tick feeReceiver 1005, push 89000000 1006,
    tick feeReceiver 1007]

/-- Two attempts, the second below the stop: the position fires on its stop. -/
theorem trigger_semantics_fallingPrices :
    ∃ closed, (runFrom cluster (World.genesis funds) fallingPrices).positions position =
        some closed ∧
      closed.triggerReason = triggerStopLoss ∧
      FiredAtFirstHit
        (watch cluster position (historyFrom cluster (World.genesis funds) fallingPrices))
        closed := by
  have hkept : ∀ m ∈ historyFrom cluster (World.genesis funds) fallingPrices,
      ¬ CancelsAt cluster position m := by
    rintro m hm ⟨-, tx, accs, haction, -⟩
    have hmem := action_mem_of_mem_history hm
    rw [haction] at hmem
    simp [fallingPrices, launch, deposit, push, tick] at hmem
  have hfields : ((runFrom cluster (World.genesis funds) fallingPrices).positions
      position).map (fun p => (p.status, p.triggerReason)) =
        some (statusTriggered, triggerStopLoss) := by decide +kernel
  rcases Option.map_eq_some_iff.mp hfields with ⟨closed, hclosed, hvalues⟩
  simp only [Prod.mk.injEq] at hvalues
  rcases trigger_semantics cluster funds fallingPrices position funds_supply hkept hclosed
    with ⟨-, hopen | hfired, -⟩
  · have hstatus := hopen.1
    rw [hvalues.1] at hstatus
    exact absurd hstatus (by decide)
  · exact ⟨closed, hclosed, hvalues.2, hfired⟩

end Fired

end Hwal
