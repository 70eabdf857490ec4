/-
What a settlement does to every balance, whoever calls it and whichever of its
accounts coincide.  The caller only decides where the reward goes; the position
account gives up its collateral unless the fee is paid back into it.
-/
import Hwal.Custody
import Hwal.PositionMachine

namespace Hwal

open Guard

/-! ### Exact deltas -/

/-- What a settlement adds to the balance of `k`. -/
def settlementDelta (config : Config) (position : Position) (payout : Payout)
    (key keeper k : Pubkey) : Int :=
  (if k = config.feeReceiver then (payout.fee.toNat : Int) else 0) +
    (if k = keeper then (payout.keeperReward.toNat : Int) else 0) +
    (if k = position.owner then (payout.netToOwner.toNat : Int) else 0) -
    (if k = key then (position.collateral.toNat : Int) else 0)

/-- The accounts a settlement can touch. -/
def settlementAccounts (config : Config) (position : Position) (key keeper : Pubkey) :
    Finset Pubkey :=
  {key, config.feeReceiver, keeper, position.owner}

theorem PayoutOf.unique {config : Config} {collateral : UInt64} {payout payout' : Payout}
    (h : PayoutOf config collateral payout) (h' : PayoutOf config collateral payout') :
    payout = payout' := by
  have hcompute := computePayout_eq_ok_iff.mpr h
  rw [computePayout_eq_ok_iff.mpr h'] at hcompute
  exact (Except.ok.inj hcompute).symm

section Settlement

variable {rt : Runtime} {w w' : World} {tx : Tx} {accs : TickPosition} {config : Config}
  {feed : PriceFeed} {position : Position} {payout : Payout}

theorem netDelta_settlementTransfers
    (haccs : TickAccounts accs rt w tx config feed position)
    (hpayout : PayoutOf config position.collateral payout) (k : Pubkey) :
    Ledger.netDelta (settlementTransfers accs payout) k =
      settlementDelta config position payout accs.position accs.keeper k := by
  have htotal := hpayout.total
  simp only [settlementTransfers, haccs.feeReceiver_matches, haccs.owner_matches,
    Ledger.netDelta_cons, Ledger.netDelta_nil, Ledger.Transfer.delta, settlementDelta]
  by_cases hkey : k = accs.position
  · simp only [hkey, ↓reduceIte]
    omega
  · simp only [hkey, ↓reduceIte]
    omega

theorem PositionSettled.balance
    (h : PositionSettled rt w tx accs config feed position payout w') (k : Pubkey) :
    ((w'.lamports k).toNat : Int) = (w.lamports k).toNat +
      settlementDelta config position payout accs.position accs.keeper k := by
  rw [← netDelta_settlementTransfers h.accounts h.payout_of]
  exact h.paid k

theorem PositionSettled.total
    (h : PositionSettled rt w tx accs config feed position payout w') {S : Finset Pubkey}
    (hS : settlementAccounts config position accs.position accs.keeper ⊆ S) :
    ∑ k ∈ S, (w'.lamports k).toNat = ∑ k ∈ S, (w.lamports k).toNat := by
  apply h.paid.sum_eq
  intro k hk
  apply hS
  simp only [Ledger.touched, settlementTransfers, h.accounts.feeReceiver_matches,
    h.accounts.owner_matches, List.map_cons, List.map_nil, List.cons_append,
    List.nil_append, List.mem_toFinset, List.mem_cons, List.not_mem_nil, or_false] at hk
  simp only [settlementAccounts, Finset.mem_insert, Finset.mem_singleton]
  tauto

/-- Closing as TRIGGERED is what a tick does when it settles. -/
theorem settled_of_triggered (hok : tickPosition rt w tx accs = .ok w')
    (hfired : (w'.positions accs.position).map Position.status = some statusTriggered) :
    ∃ config feed position payout,
      PositionSettled rt w tx accs config feed position payout w' := by
  rcases tick_effect_of_ok hok with ⟨config, feed, position, heff⟩ | hsettled
  · have hopen := (tickPrice_eq_ok_iff.mp heff.guards).1
    rw [heff.positions, Function.update_self, Option.map_some, Option.some.injEq] at hfired
    have hclash : statusOpen = statusTriggered := hopen.symm.trans hfired
    exact absurd hclash (by decide)
  · exact hsettled

end Settlement

/-! ### Two callers -/

section Callers

variable {rt : Runtime} {w w₁ w₂ : World} {tx tx' : Tx} {accs accs' : TickPosition}
  {config config' : Config} {feed feed' : PriceFeed} {position position' : Position}

/-- Two account lists for one position load the same three records. -/
theorem TickAccounts.same_records (h : TickAccounts accs rt w tx config feed position)
    (h' : TickAccounts accs' rt w tx' config' feed' position') (hinv : Invariant rt w)
    (hkey : accs'.position = accs.position) :
    accs'.config = accs.config ∧ config' = config ∧ feed' = feed ∧ position' = position := by
  have hconfigKey : accs'.config = accs.config :=
    (hinv.configs _ _ h'.config_loaded).address.trans
      (hinv.configs _ _ h.config_loaded).address.symm
  have hconfig := h'.config_loaded
  have hposition := h'.position_loaded
  have hfeed := h'.feed_loaded
  rw [hconfigKey, h.config_loaded] at hconfig
  rw [hkey, h.position_loaded] at hposition
  obtain rfl := Option.some.inj hposition
  rw [h'.feed_matches, ← h.feed_matches, h.feed_loaded] at hfeed
  exact ⟨hconfigKey, (Option.some.inj hconfig).symm, (Option.some.inj hfeed).symm, rfl⟩

/-- Two ticks that go through at one time write the same records. -/
theorem ticks_agree (hinv : Invariant rt w) (hclock : tx'.unixTimestamp = tx.unixTimestamp)
    (hkey : accs'.position = accs.position) (hok : tickPosition rt w tx accs = .ok w₁)
    (hok' : tickPosition rt w tx' accs' = .ok w₂) :
    w₁.positions = w₂.positions ∧ w₁.configs = w₂.configs := by
  rcases tick_effect_of_ok hok with ⟨config, feed, position, heff⟩ |
    ⟨config, feed, position, payout, heff⟩
  · rcases tick_effect_of_ok hok' with ⟨_, _, _, heff'⟩ | ⟨_, _, _, _, heff'⟩
    · rcases heff.accounts.same_records heff'.accounts hinv hkey with ⟨-, rfl, rfl, rfl⟩
      rw [heff.positions, heff'.positions, heff.configs, heff'.configs, hkey, hclock]
      exact ⟨rfl, rfl⟩
    · rcases heff.accounts.same_records heff'.accounts hinv hkey with ⟨-, rfl, rfl, rfl⟩
      have hfires := heff'.fires
      rw [hclock] at hfires
      exact absurd heff.quiet hfires
  · rcases tick_effect_of_ok hok' with ⟨_, _, _, heff'⟩ | ⟨_, _, _, _, heff'⟩
    · rcases heff.accounts.same_records heff'.accounts hinv hkey with ⟨-, rfl, rfl, rfl⟩
      have hquiet := heff'.quiet
      rw [hclock] at hquiet
      exact absurd hquiet heff.fires
    · rcases heff.accounts.same_records heff'.accounts hinv hkey with ⟨hconfig, rfl, rfl, rfl⟩
      rw [heff.positions, heff'.positions, heff.configs, heff'.configs, hkey, hclock, hconfig,
        heff.payout_of.unique heff'.payout_of]
      exact ⟨rfl, rfl⟩

theorem tick_outcomes_agree (hinv : Invariant rt w)
    (hsupply : Ledger.SupplyAtMost (2 ^ 64 - 1) w.lamports)
    (hclock : tx'.unixTimestamp = tx.unixTimestamp) (hkey : accs'.position = accs.position)
    (h : TickAccounts accs rt w tx config feed position)
    (h' : TickAccounts accs' rt w tx' config' feed' position') :
    Coupled (fun w₁ w₂ => w₁.positions = w₂.positions ∧ w₁.configs = w₂.configs)
      (tickPosition rt w tx accs) (tickPosition rt w tx' accs') := by
  rcases h.same_records h' hinv hkey with ⟨-, rfl, rfl, rfl⟩
  have hleft := tickPosition_realises h hinv hsupply
  have hright := tickPosition_realises h' hinv hsupply
  rw [hclock] at hright
  cases hrecord : position'.tick feed' tx.unixTimestamp with
  | ok next =>
      rw [hrecord] at hleft hright
      rcases hleft.of_ok_right with ⟨w₁, hok, -⟩
      rcases hright.of_ok_right with ⟨w₂, hok', -⟩
      rw [hok, hok']
      exact .ok (ticks_agree hinv hclock hkey hok hok')
  | error error =>
      rw [hrecord] at hleft hright
      rw [hleft.of_error_right, hright.of_error_right]
      exact .error error

end Callers

/-! ### What each call does to the balances -/

section Balances

variable {rt : Runtime} {w w' : World} {tx : Tx}

theorem firing_balances {accs : TickPosition} {config : Config} {position : Position}
    (hok : tickPosition rt w tx accs = .ok w')
    (hfired : (w'.positions accs.position).map Position.status = some statusTriggered)
    (hconfig : w.configs accs.config = some config)
    (hposition : w.positions accs.position = some position) :
    ∃ payout, PayoutOf config position.collateral payout ∧
      (∀ k, ((w'.lamports k).toNat : Int) = (w.lamports k).toNat +
        settlementDelta config position payout accs.position accs.keeper k) ∧
      ∀ S, settlementAccounts config position accs.position accs.keeper ⊆ S →
        ∑ k ∈ S, (w'.lamports k).toNat = ∑ k ∈ S, (w.lamports k).toNat := by
  rcases settled_of_triggered hok hfired with ⟨stored, feed, loaded, payout, heff⟩
  obtain rfl := Option.some.inj (heff.accounts.config_loaded.symm.trans hconfig)
  obtain rfl := Option.some.inj (heff.accounts.position_loaded.symm.trans hposition)
  exact ⟨payout, heff.payout_of, heff.balance, fun S hS => heff.total hS⟩

theorem cancel_balances {accs : CancelPosition} {position : Position}
    (hok : cancelPosition rt w tx accs = .ok w')
    (hposition : w.positions accs.position = some position) :
    (∀ k, ((w'.lamports k).toNat : Int) = (w.lamports k).toNat +
      (if k = position.owner then (position.collateral.toNat : Int) else 0) -
      (if k = accs.position then (position.collateral.toNat : Int) else 0)) ∧
    ∀ S, {accs.position, position.owner} ⊆ S →
      ∑ k ∈ S, (w'.lamports k).toNat = ∑ k ∈ S, (w.lamports k).toNat := by
  rcases positionCancelled_of_ok hok with ⟨config, loaded, heff⟩
  obtain rfl := Option.some.inj (heff.accounts.position_loaded.symm.trans hposition)
  have hrefunded := heff.refunded
  rw [heff.accounts.owner_matches] at hrefunded
  constructor
  · intro k
    have hk := hrefunded k
    simp only [Ledger.netDelta_cons, Ledger.netDelta_nil, Ledger.Transfer.delta] at hk
    omega
  · intro S hS
    apply hrefunded.sum_eq
    simpa [Ledger.touched] using hS

/-- Two settlements of one position from one state differ only in who gets the reward. -/
theorem reward_follows_keeper {w₁ w₂ : World} {tx' : Tx} {accs accs' : TickPosition}
    (hinv : Invariant rt w) (hkey : accs'.position = accs.position)
    (hok : tickPosition rt w tx accs = .ok w₁)
    (hfired : (w₁.positions accs.position).map Position.status = some statusTriggered)
    (hok' : tickPosition rt w tx' accs' = .ok w₂)
    (hfired' : (w₂.positions accs'.position).map Position.status = some statusTriggered) :
    ∃ reward : Nat, ∀ k,
      ((w₁.lamports k).toNat : Int) - (if k = accs.keeper then (reward : Int) else 0) =
        (w₂.lamports k).toNat - (if k = accs'.keeper then (reward : Int) else 0) := by
  rcases settled_of_triggered hok hfired with ⟨config, feed, position, payout, heff⟩
  rcases settled_of_triggered hok' hfired' with ⟨_, _, _, _, heff'⟩
  rcases heff.accounts.same_records heff'.accounts hinv hkey with ⟨-, rfl, rfl, rfl⟩
  obtain rfl := heff.payout_of.unique heff'.payout_of
  refine ⟨payout.keeperReward.toNat, fun k => ?_⟩
  have hleft := heff.balance k
  have hright := heff'.balance k
  rw [settlementDelta] at hleft hright
  rw [hkey] at hright
  omega

end Balances

/-- Settlement from any reachable state: the outcome is the same for every caller whose
accounts pass, every balance changes by exactly its share, nothing is created or lost,
and only the place of the reward is the caller's to choose; a cancel moves the
collateral to the owner and nothing else. -/
theorem settlement_deltas {rt : Runtime} {w : World} (h : Reachable rt w) :
    (∀ (tx tx' : Tx) (accs accs' : TickPosition) (config config' : Config)
      (feed feed' : PriceFeed) (position position' : Position),
      tx'.unixTimestamp = tx.unixTimestamp → accs'.position = accs.position →
      TickAccounts accs rt w tx config feed position →
      TickAccounts accs' rt w tx' config' feed' position' →
      Ledger.SupplyAtMost (2 ^ 64 - 1) w.lamports →
      Coupled (fun w₁ w₂ => w₁.positions = w₂.positions ∧ w₁.configs = w₂.configs)
        (tickPosition rt w tx accs) (tickPosition rt w tx' accs')) ∧
    (∀ (tx : Tx) (accs : TickPosition) (w' : World) (config : Config) (position : Position),
      tickPosition rt w tx accs = .ok w' →
      (w'.positions accs.position).map Position.status = some statusTriggered →
      w.configs accs.config = some config → w.positions accs.position = some position →
      ∃ payout, PayoutOf config position.collateral payout ∧
        (∀ k, ((w'.lamports k).toNat : Int) = (w.lamports k).toNat +
          settlementDelta config position payout accs.position accs.keeper k) ∧
        ∀ S, settlementAccounts config position accs.position accs.keeper ⊆ S →
          ∑ k ∈ S, (w'.lamports k).toNat = ∑ k ∈ S, (w.lamports k).toNat) ∧
    (∀ (tx tx' : Tx) (accs accs' : TickPosition) (w₁ w₂ : World),
      accs'.position = accs.position → tickPosition rt w tx accs = .ok w₁ →
      (w₁.positions accs.position).map Position.status = some statusTriggered →
      tickPosition rt w tx' accs' = .ok w₂ →
      (w₂.positions accs'.position).map Position.status = some statusTriggered →
      ∃ reward : Nat, ∀ k,
        ((w₁.lamports k).toNat : Int) - (if k = accs.keeper then (reward : Int) else 0) =
          (w₂.lamports k).toNat - (if k = accs'.keeper then (reward : Int) else 0)) ∧
    ∀ (tx : Tx) (accs : CancelPosition) (w' : World) (position : Position),
      cancelPosition rt w tx accs = .ok w' → w.positions accs.position = some position →
      (∀ k, ((w'.lamports k).toNat : Int) = (w.lamports k).toNat +
        (if k = position.owner then (position.collateral.toNat : Int) else 0) -
        (if k = accs.position then (position.collateral.toNat : Int) else 0)) ∧
      ∀ S, {accs.position, position.owner} ⊆ S →
        ∑ k ∈ S, (w'.lamports k).toNat = ∑ k ∈ S, (w.lamports k).toNat := by
  have hinv := reachable_invariant h
  refine ⟨?_, ?_, ?_, ?_⟩
  · intro tx tx' accs accs' config config' feed feed' position position' hclock hkey haccs
      haccs' hsupply
    exact tick_outcomes_agree hinv hsupply hclock hkey haccs haccs'
  · intro tx accs w' config position hok hfired hconfig hposition
    exact firing_balances hok hfired hconfig hposition
  · intro tx tx' accs accs' w₁ w₂ hkey hok hfired hok' hfired'
    exact reward_follows_keeper hinv hkey hok hfired hok' hfired'
  · intro tx accs w' position hok hposition
    exact cancel_balances hok hposition

section StopDue

open Localnet

/-- Alice's stop is due. -/
def stopDue : List Action := launch ++ [deposit, push 80000000 1005]

/-- A keeper and alice herself settle it with the same outcome. -/
theorem settlement_deltas_stopDue :
    Coupled (fun w₁ w₂ => w₁.positions = w₂.positions ∧ w₁.configs = w₂.configs)
      (tickPosition cluster (runFrom cluster (World.genesis funds) stopDue) (tx keeper 1006)
        ⟨keeper, config, feed, position, alice, feeReceiver⟩)
      (tickPosition cluster (runFrom cluster (World.genesis funds) stopDue) (tx alice 1006)
        ⟨alice, config, feed, position, alice, feeReceiver⟩) := by
  have hreach : Reachable cluster (runFrom cluster (World.genesis funds) stopDue) :=
    ⟨funds, stopDue, rfl⟩
  have hsupply := reachable_supply
    (⟨funds, stopDue, funds_supply, rfl⟩ : ReachableWithSupply cluster _)
  have hkeeper : ((⟨keeper, config, feed, position, alice, feeReceiver⟩ :
      TickPosition).tryAccounts cluster (runFrom cluster (World.genesis funds) stopDue)
        (tx keeper 1006)).isOk = true := by decide +kernel
  have halice : ((⟨alice, config, feed, position, alice, feeReceiver⟩ :
      TickPosition).tryAccounts cluster (runFrom cluster (World.genesis funds) stopDue)
        (tx alice 1006)).isOk = true := by decide +kernel
  rcases exists_ok_of_isOk hkeeper with ⟨⟨_, _, _⟩, hkeeperOk⟩
  rcases exists_ok_of_isOk halice with ⟨⟨_, _, _⟩, haliceOk⟩
  exact (settlement_deltas hreach).1 _ _ _ _ _ _ _ _ _ _ rfl rfl
    (tickPosition_tryAccounts_eq_ok_iff.mp hkeeperOk)
    (tickPosition_tryAccounts_eq_ok_iff.mp haliceOk) hsupply

end StopDue

/-! ### Emptied accounts -/

/-- A tick that closes the position at `key`. -/
def FiresAt (rt : Runtime) (key : Pubkey) (m : Moment) : Prop :=
  Succeeded rt m ∧ ∃ tx accs, m.action = .invoke tx (.tickPosition accs) ∧
    accs.position = key ∧ (m.after.positions key).map Position.status = some statusTriggered

/-- The account gave up exactly its collateral, and the fee counter grew by no more than
what left the account besides the shares of keeper and owner. -/
def Emptied (rt : Runtime) (key : Pubkey) (m : Moment) : Prop :=
  ∃ position config config' payout, m.before.positions key = some position ∧
    m.before.configs rt.configAddress = some config ∧
    m.after.configs rt.configAddress = some config' ∧
    PayoutOf config position.collateral payout ∧
    (m.after.lamports key).toNat + position.collateral.toNat =
      (m.before.lamports key).toNat ∧
    config'.totalFeesCollected.toNat + payout.keeperReward.toNat + payout.netToOwner.toNat ≤
      config.totalFeesCollected.toNat + outflow key m

theorem FiresAt.settled {rt : Runtime} {key : Pubkey} {m : Moment} (h : FiresAt rt key m) :
    ∃ tx accs config feed position payout, accs.position = key ∧ tx.authentic rt = true ∧
      PositionSettled rt m.before tx accs config feed position payout m.after := by
  rcases h with ⟨hok, tx, accs, haction, rfl, hfired⟩
  rw [Succeeded, haction] at hok
  rcases attempt_invoke_eq_ok_iff.mp hok with ⟨htx, -, hexec⟩
  rcases settled_of_triggered hexec hfired with ⟨config, feed, position, payout, heff⟩
  exact ⟨tx, accs, config, feed, position, payout, rfl, htx, heff⟩

/-- Only a fee that is paid back into the account keeps it from being emptied. -/
theorem PositionSettled.emptied_iff {rt : Runtime} {m : Moment} {tx : Tx}
    {accs : TickPosition} {config : Config} {feed : PriceFeed} {position : Position}
    {payout : Payout}
    (h : PositionSettled rt m.before tx accs config feed position payout m.after)
    (hinv : Invariant rt m.before) (htx : tx.authentic rt = true) :
    Emptied rt accs.position m ↔
      ¬ (config.feeReceiver = accs.position ∧ 0 < payout.fee.toNat) := by
  have hsound := hinv.positions _ _ h.accounts.position_loaded
  have haddress := (hinv.configs _ _ h.accounts.config_loaded).address
  have hleft := h.left_behind hsound htx
  have htotal := h.payout_of.total
  constructor
  · rintro ⟨loaded, _, _, _, hloaded, -, -, -, hexact, -⟩ ⟨hself, hfee⟩
    obtain rfl := Option.some.inj (hloaded.symm.trans h.accounts.position_loaded)
    rw [if_pos hself] at hleft
    omega
  · intro hfee
    have hexact : (m.after.lamports accs.position).toNat + position.collateral.toNat =
        (m.before.lamports accs.position).toNat := by
      by_cases hself : config.feeReceiver = accs.position
      · have hzero : ¬ 0 < payout.fee.toNat := fun hpos => hfee ⟨hself, hpos⟩
        rw [if_pos hself] at hleft
        omega
      · rw [if_neg hself] at hleft
        omega
    refine ⟨position, config, config.countTriggered payout, payout,
      h.accounts.position_loaded, ?_, ?_, h.payout_of, hexact, ?_⟩
    · rw [← haddress]
      exact h.accounts.config_loaded
    · rw [h.configs, haddress, Function.update_self]
    · have hgrowth : (config.countTriggered payout).totalFeesCollected.toNat ≤
          config.totalFeesCollected.toNat + payout.fee.toNat := by
        simp only [Config.countTriggered, UInt64.toNat_saturatingAdd]
        omega
      rw [outflow]
      omega

/-- Every settlement of every run empties the account it settles, except when the fee
receiver of the moment is that account and the fee is not rounded down to nothing. -/
theorem settlement_empties_iff (rt : Runtime) (lamports : Lamports) (actions : List Action)
    {m : Moment} (hm : m ∈ historyFrom rt (World.genesis lamports) actions) {key : Pubkey}
    (h : FiresAt rt key m) {config : Config} {position : Position}
    (hconfig : m.before.configs rt.configAddress = some config)
    (hposition : m.before.positions key = some position) :
    Emptied rt key m ↔ ¬ (config.feeReceiver = key ∧
      0 < position.collateral.toNat * config.feeBps.toNat / 10000) := by
  have hinv := invariant_of_mem_history hm
  rcases h.settled with ⟨tx, accs, stored, feed, loaded, payout, rfl, htx, heff⟩
  have hstored := heff.accounts.config_loaded
  rw [(hinv.configs _ _ hstored).address] at hstored
  obtain rfl := Option.some.inj (hstored.symm.trans hconfig)
  obtain rfl := Option.some.inj (heff.accounts.position_loaded.symm.trans hposition)
  rw [← heff.payout_of.fee]
  exact heff.emptied_iff hinv htx

section Localnet

open Localnet

def stopTick : Moment :=
  momentAt cluster (World.genesis funds) stopDue (tick feeReceiver 1006)

/-- With a fee receiver of its own the settlement empties the account. -/
theorem stopTick_emptied : Emptied cluster position stopTick := by
  have hm : stopTick ∈ historyFrom cluster (World.genesis funds)
      (stopDue ++ [tick feeReceiver 1006]) :=
    momentAt_mem_history cluster _ stopDue [] (tick feeReceiver 1006)
  have hsettles : FiresAt cluster position stopTick :=
    ⟨succeeded_of_isOk (by decide +kernel), _, _, rfl, rfl, by decide +kernel⟩
  have hreceiver : (stopTick.before.configs cluster.configAddress).map Config.feeReceiver =
      some feeReceiver := by decide +kernel
  have hstatus : (stopTick.before.positions position).map Position.status =
      some statusOpen := by decide +kernel
  rcases Option.map_eq_some_iff.mp hreceiver with ⟨stored, hstored, hstoredReceiver⟩
  rcases Option.map_eq_some_iff.mp hstatus with ⟨opened, hopened, -⟩
  rw [settlement_empties_iff cluster funds _ hm hsettles hstored hopened, hstoredReceiver]
  rintro ⟨hself, -⟩
  exact absurd hself (by decide)

/-- The tick that ends the run in which the position account receives the fee. -/
def redirectedTick : Moment :=
  momentAt cluster (World.genesis funds) redirected.dropLast (tick position 1006)

/-- The half percent fee of 250000 lamports is counted and stays where it was. -/
theorem redirectedTick_not_emptied :
    redirectedTick ∈ historyFrom cluster (World.genesis funds) redirected ∧
      FiresAt cluster position redirectedTick ∧ ¬ Emptied cluster position redirectedTick := by
  refine ⟨momentAt_mem_history cluster _ redirected.dropLast [] (tick position 1006),
    ⟨succeeded_of_isOk (by decide +kernel), _, _, rfl, rfl, by decide +kernel⟩, ?_⟩
  rintro ⟨loaded, -, -, -, hloaded, -, -, -, hexact, -⟩
  have hcollateral : (redirectedTick.before.positions position).map Position.collateral =
      some 50000000 := by decide +kernel
  rw [hloaded, Option.map_some, Option.some.injEq] at hcollateral
  have hafter : redirectedTick.after.lamports position =
      redirectedTick.before.lamports position - 49750000 := by decide +kernel
  rw [hafter, hcollateral] at hexact
  exact absurd hexact (by decide +kernel)

end Localnet

end Hwal
