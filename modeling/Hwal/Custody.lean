/-
Custody of collateral: a position account covers what is written in it, its
deposit leaves in one payment with a fixed destination, and the payment takes
the whole deposit out unless the fee is paid back into the account itself.
-/
import Hwal.Lifecycle

namespace Hwal

open Guard

/-- All lamports that left `key` in a run. -/
def totalOutflow (rt : Runtime) (lamports : Lamports) (actions : List Action)
    (key : Pubkey) : Nat :=
  Transition.total (step rt) (outflow key) (World.genesis lamports) actions

/-- A settlement: fee, keeper reward and net, which add up to the deposit. -/
def PaidOnTrigger (key owner : Pubkey) (deposit : Nat) (m : Moment) : Prop :=
  ∃ (tx : Tx) (accs : TickPosition) (config : Config) (payout : Payout),
    m.action = .invoke tx (.tickPosition accs) ∧ accs.position = key ∧
    m.before.configs accs.config = some config ∧
    payout.fee.toNat = deposit * config.feeBps.toNat / 10000 ∧
    payout.keeperReward.toNat = deposit * config.keeperRewardBps.toNat / 10000 ∧
    payout.fee.toNat + payout.keeperReward.toNat + payout.netToOwner.toNat = deposit ∧
    Ledger.Moved [⟨key, config.feeReceiver, payout.fee.toNat⟩,
      ⟨key, accs.keeper, payout.keeperReward.toNat⟩, ⟨key, owner, payout.netToOwner.toNat⟩]
      m.before.lamports m.after.lamports

/-- A refund: the whole deposit to the owner. -/
def RefundedOnCancel (key owner : Pubkey) (deposit : Nat) (m : Moment) : Prop :=
  ∃ tx accs, m.action = .invoke tx (.cancelPosition accs) ∧ accs.position = key ∧
    Ledger.Moved [⟨key, owner, deposit⟩] m.before.lamports m.after.lamports

/-- The step that closed the position, by the status it left. -/
def PaidOut (key : Pubkey) (position : Position) (deposit : Nat) (m : Moment) : Prop :=
  position.status = statusTriggered ∧ PaidOnTrigger key position.owner deposit m ∨
    position.status = statusCancelled ∧ RefundedOnCancel key position.owner deposit m

/-- What a run guarantees for the position at `key`, whoever the payees are. -/
structure Payments (rt : Runtime) (lamports : Lamports) (actions : List Action)
    (key : Pubkey) (position : Position) (deposit : Nat) : Prop where
  funded : rt.positionRent + position.collateral.toNat ≤
    ((runFrom rt (World.genesis lamports) actions).lamports key).toNat
  deposited : ∃ m ∈ historyFrom rt (World.genesis lamports) actions, OpensAt rt key deposit m
  held : position.status = statusOpen → position.collateral.toNat = deposit ∧
    ∀ m ∈ historyFrom rt (World.genesis lamports) actions, Quiet key m
  paid : position.status ≠ statusOpen → ∃ earlier m later,
    historyFrom rt (World.genesis lamports) actions = earlier ++ m :: later ∧
      PaidOut key position deposit m ∧ ∀ m' ∈ earlier ++ later, Quiet key m'

/-- The custody law of a run: every position's payments are as above and take out
exactly its deposit, and no owner opens twice under one nonce. -/
def CustodyLaw (rt : Runtime) (lamports : Lamports) (actions : List Action) : Prop :=
  (∀ key position,
    (runFrom rt (World.genesis lamports) actions).positions key = some position →
    ∃ deposit, Payments rt lamports actions key position deposit ∧
      totalOutflow rt lamports actions key =
        if position.status = statusOpen then 0 else deposit) ∧
  ∀ owner nonce, (historyFrom rt (World.genesis lamports) actions).Pairwise
    fun m m' => ¬ (Opens rt owner nonce m ∧ Opens rt owner nonce m')

/-- A settlement of the position at `key` whose fee goes back into that account. -/
def FeeStaysBehind (rt : Runtime) (key : Pubkey) (m : Moment) : Prop :=
  Succeeded rt m ∧ ∃ tx accs config feed position,
    m.action = .invoke tx (.tickPosition accs) ∧ accs.position = key ∧
    TickEvaluated rt m.before tx accs config feed position ∧
    (position.observe feed.price tx.unixTimestamp).firstHit feed.price ≠ triggerNone ∧
    config.feeReceiver = key ∧
    0 < position.collateral.toNat * config.feeBps.toNat / 10000

section Settlement

variable {rt : Runtime} {w w' : World} {tx : Tx} {accs : TickPosition} {config : Config}
  {feed : PriceFeed} {position : Position} {payout : Payout}

theorem PositionSettled.paidOnTrigger
    (h : PositionSettled rt w tx accs config feed position payout w') :
    PaidOnTrigger accs.position position.owner position.collateral.toNat
      ⟨w, .invoke tx (.tickPosition accs), w'⟩ := by
  refine ⟨tx, accs, config, payout, rfl, rfl, h.accounts.config_loaded, h.payout_of.fee,
    h.payout_of.keeperReward, h.payout_of.total, ?_⟩
  have hpaid := h.paid
  rw [settlementTransfers, h.accounts.feeReceiver_matches, h.accounts.owner_matches] at hpaid
  exact hpaid

/-- Of the three payees only the fee receiver can be the position account. -/
theorem PositionSettled.left_behind
    (h : PositionSettled rt w tx accs config feed position payout w')
    (hsound : PositionSound rt w accs.position position)
    (htx : tx.authentic rt = true) :
    (w.lamports accs.position).toNat + (if config.feeReceiver = accs.position
        then payout.fee.toNat else 0) =
      (w'.lamports accs.position).toNat + position.collateral.toNat := by
  have hkeeper := hsound.derived.ne_signer htx h.accounts.keeper_signs
  have howner := hsound.ne_owner
  have htotal := h.payout_of.total
  have hnet := h.paid accs.position
  rw [settlementTransfers, h.accounts.feeReceiver_matches, h.accounts.owner_matches] at hnet
  simp only [Ledger.netDelta_cons, Ledger.netDelta_nil, Ledger.Transfer.delta, hkeeper,
    howner, ↓reduceIte] at hnet
  by_cases hself : config.feeReceiver = accs.position
  · simp only [hself, ↓reduceIte] at hnet ⊢
    omega
  · simp only [hself, Ne.symm hself, ↓reduceIte] at hnet ⊢
    omega

end Settlement

theorem Payment.paidOut {rt : Runtime} {key : Pubkey} {deposit : Nat} {position : Position}
    {m : Moment} (h : Payment rt key deposit position m) : PaidOut key position deposit m := by
  cases h with
  | settled account ok heff amount record =>
      subst account amount record
      exact Or.inl ⟨rfl, heff.paidOnTrigger⟩
  | @refunded w tx accs config before w' account ok heff amount record =>
      subst account amount record
      refine Or.inr ⟨rfl, tx, accs, rfl, rfl, ?_⟩
      have hmoved := heff.refunded
      rw [heff.accounts.owner_matches] at hmoved
      exact hmoved

/-! ### What leaves in the paying step -/

theorem fee_lt_collateral {config : Config} {collateral : UInt64} {payout : Payout}
    (h : PayoutOf config collateral payout) (hcapped : config.RatesCapped)
    (hfee : 0 < payout.fee.toNat) : payout.fee.toNat < collateral.toNat := by
  have hle := (h.shares_le hcapped).1
  omega

/-- A settlement whose fee stays behind takes out less than the collateral, but
takes out something. -/
theorem FeeStaysBehind.outflow {rt : Runtime} {key : Pubkey} {m : Moment}
    (h : FeeStaysBehind rt key m) (hinv : Invariant rt m.before) :
    ∃ position, m.before.positions key = some position ∧ m.action.PaysFrom key ∧
      0 < outflow key m ∧ outflow key m < position.collateral.toNat := by
  rcases h with ⟨hok, tx, accs, config, feed, position, haction, hkey, heval, hfires, hself,
    hfee⟩
  subst hkey
  rcases m with ⟨w, action, w'⟩
  dsimp only at haction hinv heval
  subst haction
  change attempt rt w (.invoke tx (.tickPosition accs)) = .ok w' at hok
  rcases attempt_invoke_eq_ok_iff.mp hok with ⟨htx, -, hexec⟩
  rcases heval.settled_of_ok hfires hexec with ⟨payout, hsettled⟩
  have hsound := hinv.positions _ _ heval.accounts.position_loaded
  have hcapped := (hinv.configs _ _ heval.accounts.config_loaded).capped
  have hleft := hsettled.left_behind hsound htx
  have hpos : 0 < payout.fee.toNat := by
    rw [hsettled.payout_of.fee]
    exact hfee
  have hless := fee_lt_collateral hsettled.payout_of hcapped hpos
  rw [if_pos hself] at hleft
  refine ⟨position, heval.accounts.position_loaded, rfl, ?_, ?_⟩
  · simp only [Hwal.outflow]
    omega
  · simp only [Hwal.outflow]
    omega

theorem FeeStaysBehind.not_quiet {rt : Runtime} {key : Pubkey} {m : Moment}
    (h : FeeStaysBehind rt key m) (hinv : Invariant rt m.before) : ¬ Quiet key m := by
  rcases h.outflow hinv with ⟨position, -, hpays, hpos, -⟩
  intro hquiet
  have hsame := hquiet.2 hpays
  rw [Hwal.outflow, hsame] at hpos
  omega

/-- A payment takes out the whole deposit, unless its fee stays behind. -/
theorem Payment.outflow {rt : Runtime} {key : Pubkey} {deposit : Nat} {position : Position}
    {m : Moment} (h : Payment rt key deposit position m) (hinv : Invariant rt m.before)
    (hfee : ¬ FeeStaysBehind rt key m) : outflow key m = deposit := by
  cases h with
  | @settled w tx accs config feed before payout w' account ok heff amount record =>
      subst account amount
      have hsound := hinv.positions _ _ heff.accounts.position_loaded
      have hleft := heff.left_behind hsound (attempt_authentic ok)
      have hzero : (if config.feeReceiver = accs.position then payout.fee.toNat else 0) = 0 := by
        by_cases hself : config.feeReceiver = accs.position
        · rw [if_pos hself]
          by_contra hne
          apply hfee
          refine ⟨ok, tx, accs, config, feed, before, rfl, rfl, heff.toTickEvaluated,
            heff.fires, hself, ?_⟩
          rw [← heff.payout_of.fee]
          omega
        · rw [if_neg hself]
      simp only [Hwal.outflow]
      omega
  | @refunded w tx accs config before w' account ok heff amount record =>
      subst account amount
      have hsound := hinv.positions _ _ heff.accounts.position_loaded
      have hne := hsound.ne_owner
      have hmoved := heff.refunded accs.position
      rw [heff.accounts.owner_matches] at hmoved
      simp only [Ledger.netDelta_cons, Ledger.netDelta_nil, Ledger.Transfer.delta, hne,
        ↓reduceIte] at hmoved
      simp only [Hwal.outflow]
      omega

theorem Payment.amount {rt : Runtime} {key : Pubkey} {deposit : Nat} {position before : Position}
    {m : Moment} (h : Payment rt key deposit position m)
    (hbefore : m.before.positions key = some before) : before.collateral.toNat = deposit := by
  cases h with
  | settled account ok heff amount record =>
      subst account
      rw [heff.accounts.position_loaded] at hbefore
      rw [← Option.some.inj hbefore]
      exact amount
  | refunded account ok heff amount record =>
      subst account
      rw [heff.accounts.position_loaded] at hbefore
      rw [← Option.some.inj hbefore]
      exact amount

section Runs

variable (rt : Runtime) (lamports : Lamports) (actions : List Action)

/-- Whatever happens in a run, each position's lamports follow its life cycle: as
long as it is open nothing has left, and afterwards one payment has. -/
theorem payments_of_run {key : Pubkey} {position : Position}
    (hposition :
      (runFrom rt (World.genesis lamports) actions).positions key = some position) :
    ∃ deposit, Payments rt lamports actions key position deposit ∧
      (position.status = statusOpen ∧ totalOutflow rt lamports actions key = 0 ∨
        position.status ≠ statusOpen ∧
          ∃ m ∈ historyFrom rt (World.genesis lamports) actions,
            Payment rt key deposit position m ∧
            totalOutflow rt lamports actions key = outflow key m ∧
            ∀ m' ∈ historyFrom rt (World.genesis lamports) actions, m' = m ∨ Quiet key m') := by
  have hinv : Invariant rt (runFrom rt (World.genesis lamports) actions) :=
    reachable_invariant ⟨lamports, actions, rfl⟩
  have hkey := (hinv.positions key position hposition).derived
  have hfunded := hinv.funded key position hposition
  have hlife := lifecycle_of_run rt lamports actions hkey
  rw [hposition] at hlife
  cases hlife with
  | held isOpen deposited quiet =>
      refine ⟨_, ⟨hfunded, deposited, fun _ => ⟨rfl, quiet⟩,
        fun hclosed => absurd isOpen hclosed⟩, Or.inl ⟨isOpen, ?_⟩⟩
      exact sum_outflow_quiet quiet
  | @paid _ deposit closed deposited earlier m later split payment quiet =>
      refine ⟨deposit, ⟨hfunded, deposited, fun hopen => absurd hopen closed,
        fun _ => ⟨earlier, m, later, split, payment.paidOut, quiet⟩⟩,
        Or.inr ⟨closed, m, ?_, payment, ?_, ?_⟩⟩
      · rw [split]
        exact List.mem_append_right _ List.mem_cons_self
      · rw [totalOutflow, Transition.total]
        change ((historyFrom rt (World.genesis lamports) actions).map (outflow key)).sum = _
        rw [split]
        exact sum_outflow_split quiet
      · intro m' hm'
        rw [split] at hm'
        rcases List.mem_append.mp hm' with hearlier | hrest
        · exact Or.inr (quiet m' (List.mem_append_left later hearlier))
        · rcases List.mem_cons.mp hrest with hsame | hlater
          · exact Or.inl hsame
          · exact Or.inr (quiet m' (List.mem_append_right earlier hlater))

/-- The deposit of a position is determined by the run. -/
theorem deposit_unique {key : Pubkey} {amount amount' : Nat}
    (h : ∃ m ∈ historyFrom rt (World.genesis lamports) actions, OpensAt rt key amount m)
    (h' : ∃ m ∈ historyFrom rt (World.genesis lamports) actions, OpensAt rt key amount' m) :
    amount = amount' := by
  rcases h with ⟨m, hm, hopens⟩
  rcases h' with ⟨m', hm', hopens'⟩
  have honce := opensAt_once rt lamports actions key
  have hsame : m = m' := by
    have hsymm : Std.Symm fun a b : Moment =>
        ¬ ((∃ amount, OpensAt rt key amount a) ∧ ∃ amount, OpensAt rt key amount b) :=
      ⟨fun a b hnot hboth => hnot ⟨hboth.2, hboth.1⟩⟩
    by_contra hne
    exact honce.forall hm hm' hne ⟨⟨_, hopens⟩, ⟨_, hopens'⟩⟩
  subst hsame
  rcases hopens with ⟨-, tx, accs, args, haction, -, hamount⟩
  rcases hopens' with ⟨-, tx', accs', args', haction', -, hamount'⟩
  rw [haction] at haction'
  simp only [Action.invoke.injEq, Instruction.openPosition.injEq] at haction'
  rw [← hamount, ← hamount', haction'.2.2]

/-- A run keeps the custody law exactly when none of its settlements pays the fee
back into the position account it settles. -/
theorem custodyLaw_iff :
    CustodyLaw rt lamports actions ↔
      ∀ m ∈ historyFrom rt (World.genesis lamports) actions, ∀ key,
        ¬ FeeStaysBehind rt key m := by
  constructor
  · rintro ⟨hlaw, -⟩ m hm key hstays
    have hinv := invariant_of_mem_history hm
    rcases hstays.outflow hinv with ⟨before, hbefore, -, -, hless⟩
    rcases positions_persist_of_mem_history rt hm hbefore with ⟨position, hposition⟩
    rcases hlaw key position hposition with ⟨deposit, hpayments, hexact⟩
    rcases payments_of_run rt lamports actions hposition with
      ⟨deposit', hpayments', ⟨hopen, -⟩ | ⟨hclosed, payer, hpayer, hpayment, htotal, honly⟩⟩
    · exact hstays.not_quiet hinv ((hpayments.held hopen).2 m hm)
    · have hdeposit := deposit_unique rt lamports actions hpayments.deposited
        hpayments'.deposited
      rcases honly m hm with rfl | hquiet
      · have hamount := hpayment.amount hbefore
        rw [if_neg hclosed, htotal] at hexact
        omega
      · exact hstays.not_quiet hinv hquiet
  · intro hfees
    constructor
    · intro key position hposition
      rcases payments_of_run rt lamports actions hposition with ⟨deposit, hpayments, htotal⟩
      refine ⟨deposit, hpayments, ?_⟩
      rcases htotal with ⟨hopen, htotal⟩ | ⟨hclosed, m, hm, hpayment, htotal, -⟩
      · rw [if_pos hopen, htotal]
      · rw [if_neg hclosed, htotal]
        exact hpayment.outflow (invariant_of_mem_history hm) (hfees m hm key)
    · intro owner nonce
      apply (opensAt_once rt lamports actions (rt.positionAddress owner nonce)).imp
      intro m m' hnot hboth
      exact hnot ⟨hboth.1.opensAt, hboth.2.opensAt⟩

end Runs

section Redirected

open Localnet

/-- The admin makes the position account the fee receiver, then its stop is hit. -/
def redirected : List Action :=
  launch ++ deposit ::
    [.invoke (tx admin 1004) (.updateConfig ⟨admin, config⟩ none (some position) none none),
      push 80000000 1005, tick position 1006]

/-- The half percent fee of 250000 lamports never leaves the closed position. -/
theorem redirected_breaks_custodyLaw : ¬ CustodyLaw cluster funds redirected := by
  rintro ⟨hlaw, -⟩
  have hstatus : ((runFrom cluster (World.genesis funds) redirected).positions position).map
      Position.status = some statusTriggered := by decide +kernel
  have hout : totalOutflow cluster funds redirected position = 49750000 := by decide +kernel
  rcases Option.map_eq_some_iff.mp hstatus with ⟨closed, hclosed, hclosedStatus⟩
  rcases hlaw position closed hclosed with ⟨amount, hpayments, htotal⟩
  have hopens : ∃ m ∈ historyFrom cluster (World.genesis funds) redirected,
      OpensAt cluster position 50000000 m := by
    refine ⟨_, momentAt_mem_history cluster _ launch _ deposit, ?_, ?_⟩
    · exact succeeded_of_isOk (by decide +kernel)
    · exact ⟨_, _, _, rfl, rfl, rfl⟩
  have hamount := deposit_unique cluster funds redirected hpayments.deposited hopens
  have hnotOpen : closed.status ≠ statusOpen := by
    rw [hclosedStatus]
    decide
  rw [if_neg hnotOpen, hout] at htotal
  omega

end Redirected

end Hwal
