/-
Settlements under the platform's rent rule: what each payee is left with, measured
against the least balance its account may hold.  The owner's share is always large
enough; the shares of fee receiver and keeper are not.
-/
import Hwal.Coherence
import Hwal.SettlementDeltas

namespace Hwal

/-! ### The rule -/

/-- The data sizes of all accounts, as the platform keeps them. -/
structure DataSizes (rt : Runtime) (w : World) (dataLen : Pubkey → Nat) : Prop where
  empty_minimum : rt.minimumBalance 0 = 890880
  empty : ∀ key, w.lamports key = 0 → dataLen key = 0
  position : ∀ key position, w.positions key = some position → dataLen key = positionSpace

theorem DataSizes.positionMinimum {rt : Runtime} {w : World} {dataLen : Pubkey → Nat}
    (h : DataSizes rt w dataLen) {key : Pubkey} {position : Position}
    (hposition : w.positions key = some position) :
    (rt.minimumBalance (dataLen key)).toNat = rt.positionRent := by
  rw [h.position key position hposition, Runtime.positionRent]

/-- An account that does not exist, or that covers the minimum for its data. -/
def EmptyOrExempt (rt : Runtime) (dataLen : Pubkey → Nat) (lamports : Lamports)
    (key : Pubkey) : Prop :=
  lamports key = 0 ∨ rt.minimumBalance (dataLen key) ≤ lamports key

theorem emptyOrExempt_iff {rt : Runtime} {dataLen : Pubkey → Nat} {lamports : Lamports}
    {key : Pubkey} :
    EmptyOrExempt rt dataLen lamports key ↔ (lamports key).toNat = 0 ∨
      (rt.minimumBalance (dataLen key)).toNat ≤ (lamports key).toNat := by
  rw [EmptyOrExempt, UInt64.le_iff_toNat_le, ← UInt64.toNat_inj, UInt64.toNat_zero]

/-- The check after every instruction: no account is left below its minimum that was not
there before. -/
def RentAccepted (rt : Runtime) (dataLen : Pubkey → Nat) (lamports lamports' : Lamports) :
    Prop :=
  ∀ key, EmptyOrExempt rt dataLen lamports key → EmptyOrExempt rt dataLen lamports' key

/-- A settlement the rule lets through, every payee of which ends empty or above its
minimum, as does the position account. -/
structure RentSafe (rt : Runtime) (dataLen : Pubkey → Nat) (payees : List Pubkey)
    (key : Pubkey) (lamports lamports' : Lamports) : Prop where
  accepted : RentAccepted rt dataLen lamports lamports'
  payees : ∀ payee ∈ payees, EmptyOrExempt rt dataLen lamports' payee
  position : rt.positionRent ≤ (lamports' key).toNat

/-! ### The shares -/

/-- What a payee gets, by the formulas of the handler. -/
def shareOf (config : Config) (position : Position) (keeper payee : Pubkey) : Nat :=
  let fee := position.collateral.toNat * config.feeBps.toNat / 10000
  let reward := position.collateral.toNat * config.keeperRewardBps.toNat / 10000
  (if payee = config.feeReceiver then fee else 0) + (if payee = keeper then reward else 0) +
    (if payee = position.owner then position.collateral.toNat - fee - reward else 0)

/-- A payee without an account is to get less than the least balance of one. -/
def DustShare (config : Config) (position : Position) (keeper : Pubkey) (lamports : Lamports) :
    Prop :=
  ∃ payee ∈ [config.feeReceiver, keeper], payee ≠ position.owner ∧ lamports payee = 0 ∧
    0 < shareOf config position keeper payee ∧ shareOf config position keeper payee < 890880

/-- A payee below its minimum is not lifted to it. -/
def StaysBelow (rt : Runtime) (dataLen : Pubkey → Nat) (config : Config) (position : Position)
    (keeper : Pubkey) (lamports : Lamports) : Prop :=
  ∃ payee ∈ [config.feeReceiver, keeper, position.owner], 0 < (lamports payee).toNat ∧
    (lamports payee).toNat + shareOf config position keeper payee <
      (rt.minimumBalance (dataLen payee)).toNat

/-- Capped rates leave the owner of any accepted deposit more than an empty account's
minimum. -/
theorem owner_share_covers {config : Config} {position : Position} (keeper : Pubkey)
    (hcapped : config.RatesCapped) (hdeposit : minCollateralLamports ≤ position.collateral) :
    890880 ≤ shareOf config position keeper position.owner := by
  have hmin : 1000000 ≤ position.collateral.toNat := UInt64.le_iff_toNat_le.mp hdeposit
  rcases capped_shares_le hcapped position.collateral.toNat with ⟨hfee, hreward⟩
  simp only [shareOf, ↓reduceIte]
  omega

theorem mem_payees_of_share_pos {config : Config} {position : Position} {keeper payee : Pubkey}
    (h : 0 < shareOf config position keeper payee) (howner : payee ≠ position.owner) :
    payee ∈ [config.feeReceiver, keeper] := by
  by_contra hnot
  simp only [List.mem_cons, List.not_mem_nil, or_false, not_or] at hnot
  simp only [shareOf, hnot.1, hnot.2, howner, ↓reduceIte] at h
  omega

/-! ### Settlements -/

section Settlement

variable {rt : Runtime} {w w' : World} {tx : Tx} {accs : TickPosition} {config : Config}
  {feed : PriceFeed} {position : Position} {payout : Payout} {dataLen : Pubkey → Nat}

theorem PositionSettled.share_received
    (h : PositionSettled rt w tx accs config feed position payout w') {key : Pubkey}
    (hkey : key ≠ accs.position) :
    (w'.lamports key).toNat =
      (w.lamports key).toNat + shareOf config position accs.keeper key := by
  have hbalance := h.balance key
  have htotal := h.payout_of.total
  have hnet : position.collateral.toNat - payout.fee.toNat - payout.keeperReward.toNat =
      payout.netToOwner.toNat := by omega
  rw [settlementDelta, if_neg hkey] at hbalance
  simp only [shareOf, ← h.payout_of.fee, ← h.payout_of.keeperReward, hnet]
  split_ifs at hbalance ⊢ <;> omega

/-- An open position account holds its rent and its deposit. -/
theorem PositionSettled.funded (h : PositionSettled rt w tx accs config feed position payout w')
    (hreach : Reachable rt w) :
    rt.positionRent + 1000000 ≤ (w.lamports accs.position).toNat := by
  have hfunded := (reachable_invariant hreach).funded _ _ h.accounts.position_loaded
  have hopen := (tickPrice_eq_ok_iff.mp h.guards).1
  have hdeposit := (reachable_coherent hreach h.accounts.position_loaded).deposit hopen
  have hmin : 1000000 ≤ position.collateral.toNat := UInt64.le_iff_toNat_le.mp hdeposit
  omega

theorem PositionSettled.rent_kept
    (h : PositionSettled rt w tx accs config feed position payout w')
    (hreach : Reachable rt w) : rt.positionRent ≤ (w'.lamports accs.position).toNat := by
  have hfunded := (reachable_invariant hreach).funded _ _ h.accounts.position_loaded
  have hkept := settlement_keeps_rent h.payout_of h.paid
  omega

/-- An account that was empty stays below its minimum only as a dust share. -/
theorem PositionSettled.accepted
    (h : PositionSettled rt w tx accs config feed position payout w')
    (hreach : Reachable rt w) (hsizes : DataSizes rt w dataLen)
    (hdust : ¬ DustShare config position accs.keeper w.lamports) :
    RentAccepted rt dataLen w.lamports w'.lamports := by
  intro key hbefore
  rw [emptyOrExempt_iff] at hbefore ⊢
  by_cases hkey : key = accs.position
  · right
    rw [hkey, hsizes.positionMinimum h.accounts.position_loaded]
    exact h.rent_kept hreach
  · have hshare := h.share_received hkey
    rcases hbefore with hempty | hexempt
    · have hzero : w.lamports key = 0 := by
        rw [← UInt64.toNat_inj, hempty, UInt64.toNat_zero]
      have hminimum : (rt.minimumBalance (dataLen key)).toNat = 890880 := by
        rw [hsizes.empty key hzero, hsizes.empty_minimum]
        rfl
      by_cases hpos : 0 < shareOf config position accs.keeper key
      · have hcovers : 890880 ≤ shareOf config position accs.keeper key := by
          by_cases howner : key = position.owner
          · have hopen := (tickPrice_eq_ok_iff.mp h.guards).1
            have hcapped := ((reachable_invariant hreach).configs _ _
              h.accounts.config_loaded).capped
            rw [howner]
            exact owner_share_covers accs.keeper hcapped
              ((reachable_coherent hreach h.accounts.position_loaded).deposit hopen)
          · by_contra hless
            exact hdust ⟨key, mem_payees_of_share_pos hpos howner, howner, hzero, hpos,
              Nat.lt_of_not_le hless⟩
        omega
      · omega
    · omega

/-- A payee with no account is not left with a share it cannot hold. -/
theorem PositionSettled.not_dustShare
    (h : PositionSettled rt w tx accs config feed position payout w')
    (hreach : Reachable rt w) (hsizes : DataSizes rt w dataLen)
    (hsafe : RentSafe rt dataLen [config.feeReceiver, accs.keeper, position.owner]
      accs.position w.lamports w'.lamports) :
    ¬ DustShare config position accs.keeper w.lamports := by
  rintro ⟨payee, hpayee, -, hzero, hpos, hless⟩
  have hfunded := h.funded hreach
  have hne : payee ≠ accs.position := by
    rintro rfl
    rw [hzero, UInt64.toNat_zero] at hfunded
    omega
  have hmem : payee ∈ [config.feeReceiver, accs.keeper, position.owner] := by
    simp only [List.mem_cons, List.not_mem_nil, or_false] at hpayee ⊢
    tauto
  have hafter := emptyOrExempt_iff.mp (hsafe.payees payee hmem)
  rw [h.share_received hne, hzero, hsizes.empty payee hzero, hsizes.empty_minimum] at hafter
  have hvalue : (890880 : UInt64).toNat = 890880 := rfl
  rw [UInt64.toNat_zero, hvalue] at hafter
  omega

/-- A payee below its minimum is lifted to it. -/
theorem PositionSettled.not_staysBelow
    (h : PositionSettled rt w tx accs config feed position payout w')
    (hreach : Reachable rt w) (hsizes : DataSizes rt w dataLen)
    (hsafe : RentSafe rt dataLen [config.feeReceiver, accs.keeper, position.owner]
      accs.position w.lamports w'.lamports) :
    ¬ StaysBelow rt dataLen config position accs.keeper w.lamports := by
  rintro ⟨payee, hpayee, hpos, hless⟩
  have hfunded := h.funded hreach
  have hminimum := hsizes.positionMinimum h.accounts.position_loaded
  have hne : payee ≠ accs.position := by
    rintro rfl
    omega
  have hafter := emptyOrExempt_iff.mp (hsafe.payees payee hpayee)
  rw [h.share_received hne] at hafter
  omega

/-- Every other settlement is safe. -/
theorem PositionSettled.rentSafe
    (h : PositionSettled rt w tx accs config feed position payout w')
    (hreach : Reachable rt w) (hsizes : DataSizes rt w dataLen)
    (hdust : ¬ DustShare config position accs.keeper w.lamports)
    (hbelow : ¬ StaysBelow rt dataLen config position accs.keeper w.lamports) :
    RentSafe rt dataLen [config.feeReceiver, accs.keeper, position.owner] accs.position
      w.lamports w'.lamports := by
  have haccepted := h.accepted hreach hsizes hdust
  have hrent := h.rent_kept hreach
  refine ⟨haccepted, ?_, hrent⟩
  intro payee hpayee
  by_cases hpos : 0 < (w.lamports payee).toNat
  · by_cases hkey : payee = accs.position
    · rw [emptyOrExempt_iff, hkey, hsizes.positionMinimum h.accounts.position_loaded]
      exact Or.inr hrent
    · have hlifted : ¬ (w.lamports payee).toNat + shareOf config position accs.keeper payee <
          (rt.minimumBalance (dataLen payee)).toNat :=
        fun hless => hbelow ⟨payee, hpayee, hpos, hless⟩
      rw [emptyOrExempt_iff, h.share_received hkey]
      omega
  · apply haccepted
    rw [emptyOrExempt_iff]
    omega

theorem PositionSettled.rentSafe_iff
    (h : PositionSettled rt w tx accs config feed position payout w')
    (hreach : Reachable rt w) (hsizes : DataSizes rt w dataLen) :
    RentSafe rt dataLen [config.feeReceiver, accs.keeper, position.owner] accs.position
        w.lamports w'.lamports ↔
      ¬ DustShare config position accs.keeper w.lamports ∧
        ¬ StaysBelow rt dataLen config position accs.keeper w.lamports := by
  constructor
  · intro hsafe
    exact ⟨h.not_dustShare hreach hsizes hsafe, h.not_staysBelow hreach hsizes hsafe⟩
  · rintro ⟨hdust, hbelow⟩
    exact h.rentSafe hreach hsizes hdust hbelow

end Settlement

/-- Every settlement from any reachable state keeps the rent rule for all its payees,
except when fee receiver or keeper has no account yet and its share is less than the least
balance of one, or when a payee below its minimum already is not lifted to it. -/
theorem settlement_rentSafe_iff {rt : Runtime} {w w' : World} (h : Reachable rt w) {tx : Tx}
    {accs : TickPosition} (hok : attempt rt w (.invoke tx (.tickPosition accs)) = .ok w')
    (hfired : (w'.positions accs.position).map Position.status = some statusTriggered)
    {config : Config} {position : Position} (hconfig : w.configs accs.config = some config)
    (hposition : w.positions accs.position = some position) {dataLen : Pubkey → Nat}
    (hsizes : DataSizes rt w dataLen) :
    RentSafe rt dataLen [config.feeReceiver, accs.keeper, position.owner] accs.position
        w.lamports w'.lamports ↔
      ¬ DustShare config position accs.keeper w.lamports ∧
        ¬ StaysBelow rt dataLen config position accs.keeper w.lamports := by
  rcases settled_of_triggered (attempt_invoke_eq_ok_iff.mp hok).2.2 hfired with
    ⟨stored, feed, loaded, payout, heff⟩
  obtain rfl := Option.some.inj (heff.accounts.config_loaded.symm.trans hconfig)
  obtain rfl := Option.some.inj (heff.accounts.position_loaded.symm.trans hposition)
  exact heff.rentSafe_iff h hsizes

section Localnet

open Localnet

/-- The sizes on the cluster: three kinds of accounts hold data. -/
def sizes (w : World) (key : Pubkey) : Nat :=
  if (w.positions key).isSome then positionSpace
  else if key = config then configSpace
  else if key = feed then priceFeedSpace
  else 0

theorem sizes_dataSizes {w : World} (hinv : Invariant cluster w)
    (hconfig : w.lamports config ≠ 0) (hfeed : w.lamports feed ≠ 0) :
    DataSizes cluster w (sizes w) := by
  constructor
  case empty_minimum => decide
  case empty =>
    intro key hzero
    have hnone : w.positions key = none := by
      by_contra hsome
      rcases Option.ne_none_iff_exists'.mp hsome with ⟨position, hposition⟩
      have hfunded := hinv.funded key position hposition
      have hrent : 0 < cluster.positionRent := by decide
      rw [hzero, UInt64.toNat_zero] at hfunded
      omega
    have hneConfig : key ≠ config := by
      rintro rfl
      exact hconfig hzero
    have hneFeed : key ≠ feed := by
      rintro rfl
      exact hfeed hzero
    simp [sizes, hnone, hneConfig, hneFeed]
  case position =>
    intro key position hposition
    simp [sizes, hposition]

/-- The wallets are funded, so alice's stop settles within the rule. -/
theorem stopDue_rentSafe :
    RentSafe cluster (sizes (runFrom cluster (World.genesis funds) stopDue))
      [feeReceiver, keeper, alice] position
      (runFrom cluster (World.genesis funds) stopDue).lamports
      (step cluster (runFrom cluster (World.genesis funds) stopDue)
        (tick feeReceiver 1006)).lamports := by
  have hreach : Reachable cluster (runFrom cluster (World.genesis funds) stopDue) :=
    ⟨funds, stopDue, rfl⟩
  have hsizes := sizes_dataSizes (reachable_invariant hreach) (by decide +kernel)
    (by decide +kernel)
  have hreceiver : ((runFrom cluster (World.genesis funds) stopDue).configs config).map
      Config.feeReceiver = some feeReceiver := by decide +kernel
  have howner : ((runFrom cluster (World.genesis funds) stopDue).positions position).map
      Position.owner = some alice := by decide +kernel
  rcases Option.map_eq_some_iff.mp hreceiver with ⟨stored, hstored, hstoredReceiver⟩
  rcases Option.map_eq_some_iff.mp howner with ⟨opened, hopened, hopenedOwner⟩
  have hok : attempt cluster (runFrom cluster (World.genesis funds) stopDue)
      (tick feeReceiver 1006) = .ok _ := succeeded_of_isOk (by decide +kernel)
  have hsafe := settlement_rentSafe_iff hreach hok (by decide +kernel) hstored hopened hsizes
  rw [hstoredReceiver, hopenedOwner] at hsafe
  apply hsafe.mpr
  have hfunded : ∀ payee ∈ [feeReceiver, keeper, alice],
      890880 ≤ (runFrom cluster (World.genesis funds) stopDue).lamports payee := by
    rw [List.forall_mem_cons, List.forall_mem_cons, List.forall_mem_singleton]
    exact ⟨by decide +kernel, by decide +kernel, by decide +kernel⟩
  constructor
  · rintro ⟨payee, hpayee, -, hzero, -⟩
    rw [hstoredReceiver] at hpayee
    have hle := hfunded payee (List.mem_append_left [alice] hpayee)
    rw [hzero] at hle
    exact absurd hle (by decide)
  · rintro ⟨payee, hpayee, -, hless⟩
    rw [hstoredReceiver, hopenedOwner] at hpayee
    have hdataless : ∀ payee ∈ [feeReceiver, keeper, alice],
        sizes (runFrom cluster (World.genesis funds) stopDue) payee = 0 := by
      rw [List.forall_mem_cons, List.forall_mem_cons, List.forall_mem_singleton]
      exact ⟨by decide +kernel, by decide +kernel, by decide +kernel⟩
    have hle := UInt64.le_iff_toNat_le.mp (hfunded payee hpayee)
    rw [hdataless payee hpayee, hsizes.empty_minimum] at hless
    omega

/-- A key nobody has sent lamports to. -/
def freshReceiver : Pubkey := 7#256

/-- The admin appoints it, and alice's stop falls due. -/
def freshlyAppointed : List Action :=
  launch ++ [deposit,
    .invoke (tx admin 1004) (.updateConfig ⟨admin, config⟩ none (some freshReceiver) none none),
    push 80000000 1005]

def freshTick : Action :=
  .invoke { tx keeper 1006 with writable := freshReceiver :: (tx keeper 1006).writable }
    (.tickPosition ⟨keeper, config, feed, position, alice, freshReceiver⟩)

/-- Half a percent of 50000000 is less than an account must hold: the platform rejects
the settlement. -/
theorem freshTick_not_accepted :
    let w := runFrom cluster (World.genesis funds) freshlyAppointed
    Reachable cluster w ∧ DataSizes cluster w (sizes w) ∧
      attempt cluster w freshTick = .ok (step cluster w freshTick) ∧
      ((step cluster w freshTick).positions position).map Position.status =
        some statusTriggered ∧
      w.lamports freshReceiver = 0 ∧
      (step cluster w freshTick).lamports freshReceiver = 250000 ∧
      ¬ RentAccepted cluster (sizes w) w.lamports (step cluster w freshTick).lamports := by
  intro w
  have hreach : Reachable cluster w := ⟨funds, freshlyAppointed, rfl⟩
  have hempty : w.lamports freshReceiver = 0 := by decide +kernel
  have hreceived : (step cluster w freshTick).lamports freshReceiver = 250000 := by
    decide +kernel
  refine ⟨hreach, sizes_dataSizes (reachable_invariant hreach) (by decide +kernel)
    (by decide +kernel), succeeded_of_isOk (by decide +kernel), by decide +kernel, hempty,
    hreceived, ?_⟩
  intro haccepted
  rcases haccepted freshReceiver (Or.inl hempty) with hzero | hexempt
  · rw [hreceived] at hzero
    exact absurd hzero (by decide)
  · rw [hreceived] at hexempt
    exact absurd hexempt (by decide +kernel)

end Localnet

end Hwal
