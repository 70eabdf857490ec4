/-
What a signature can cost.  Lamports leave a wallet only as the rent of an account it
creates, as collateral it deposits, or in a transfer of its own; nothing else a wallet
signs for this program takes anything, and nothing it does not sign takes anything either.
-/
import Hwal.OwnerConsent

namespace Hwal

open Guard

/-- The most an accepted action can take from the wallet `key`. -/
def Action.cost (rt : Runtime) (key : Pubkey) : Action → Nat
  | .invoke _ (.initializeConfig accs _ _) =>
      if accs.admin = key then (rt.minimumBalance configSpace).toNat else 0
  | .invoke _ (.initializePriceFeed accs _ _ _) =>
      if accs.admin = key then (rt.minimumBalance priceFeedSpace).toNat else 0
  | .invoke _ (.openPosition accs args) =>
      if accs.owner = key then (rt.minimumBalance positionSpace).toNat + args.collateral.toNat
      else 0
  | .transfer src _ amount => if src = key then amount.toNat else 0
  | _ => 0

/-- A call into the delegation program with the signature of `key`. -/
def Action.DelegatesFor (key : Pubkey) : Action → Prop
  | .invoke _ (.delegatePosition accs) => accs.owner = key
  | .invoke _ (.undelegatePosition accs) => accs.owner = key
  | _ => False

/-- What the delegation program promises: it debits the signers it is given, and accounts
of its own. -/
def DelegationDebits (rt : Runtime) (owned : Pubkey → Prop) : Prop :=
  ∀ (ix : CpiInstruction) (tx : Tx) (lamports lamports' : Lamports),
    rt.invokeDelegation ix tx lamports = some lamports' →
      ∀ key, ¬ owned key → (∀ account ∈ ix.accounts, account.pubkey = key →
        account.isSigner = false) → (lamports key).toNat ≤ (lamports' key).toNat

/-- What an action took, if it was accepted. -/
def costAt (rt : Runtime) (key : Pubkey) (m : Moment) : Nat :=
  match attempt rt m.before m.action with
  | .ok _ => m.action.cost rt key
  | .error _ => 0

section Step

variable {rt : Runtime} {w w' : World} {action : Action} {key : Pubkey}

theorem initialized_cost {payer account : Pubkey} {seeds : Seeds} {space : Nat}
    {lamports : Lamports} {bump : UInt8}
    (h : Initialized rt w payer account seeds space lamports bump) (key : Pubkey) :
    (w.lamports key).toNat ≤ (lamports key).toNat +
      if payer = key then (rt.minimumBalance space).toNat else 0 := by
  by_cases hpayer : payer = key
  · subst hpayer
    have hleft := moved_source_le h.moved
    rw [if_pos rfl]
    omega
  · rw [if_neg hpayer]
    exact h.lamports_le (Ne.symm hpayer)

theorem moved_cost {lamports lamports' : Lamports} {src dst : Pubkey} {amount : Nat}
    (h : Ledger.Moved [⟨src, dst, amount⟩] lamports lamports') (key : Pubkey) :
    (lamports key).toNat ≤ (lamports' key).toNat + if src = key then amount else 0 := by
  by_cases hsrc : src = key
  · subst hsrc
    rw [if_pos rfl]
    exact moved_source_le h
  · rw [if_neg hsrc]
    exact moved_le_of_single h (Ne.symm hsrc)

/-- The signer a delegation call is given is the owner. -/
theorem signer_of_delegateIx {accs : DelegatePosition} {position : Position}
    (h : accs.owner ≠ key) : ∀ account ∈ (delegateIx accs position).accounts,
      account.pubkey = key → account.isSigner = false := by
  simp [delegateIx, h]

theorem signer_of_undelegateIx {accs : UndelegatePosition} (h : accs.owner ≠ key) :
    ∀ account ∈ (undelegateIx accs).accounts,
      account.pubkey = key → account.isSigner = false := by
  simp [undelegateIx, h]

/-- One accepted action. -/
theorem lamports_le_cost {owned : Pubkey → Prop} (hcpi : DelegationDebits rt owned)
    (hinv : Invariant rt w) (hwallet : rt.canSign key = true) (howned : ¬ owned key)
    (hdelegates : ¬ action.DelegatesFor key) (hok : attempt rt w action = .ok w') :
    (w.lamports key).toNat ≤ (w'.lamports key).toNat + action.cost rt key := by
  have hposition {address : Pubkey} {position : Position}
      (hloaded : w.positions address = some position) : key ≠ address := by
    rintro rfl
    rw [(hinv.positions _ _ hloaded).derived.cannot_sign] at hwallet
    contradiction
  have heffect := attempt_effect hok
  cases heffect with
  | configCreated heff => exact initialized_cost heff.init key
  | configChanged heff => rw [heff.lamports]; exact Nat.le_add_right _ _
  | feedCreated heff => exact initialized_cost heff.init key
  | feedPushed heff => rw [heff.lamports]; exact Nat.le_add_right _ _
  | feedRegistered heff => rw [heff.lamports]; exact Nat.le_add_right _ _
  | feedVerified heff => rw [heff.lamports]; exact Nat.le_add_right _ _
  | @positionOpened tx accs args config feed rent bump w' heff =>
      have hrent := initialized_cost heff.init key
      have hdeposit := moved_cost heff.deposited key
      simp only [Action.cost]
      split
      · next howner =>
          rw [if_pos howner] at hrent hdeposit
          omega
      · next howner =>
          rw [if_neg howner] at hrent hdeposit
          omega
  | triggersChanged heff => rw [heff.lamports]; exact Nat.le_add_right _ _
  | tickRecorded heff => rw [heff.lamports]; exact Nat.le_add_right _ _
  | positionSettled heff =>
      exact settlement_le heff.paid (hposition heff.accounts.position_loaded)
  | positionCancelled heff =>
      exact moved_le_of_single heff.refunded (hposition heff.accounts.position_loaded)
  | @delegated tx accs position w' heff =>
      have hcall := (attempt_invoke_eq_ok_iff.mp hok).2.2
      rcases delegatePosition_eq_ok hcall with ⟨_, lamports, -, -, -, -, -, hinvoked, rfl⟩
      exact hcpi _ _ _ _ hinvoked key howned (signer_of_delegateIx hdelegates)
  | @undelegated tx accs position w' heff =>
      have hcall := (attempt_invoke_eq_ok_iff.mp hok).2.2
      rcases undelegatePosition_eq_ok_iff.mp hcall with ⟨_, lamports, -, -, -, hinvoked, rfl⟩
      exact hcpi _ _ _ _ hinvoked key howned (signer_of_undelegateIx hdelegates)
  | lamportsSent heff => exact moved_cost heff.moved key

theorem lamports_le_costAt {owned : Pubkey → Prop} (hcpi : DelegationDebits rt owned)
    (hinv : Invariant rt w) (hwallet : rt.canSign key = true) (howned : ¬ owned key)
    (hdelegates : ¬ action.DelegatesFor key) :
    (w.lamports key).toNat ≤
      ((step rt w action).lamports key).toNat + costAt rt key ⟨w, action, step rt w action⟩ := by
  cases hattempt : attempt rt w action with
  | ok w' =>
      rw [step_of_ok hattempt, costAt, hattempt]
      exact lamports_le_cost hcpi hinv hwallet howned hdelegates hattempt
  | error error =>
      rw [step_of_error hattempt]
      exact Nat.le_add_right _ _

/-- Whatever costs a wallet something it signed, or sent. -/
theorem signed_of_costAt {m : Moment} (h : 0 < costAt rt key m) :
    m.action.SignedBy key ∨ ∃ dst amount, m.action = .transfer key dst amount := by
  unfold costAt at h
  cases hattempt : attempt rt m.before m.action with
  | error error =>
      rw [hattempt] at h
      contradiction
  | ok w' =>
      rw [hattempt] at h
      have heffect := attempt_effect hattempt
      generalize m.action = action at h heffect ⊢
      have hzero {P : Prop} [Decidable P] {amount : Nat}
          (hcost : 0 < if P then amount else 0) : P := by
        by_contra hne
        rw [if_neg hne] at hcost
        contradiction
      cases heffect with
      | configCreated heff => exact Or.inl (hzero h ▸ heff.signed)
      | feedCreated heff => exact Or.inl (hzero h ▸ heff.signed)
      | positionOpened heff => exact Or.inl (hzero h ▸ heff.signed)
      | lamportsSent heff =>
          obtain rfl := hzero h
          exact Or.inr ⟨_, _, rfl⟩
      | _ => contradiction

end Step

/-- Over any run, a wallet that signs no delegation keeps its lamports but for the rents
and deposits it signed and the transfers it sent, whoever else does what. -/
theorem signing_costs {rt : Runtime} {owned : Pubkey → Prop}
    (hcpi : DelegationDebits rt owned) {w : World} (hreach : Reachable rt w) {key : Pubkey}
    (hwallet : rt.canSign key = true) (howned : ¬ owned key) (actions : List Action)
    (hdelegates : ∀ action ∈ actions, ¬ action.DelegatesFor key) :
    (w.lamports key).toNat ≤ ((runFrom rt w actions).lamports key).toNat +
        ((historyFrom rt w actions).map (costAt rt key)).sum ∧
      ∀ m ∈ historyFrom rt w actions, 0 < costAt rt key m →
        m.action.SignedBy key ∨ ∃ dst amount, m.action = .transfer key dst amount := by
  refine ⟨?_, fun m _ hcost => signed_of_costAt hcost⟩
  induction actions generalizing w with
  | nil => exact Nat.le_add_right _ _
  | cons action rest ih =>
      have hfirst := lamports_le_costAt hcpi (reachable_invariant hreach) hwallet howned
        (hdelegates action List.mem_cons_self)
      have hrest : ((step rt w action).lamports key).toNat ≤
          ((runFrom rt (step rt w action) rest).lamports key).toNat +
            ((historyFrom rt (step rt w action) rest).map (costAt rt key)).sum :=
        ih (hreach.run [action])
          fun other hother => hdelegates other (List.mem_cons_of_mem _ hother)
      have hend : runFrom rt w (action :: rest) = runFrom rt (step rt w action) rest := rfl
      have hsum : ((historyFrom rt w (action :: rest)).map (costAt rt key)).sum =
          costAt rt key ⟨w, action, step rt w action⟩ +
            ((historyFrom rt (step rt w action) rest).map (costAt rt key)).sum := by
        rw [historyFrom, Transition.trace, List.map_cons, List.sum_cons]
      rw [hend, hsum]
      omega

section Spending

open Localnet

/-- Alice deposits, moves her triggers and is settled. -/
def spending : List Action :=
  [deposit, retarget 95000000 0 0 1004, push 80000000 1005, tick feeReceiver 1006]

theorem signing_costs_spending :
    let w := runFrom cluster (World.genesis funds) launch
    (w.lamports alice).toNat ≤ ((runFrom cluster w spending).lamports alice).toNat +
      ((historyFrom cluster w spending).map (costAt cluster alice)).sum := by
  have hcpi : DelegationDebits cluster fun _ => False := by
    intro ix tx lamports lamports' hcall key _ _
    rw [← Option.some.inj hcall]
  have hwallet : cluster.canSign alice = true := by decide
  have hdelegates : ∀ action ∈ spending, ¬ action.DelegatesFor alice := by
    simp [spending, deposit, retarget, push, tick, Action.DelegatesFor]
  exact (signing_costs hcpi ⟨funds, launch, rfl⟩ hwallet id spending hdelegates).1

end Spending

end Hwal
