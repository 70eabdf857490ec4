/-
Nobody can keep a wallet from opening its position.  What an opening needs of the world
besides the price, the config, the feed, an unused address and the owner's lamports, is not
others' to take away, and with it in place the checks on the price decide alone.
-/
import Hwal.SigningCost

namespace Hwal

open Guard

/-- What an opening needs of its transaction. -/
structure OpeningFormed (rt : Runtime) (tx : Tx) (accs : OpenPosition)
    (args : OpenPositionArgs) : Prop where
  authentic : tx.authentic rt = true
  precompiles : tx.precompilesPass rt = true
  owner_signs : accs.owner ∈ tx.signers
  systemProgram : accs.systemProgram = systemProgramId
  address : accs.position = rt.positionAddress accs.owner args.nonce
  owner_mut : accs.owner ∈ tx.writable
  position_mut : accs.position ∈ tx.writable
  config_mut : accs.config ∈ tx.writable

/-- What it needs of the world, the price apart; lamports already at the address count
towards the rent. -/
structure OpeningReady (rt : Runtime) (w : World) (accs : OpenPosition)
    (args : OpenPositionArgs) : Prop where
  config : ∃ config, w.configs accs.config = some config
  feed : ∃ feed, w.feeds accs.feed = some feed
  unused : w.accounts accs.position = none
  covered : rt.positionRent - (w.lamports accs.position).toNat + args.collateral.toNat ≤
    (w.lamports accs.owner).toNat

/-! ### The payments of an opening -/

theorem systemTransfer_accepted_iff {lamports : Lamports} {src : Pubkey} (dst : Pubkey)
    {amount : UInt64} (hsupply : Ledger.SupplyAtMost (2 ^ 64 - 1) lamports) :
    (∃ lamports', systemTransfer lamports src dst amount = .ok lamports') ↔
      amount.toNat ≤ (lamports src).toNat := by
  simp only [systemTransfer, require_bind_eq_ok_iff, okOr_eq_ok_iff, UInt64.le_iff_toNat_le]
  constructor
  · rintro ⟨lamports', hcover, -⟩
    exact hcover
  · intro hcover
    rcases Ledger.exists_move? dst hsupply hcover with ⟨lamports', hmove⟩
    exact ⟨lamports', hcover, hmove⟩

theorem fundRent_accepted_iff {rt : Runtime} {w : World} {payer account : Pubkey} {space : Nat}
    (hsupply : Ledger.SupplyAtMost (2 ^ 64 - 1) w.lamports) :
    (∃ lamports, w.fundRent rt payer account space = .ok lamports) ↔
      (rt.minimumBalance space).toNat - (w.lamports account).toNat ≤
        (w.lamports payer).toNat := by
  have hrequired := UInt64.toNat_saturatingSub (rt.minimumBalance space) (w.lamports account)
  rw [← hrequired]
  unfold World.fundRent
  by_cases hpos : (rt.minimumBalance space).saturatingSub (w.lamports account) > 0
  · simp only [hpos, ↓reduceIte]
    exact systemTransfer_accepted_iff account hsupply
  · have hzero := UInt64.le_iff_toNat_le.mp (UInt64.not_lt.mp hpos)
    rw [UInt64.toNat_zero] at hzero
    simp only [hpos, ↓reduceIte]
    constructor
    · intro _
      omega
    · intro _
      exact ⟨w.lamports, rfl⟩

/-- A single transfer to another account takes its amount. -/
theorem moved_source {lamports lamports' : Lamports} {src dst : Pubkey} {amount : Nat}
    (h : Ledger.Moved [⟨src, dst, amount⟩] lamports lamports') (hne : src ≠ dst) :
    (lamports' src).toNat + amount = (lamports src).toNat := by
  have hsrc := h src
  simp only [Ledger.netDelta_cons, Ledger.netDelta_nil, Ledger.Transfer.delta, hne,
    ↓reduceIte] at hsrc
  omega

/-! ### When an opening is accepted -/

section Accepted

variable {rt : Runtime} {w : World} {tx : Tx} {accs : OpenPosition} {args : OpenPositionArgs}

theorem OpeningFormed.owner_ne (h : OpeningFormed rt tx accs args) :
    accs.owner ≠ accs.position := by
  have hderived : rt.IsDerived accs.position := by
    rw [h.address]
    exact isDerived_findProgramAddress rt _
  exact (hderived.ne_signer h.authentic h.owner_signs).symm

theorem opening_ready_of_ok {w' : World}
    (hok : attempt rt w (.invoke tx (.openPosition accs args)) = .ok w') :
    OpeningFormed rt tx accs args ∧ OpeningReady rt w accs args ∧
      ∃ feed, w.feeds accs.feed = some feed ∧ OpenChecked feed tx.unixTimestamp args := by
  rcases attempt_invoke_eq_ok_iff.mp hok with ⟨hauthentic, hprecompiles, hopen⟩
  simp only [execute, openPosition, Tx.requireSigner, requireSystemProgram, Tx.requireMut,
    Runtime.requireSeeds, initAccount_eq_ok_iff, bind_eq_ok_iff, require_eq_ok_iff,
    exists_and_left, exists_const, Prod.exists, World.loadConfig_eq_ok_iff,
    World.loadPriceFeed_eq_ok_iff, checkOpen_eq_ok_iff, pure_eq_ok_iff] at hopen
  rcases hopen with ⟨hsigner, config, hconfig, feed, hfeed, hsystem, rent, bump,
    ⟨haddress, hownerMut, hpositionMut, hunused, hrent, -⟩, hconfigMut, hseeds,
    hchecked, lamports, hdeposit, -⟩
  have hformed : OpeningFormed rt tx accs args :=
    ⟨hauthentic, hprecompiles, hsigner, hsystem, haddress, hownerMut, hpositionMut, hconfigMut⟩
  refine ⟨hformed, ⟨⟨config, hconfig⟩, ⟨feed, hfeed⟩, hunused, ?_⟩, feed, hfeed, hchecked⟩
  -- the owner has paid the rent, and then the collateral out of what was left
  have hpaid := moved_source (fundRent_eq_ok hrent) hformed.owner_ne
  have hpaid' := moved_source (systemTransfer_eq_ok hdeposit) hformed.owner_ne
  rw [Runtime.positionRent]
  omega

/-- The position's account can be made, and the deposit still paid after its rent. -/
theorem opening_paid (hformed : OpeningFormed rt tx accs args)
    (hready : OpeningReady rt w accs args)
    (hsupply : Ledger.SupplyAtMost (2 ^ 64 - 1) w.lamports) :
    ∃ rent lamports, w.initAccount rt tx accs.owner accs.position
        (.position accs.owner args.nonce) positionSpace =
          .ok (rent, (rt.findProgramAddress (.position accs.owner args.nonce)).2) ∧
      systemTransfer rent accs.owner accs.position args.collateral = .ok lamports := by
  have hcovered := hready.covered
  rw [Runtime.positionRent] at hcovered
  have hrentCovered : (rt.minimumBalance positionSpace).toNat -
      (w.lamports accs.position).toNat ≤ (w.lamports accs.owner).toNat := by omega
  rcases (fundRent_accepted_iff hsupply).mpr hrentCovered with ⟨rent, hrent⟩
  have hmoved := fundRent_eq_ok hrent
  have hpaid := moved_source hmoved hformed.owner_ne
  have hdepositCovered : args.collateral.toNat ≤ (rent accs.owner).toNat := by omega
  rcases (systemTransfer_accepted_iff accs.position (hsupply.moved hmoved)).mpr
    hdepositCovered with ⟨lamports, hdeposit⟩
  refine ⟨rent, lamports, initAccount_eq_ok_iff.mpr ?_, hdeposit⟩
  exact ⟨hformed.address, hformed.owner_mut, hformed.position_mut, hready.unused, hrent, rfl⟩

theorem opening_ok_of_ready (hinv : Invariant rt w)
    (hsupply : Ledger.SupplyAtMost (2 ^ 64 - 1) w.lamports)
    (hformed : OpeningFormed rt tx accs args) (hready : OpeningReady rt w accs args)
    {feed : PriceFeed} (hfeed : w.feeds accs.feed = some feed)
    (hchecked : OpenChecked feed tx.unixTimestamp args) :
    ∃ w', attempt rt w (.invoke tx (.openPosition accs args)) = .ok w' := by
  rcases hready.config with ⟨config, hconfig⟩
  rcases opening_paid hformed hready hsupply with ⟨rent, lamports, hinit, hdeposit⟩
  have hsound := hinv.configs _ _ hconfig
  have hseeds : rt.createProgramAddress .config config.bump = some accs.config := by
    rw [hsound.bump, hsound.address]
    exact rt.create_find .config
  have hcheck : checkOpen feed tx.unixTimestamp args = .ok () :=
    checkOpen_eq_ok_iff.mpr hchecked
  have hexists : ∃ w', openPosition rt w tx accs args = .ok w' := by
    simp only [openPosition, Tx.requireSigner, requireSystemProgram, Tx.requireMut,
      Runtime.requireSeeds, require_of_holds _ hformed.owner_signs,
      World.loadConfig_eq_ok_iff.mpr hconfig, World.loadPriceFeed_eq_ok_iff.mpr hfeed,
      require_of_holds _ hformed.systemProgram, hinit, require_of_holds _ hformed.config_mut,
      require_of_holds _ hseeds, hcheck, hdeposit, ok_bind]
    exact ⟨_, rfl⟩
  rcases hexists with ⟨w', hopen⟩
  exact ⟨w', attempt_invoke_eq_ok_iff.mpr ⟨hformed.authentic, hformed.precompiles, hopen⟩⟩

/-- An opening is accepted exactly when its transaction is well formed, the world is ready
for it and the checks on the price pass. -/
theorem opening_accepted_iff (hinv : Invariant rt w)
    (hsupply : Ledger.SupplyAtMost (2 ^ 64 - 1) w.lamports) :
    (∃ w', attempt rt w (.invoke tx (.openPosition accs args)) = .ok w') ↔
      OpeningFormed rt tx accs args ∧ OpeningReady rt w accs args ∧
        ∃ feed, w.feeds accs.feed = some feed ∧ OpenChecked feed tx.unixTimestamp args := by
  constructor
  · rintro ⟨w', hok⟩
    exact opening_ready_of_ok hok
  · rintro ⟨hformed, hready, feed, hfeed, hchecked⟩
    exact opening_ok_of_ready hinv hsupply hformed hready hfeed hchecked

end Accepted

/-! ### What others cannot take away -/

/-- Taken with the signature of `key`, in the program or over its own lamports. -/
def Action.By (key : Pubkey) : Action → Prop
  | .invoke tx _ => key ∈ tx.signers
  | .transfer src _ _ => src = key

instance (key : Pubkey) (action : Action) : Decidable (action.By key) :=
  match action with
  | .invoke tx _ => inferInstanceAs (Decidable (key ∈ tx.signers))
  | .transfer src _ _ => inferInstanceAs (Decidable (src = key))

section Others

variable {rt : Runtime} {w w' : World} {action : Action} {accs : OpenPosition}
  {args : OpenPositionArgs} {owned : Pubkey → Prop}

/-- An action someone else takes costs a wallet nothing. -/
theorem lamports_le_of_others (hcpi : DelegationDebits rt owned) (hinv : Invariant rt w)
    {key : Pubkey} (hwallet : rt.canSign key = true) (howned : ¬ owned key)
    (hothers : ¬ action.By key) (hok : attempt rt w action = .ok w') :
    (w.lamports key).toNat ≤ (w'.lamports key).toNat := by
  have heffect := attempt_effect hok
  have hdelegates : ¬ action.DelegatesFor key := by
    intro hdelegates
    cases heffect with
    | delegated heff => exact hothers (hdelegates ▸ heff.signed)
    | undelegated heff => exact hothers (hdelegates ▸ heff.signed)
    | _ => exact hdelegates
  have hnothing : action.cost rt key = 0 := by
    cases heffect with
    | configCreated heff =>
        rw [Action.cost, if_neg]
        rintro rfl
        exact hothers heff.signed
    | feedCreated heff =>
        rw [Action.cost, if_neg]
        rintro rfl
        exact hothers heff.signed
    | positionOpened heff =>
        rw [Action.cost, if_neg]
        rintro rfl
        exact hothers heff.signed
    | lamportsSent heff => exact if_neg hothers
    | _ => rfl
  have hcost := lamports_le_cost hcpi hinv hwallet howned hdelegates hok
  rwa [hnothing, Nat.add_zero] at hcost

/-- Where only the owner's opening can make an account, others make none, and nothing is
paid out. -/
theorem unused_of_others (h : Effect rt w action w')
    (hunique : ∀ seeds, (rt.findProgramAddress seeds).1 = accs.position →
      seeds = .position accs.owner args.nonce)
    (hothers : ¬ action.By accs.owner) (hunused : w.accounts accs.position = none) :
    w'.accounts accs.position = none ∧ ¬ action.PaysFrom accs.position := by
  rcases World.views_of_unused hunused with ⟨hnoConfig, hnoFeed, hnoPosition⟩
  have hconfig : w'.configs accs.position = none := by
    have hat := h.atConfig accs.position
    rw [hnoConfig] at hat
    generalize w'.configs accs.position = after at hat ⊢
    cases hat with
    | kept => rfl
    | created account heff =>
        have hseeds := hunique .config (heff.init.address.symm.trans account)
        contradiction
  have hfeed : w'.feeds accs.position = none := by
    have hat := h.atFeed accs.position
    rw [hnoFeed] at hat
    generalize w'.feeds accs.position = after at hat ⊢
    cases hat with
    | kept => rfl
    | created account heff =>
        have hseeds := hunique _ (heff.init.address.symm.trans account)
        contradiction
  have hposition : w'.positions accs.position = none ∧ ¬ action.PaysFrom accs.position := by
    have hat := h.atPosition accs.position
    rw [hnoPosition] at hat
    generalize w'.positions accs.position = after at hat ⊢
    cases hat with
    | kept pays => exact ⟨rfl, pays⟩
    | opened account heff =>
        have hseeds := hunique _ (heff.init.address.symm.trans account)
        obtain ⟨howner, -⟩ := Seeds.position.inj hseeds
        exact absurd (howner ▸ heff.signed) hothers
  exact ⟨World.unused_of_views hconfig hfeed hposition.1, hposition.2⟩

section Ready

variable (hcpi : DelegationDebits rt owned) (hwallet : rt.canSign accs.owner = true)
  (howned : ¬ owned accs.owner)
  (haddress : accs.position = rt.positionAddress accs.owner args.nonce)
  (hunique : ∀ seeds, (rt.findProgramAddress seeds).1 = accs.position →
    seeds = .position accs.owner args.nonce)

include hcpi hwallet howned haddress hunique

theorem openingReady_step (h : OpeningReady rt w accs args) (hinv : Invariant rt w)
    (hothers : ¬ action.By accs.owner) (hok : attempt rt w action = .ok w') :
    OpeningReady rt w' accs args := by
  have heffect := attempt_effect hok
  rcases h.config with ⟨config, hconfig⟩
  rcases h.feed with ⟨feed, hfeed⟩
  rcases unused_of_others heffect hunique hothers h.unused with ⟨hunused, hpays⟩
  have hderived : rt.IsDerived accs.position := by
    rw [haddress]
    exact isDerived_findProgramAddress rt _
  have hrent := lamports_le_of_not_paysFrom hok hderived hpays
  have hwealth := lamports_le_of_others hcpi hinv hwallet howned hothers hok
  have hcovered := h.covered
  exact ⟨heffect.configs_persist hconfig, heffect.feeds_persist hfeed, hunused, by omega⟩

theorem openingReady_run (h : OpeningReady rt w accs args) (hreach : Reachable rt w)
    {actions : List Action} (hothers : ∀ action ∈ actions, ¬ action.By accs.owner) :
    OpeningReady rt (runFrom rt w actions) accs args := by
  induction actions generalizing w with
  | nil => exact h
  | cons action rest ih =>
      have hrest := fun other hother => hothers other (List.mem_cons_of_mem action hother)
      have hstep : OpeningReady rt (step rt w action) accs args := by
        rcases ok_or_error (attempt rt w action) with ⟨w', hok⟩ | ⟨error, herror⟩
        · rw [step_of_ok hok]
          exact openingReady_step hcpi hwallet howned haddress hunique h
            (reachable_invariant hreach) (hothers action List.mem_cons_self) hok
        · rw [step_of_error herror]
          exact h
      exact ih hstep (hreach.run [action]) hrest

end Ready

/-- Once an opening would be accepted, nothing others do can block it: after any run of
theirs the feed is still there, and the same opening, at whatever time, is accepted exactly
when the checks on its price pass. -/
theorem opening_never_blocked (hcpi : DelegationDebits rt owned)
    (hreach : ReachableWithSupply rt w) {tx : Tx} {opened : World}
    (hok : attempt rt w (.invoke tx (.openPosition accs args)) = .ok opened)
    (howned : ¬ owned accs.owner)
    (hunique : ∀ seeds, (rt.findProgramAddress seeds).1 = accs.position →
      seeds = .position accs.owner args.nonce)
    {actions : List Action} (hothers : ∀ action ∈ actions, ¬ action.By accs.owner) :
    ∃ feed, (runFrom rt w actions).feeds accs.feed = some feed ∧ ∀ now,
      (∃ w', attempt rt (runFrom rt w actions)
        (.invoke { tx with unixTimestamp := now } (.openPosition accs args)) = .ok w') ↔
        OpenChecked feed now args := by
  have hinv := reachable_invariant hreach.reachable
  rcases (opening_accepted_iff hinv (reachable_supply hreach)).mp ⟨opened, hok⟩ with
    ⟨hformed, hready, -⟩
  have hwallet := Tx.canSign_of_mem hformed.authentic hformed.owner_signs
  have hlater := openingReady_run hcpi hwallet howned hformed.address hunique hready
    hreach.reachable hothers
  have hreach' := hreach.run actions
  rcases hlater.feed with ⟨feed, hfeed⟩
  refine ⟨feed, hfeed, ?_⟩
  intro now
  rw [opening_accepted_iff (reachable_invariant hreach'.reachable) (reachable_supply hreach')]
  constructor
  · rintro ⟨-, -, current, hcurrent, hchecked⟩
    obtain rfl := Option.some.inj (hcurrent.symm.trans hfeed)
    exact hchecked
  · intro hchecked
    have hformed' : OpeningFormed rt { tx with unixTimestamp := now } accs args :=
      ⟨hformed.authentic, hformed.precompiles, hformed.owner_signs, hformed.systemProgram,
        hformed.address, hformed.owner_mut, hformed.position_mut, hformed.config_mut⟩
    exact ⟨hformed', hlater, feed, hfeed, hchecked⟩

end Others

section Crowd

open Localnet

/-- Before Alice deposits, prices come in and others send lamports about. -/
def crowd : List Action :=
  [push 101000000 1004, .transfer keeper position 890880, .transfer poster alice 1,
    push 89000000 1005]

/-- On the local cluster no other seeds give the address of Alice's position. -/
theorem seeds_of_position {seeds : Seeds}
    (h : (cluster.findProgramAddress seeds).1 = position) : seeds = .position alice 1 := by
  change (findProgramAddress seeds).1 = position at h
  rw [findProgramAddress, addresses, List.lookup_cons, List.lookup_cons, List.lookup_cons] at h
  split at h
  · exact absurd h (by decide)
  · split at h
    · exact absurd h (by decide)
    · split at h
      · exact eq_of_beq ‹_›
      · rw [List.lookup_nil] at h
        exact absurd h (by decide)

theorem opening_never_blocked_crowd :
    let w := runFrom cluster (World.genesis funds) launch
    ∃ current, (runFrom cluster w crowd).feeds feed = some current ∧ ∀ now,
      (∃ w', attempt cluster (runFrom cluster w crowd)
        (.invoke { tx alice 1003 with unixTimestamp := now }
          (.openPosition ⟨alice, config, feed, position, systemProgramId⟩
            ⟨1, 0, 50000000, 90000000, 120000000, 0⟩)) = .ok w') ↔
        OpenChecked current now ⟨1, 0, 50000000, 90000000, 120000000, 0⟩ := by
  have hcpi : DelegationDebits cluster fun _ => False := by
    intro ix tx lamports lamports' hcall key _ _
    rw [← Option.some.inj hcall]
  have hok : attempt cluster (runFrom cluster (World.genesis funds) launch) deposit =
      .ok (step cluster (runFrom cluster (World.genesis funds) launch) deposit) :=
    succeeded_of_isOk (by decide +kernel)
  have hothers : ∀ action ∈ crowd, ¬ action.By alice := by decide
  exact opening_never_blocked hcpi ⟨funds, launch, funds_supply, rfl⟩ hok id
    (fun _ => seeds_of_position) hothers

end Crowd

end Hwal
