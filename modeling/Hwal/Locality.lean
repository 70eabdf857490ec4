/-
What an instruction can see and what it can change: the accounts it lists, and those of
them its transaction passes as writable.  Two worlds that agree on the listed accounts
answer it alike, down to the error and the events.
-/
import Hwal.InstructionCoupling
import Hwal.Support.Footprint

namespace Hwal

open Guard Footprint

/-- The lamports and the data of an account, and the events so far. -/
def worldView : View World Pubkey (UInt64 × Option ProgramAccount) Event where
  cell w key := (w.lamports key, w.accounts key)
  log := World.log

/-- An account list, and those of its accounts a transaction may write. -/
def listedCells (tx : Tx) (accounts : List Pubkey) : Cells Pubkey where
  reads := {key | key ∈ accounts}
  writes := {key | key ∈ accounts ∧ key ∈ tx.writable}
  writes_read := fun _ h => h.1

/-- What the runtime and the delegation program promise of a call into it: it sees the
lamports of the accounts it is given only, and changes those of them it is given writable,
where the transaction may write them. -/
structure DelegationLocal (rt : Runtime) : Prop where
  depends : ∀ (ix : CpiInstruction) (tx : Tx) {lamports lamports' : Lamports},
    let keys := {key | ∃ account ∈ ix.accounts, account.pubkey = key}
    Set.EqOn lamports lamports' keys →
      Option.Rel (fun after after' => Set.EqOn after after' keys)
        (rt.invokeDelegation ix tx lamports) (rt.invokeDelegation ix tx lamports')
  keeps : ∀ {ix : CpiInstruction} {tx : Tx} {lamports after : Lamports},
    rt.invokeDelegation ix tx lamports = some after → ∀ key, after key ≠ lamports key →
      key ∈ tx.writable ∧
        ∃ account ∈ ix.accounts, account.pubkey = key ∧ account.isWritable = true

/-! ### The same answers -/

section Reads

variable {accounts : List Pubkey} {w v : World}

theorem lamports_of_agree (h : Agree worldView {key | key ∈ accounts} w v) :
    Set.EqOn w.lamports v.lamports {key | key ∈ accounts} :=
  fun _ hkey => (Prod.mk.inj (h hkey)).1

theorem accounts_of_agree (h : Agree worldView {key | key ∈ accounts} w v) {key : Pubkey}
    (hkey : key ∈ accounts) : w.accounts key = v.accounts key :=
  (Prod.mk.inj (h hkey)).2

theorem mem_accounts_of_actsOn {ix : Instruction} {key : Pubkey} (h : ix.ActsOn key) :
    key ∈ ix.accounts := by
  cases ix with
  | updateTriggers | tickPosition | cancelPosition | delegatePosition | undelegatePosition =>
      obtain rfl := h
      simp
  | _ => exact h.elim

/-- What a call loads it loads from the accounts it lists. -/
theorem sameReads_of_agree {ix : Instruction}
    (h : Agree worldView {key | key ∈ ix.accounts} w v) : SameReads ix w v := by
  have hstored (key : Pubkey) (hkey : key ∈ ix.accounts) : v.accounts key = w.accounts key :=
    (accounts_of_agree h hkey).symm
  have howner (key : Pubkey) (hkey : key ∈ ix.accounts) : v.notOwned key = w.notOwned key := by
    rw [World.notOwned, World.notOwned, lamports_of_agree h hkey]
  constructor
  case config =>
    intro key hkey
    rw [World.loadConfig, World.loadConfig, hstored key hkey, howner key hkey]
  case feed =>
    intro key hkey
    rw [World.loadPriceFeed, World.loadPriceFeed, hstored key hkey, howner key hkey]
  case position =>
    intro key hacts
    have hkey := mem_accounts_of_actsOn hacts
    rw [World.loadPosition, World.loadPosition, hstored key hkey, howner key hkey]
  case unused =>
    intro key hkey
    rw [hstored key hkey]

end Reads

section Transfers

variable {keys : Set Pubkey} {lamports lamports' : Lamports} {src dst : Pubkey}

theorem systemTransfer_alike (hsrc : src ∈ keys) (hdst : dst ∈ keys) (amount : UInt64)
    (h : Set.EqOn lamports lamports' keys) :
    Coupled (fun after after' => Set.EqOn after after' keys)
      (systemTransfer lamports src dst amount) (systemTransfer lamports' src dst amount) := by
  unfold systemTransfer
  rw [h hsrc]
  apply Coupled.same_guard
  exact okOr_coupled (Ledger.move?_eqOn hsrc hdst amount h) _

theorem payOut_alike (hsrc : src ∈ keys) (hdst : dst ∈ keys) (amount : UInt64)
    (h : Set.EqOn lamports lamports' keys) :
    Coupled (fun after after' => Set.EqOn after after' keys)
      (payOut lamports src dst amount) (payOut lamports' src dst amount) := by
  unfold payOut
  by_cases hpos : amount > 0
  · rw [if_pos hpos, if_pos hpos]
    have hnonzero : amount ≠ 0 := by
      rintro rfl
      exact absurd hpos (by decide)
    by_cases hshort : lamports src < amount
    · have hshort' : lamports' src < amount := h hsrc ▸ hshort
      simp only [transferLamportsFromPda, hnonzero, hshort, hshort', ↓reduceIte]
      exact .error _
    · have hshort' : ¬ lamports' src < amount := h hsrc ▸ hshort
      rw [transferLamportsFromPda_eq_move hnonzero hshort,
        transferLamportsFromPda_eq_move hnonzero hshort']
      exact okOr_coupled (Ledger.move?_eqOn hsrc hdst amount h) _
  · rw [if_neg hpos, if_neg hpos]
    exact .ok h

end Transfers

section Writes

variable {keys : Set Pubkey} {s t w v : World}

theorem alike_withLamports (h : Alike worldView keys s t w v) {lamports lamports' : Lamports}
    (heq : Set.EqOn lamports lamports' keys) :
    Alike worldView keys s t (w.withLamports lamports) (v.withLamports lamports') :=
  ⟨fun _ hkey => Prod.ext (heq hkey) (Prod.mk.inj (h.agree hkey)).2, h.output⟩

theorem alike_store (h : Alike worldView keys s t w v) (key : Pubkey)
    (account : ProgramAccount) :
    Alike worldView keys s t (w.store key account) (v.store key account) := by
  refine ⟨?_, h.output⟩
  intro k hk
  have hcell := Prod.mk.inj (h.agree hk)
  apply Prod.ext hcell.1
  by_cases hkey : k = key
  · simp [worldView, World.store, hkey]
  · simpa [worldView, World.store, hkey] using hcell.2

theorem alike_emit (h : Alike worldView keys s t w v) (event : Event) :
    Alike worldView keys s t (w.emit event) (v.emit event) := by
  rcases h with ⟨hagree, out, hw, hv⟩
  refine ⟨hagree, out ++ [event], ?_, ?_⟩
  · rw [← List.append_assoc, ← hw]
    rfl
  · rw [← List.append_assoc, ← hv]
    rfl

theorem alike_keptByWrites (keys : Set Pubkey) (s t : World) :
    KeptByWrites (fun lamports lamports' => Set.EqOn lamports lamports' keys)
      (Alike worldView keys s t) where
  withLamports h heq := alike_withLamports h heq
  store h key account := alike_store h key account
  emit h event := alike_emit h event

theorem alike_refl (h : Agree worldView keys w v) : Alike worldView keys w v w v :=
  ⟨h, [], (List.append_nil _).symm, (List.append_nil _).symm⟩

end Writes

/-! ### Nothing else changes -/

section Frames

variable {tx : Tx} {accounts : List Pubkey} {w : World} {key : Pubkey}

/-- An account outside the writable ones of a list is none that is listed and writable. -/
theorem ne_of_not_written (h : key ∉ (listedCells tx accounts).writes) {written : Pubkey}
    (hlisted : written ∈ accounts) (hwritable : written ∈ tx.writable) : key ≠ written := by
  rintro rfl
  exact h ⟨hlisted, hwritable⟩

theorem cell_withLamports {lamports : Lamports} (h : lamports key = w.lamports key) :
    worldView.cell (w.withLamports lamports) key = worldView.cell w key :=
  Prod.ext h rfl

theorem cell_store {other : Pubkey} (h : key ≠ other) (account : ProgramAccount) :
    worldView.cell (w.store other account) key = worldView.cell w key := by
  refine Prod.ext rfl ?_
  simp [worldView, World.store, h]

@[simp] theorem cell_emit (event : Event) :
    worldView.cell (w.emit event) key = worldView.cell w key := rfl

/-- Lamports moved between two accounts are lamports of no third. -/
theorem lamports_of_single {lamports lamports' : Lamports} {src dst : Pubkey} {amount : Nat}
    (h : Ledger.Moved [⟨src, dst, amount⟩] lamports lamports') (hsrc : key ≠ src)
    (hdst : key ≠ dst) : lamports' key = lamports key := by
  apply h.eq_of_untouched
  intro transfer htransfer
  rw [List.mem_singleton.mp htransfer]
  exact ⟨hsrc, hdst⟩

/-- `init` needs both of its accounts writable, and touches no other. -/
theorem initAccount_writes {rt : Runtime} {payer account : Pubkey} {seeds : Seeds}
    {space : Nat} {lamports : Lamports} {bump : UInt8}
    (h : w.initAccount rt tx payer account seeds space = .ok (lamports, bump)) :
    payer ∈ tx.writable ∧ account ∈ tx.writable ∧
      ∀ k, k ≠ payer → k ≠ account → lamports k = w.lamports k := by
  have hmoved := (initAccount_eq_ok h).moved
  rcases initAccount_eq_ok_iff.mp h with ⟨-, hpayer, haccount, -⟩
  exact ⟨hpayer, haccount, fun k hsrc hdst => lamports_of_single hmoved hsrc hdst⟩

end Frames

/-! ### The instructions -/

section Instructions

variable {rt : Runtime} {tx : Tx} {w w' : World} {key : Pubkey}

theorem initializeConfig_frame {accs : InitializeConfig} {feeBps keeperRewardBps : UInt16}
    (h : initializeConfig rt w tx accs feeBps keeperRewardBps = .ok w')
    (hkey : key ∉ (listedCells tx [accs.admin, accs.feeReceiver, accs.config,
      accs.systemProgram]).writes) :
    worldView.cell w' key = worldView.cell w key := by
  simp only [initializeConfig, bind_eq_ok_iff, Prod.exists, pure_eq_ok_iff] at h
  rcases h with ⟨-, -, -, -, lamports, bump, hinit, -, -, -, -, rfl⟩
  rcases initAccount_writes hinit with ⟨hadmin, hconfig, hlamports⟩
  have hne : key ≠ accs.config := ne_of_not_written hkey (by simp) hconfig
  rw [cell_emit, cell_store hne]
  apply cell_withLamports
  exact hlamports key (ne_of_not_written hkey (by simp) hadmin) hne

theorem updateConfig_frame {accs : UpdateConfig} {newAdmin newFeeReceiver : Option Pubkey}
    {newFeeBps newKeeperRewardBps : Option UInt16}
    (h : updateConfig rt w tx accs newAdmin newFeeReceiver newFeeBps newKeeperRewardBps =
      .ok w')
    (hkey : key ∉ (listedCells tx [accs.admin, accs.config]).writes) :
    worldView.cell w' key = worldView.cell w key := by
  simp only [updateConfig, UpdateConfig.tryAccounts, Tx.requireSigner, Tx.requireMut,
    requireAddress, Runtime.requireSeeds, bind_eq_ok_iff, require_eq_ok_iff,
    exists_and_left, exists_const, pure_eq_ok_iff] at h
  rcases h with ⟨_, ⟨-, _, -, -, hconfig, -⟩, _, -, rfl⟩
  exact cell_store (ne_of_not_written hkey (by simp) hconfig) _

theorem initializePriceFeed_frame {accs : InitializePriceFeed} {symbol : FeedSymbol}
    {decimals : UInt8} {initialPrice : UInt64}
    (h : initializePriceFeed rt w tx accs symbol decimals initialPrice = .ok w')
    (hkey : key ∉ (listedCells tx [accs.admin, accs.config, accs.authority, accs.feed,
      accs.systemProgram]).writes) :
    worldView.cell w' key = worldView.cell w key := by
  simp only [initializePriceFeed, bind_eq_ok_iff, Prod.exists, pure_eq_ok_iff] at h
  rcases h with ⟨-, -, -, -, -, -, lamports, bump, hinit, -, -, -, -, -, -, rfl⟩
  rcases initAccount_writes hinit with ⟨hadmin, hfeed, hlamports⟩
  have hne : key ≠ accs.feed := ne_of_not_written hkey (by simp) hfeed
  rw [cell_emit, cell_store hne]
  apply cell_withLamports
  exact hlamports key (ne_of_not_written hkey (by simp) hadmin) hne

theorem updatePriceFeed_frame {accs : UpdatePriceFeed} {newPrice : UInt64}
    (h : updatePriceFeed w tx accs newPrice = .ok w')
    (hkey : key ∉ (listedCells tx [accs.authority, accs.feed]).writes) :
    worldView.cell w' key = worldView.cell w key := by
  simp only [updatePriceFeed, UpdatePriceFeed.tryAccounts, Tx.requireSigner, Tx.requireMut,
    requireAddress, bind_eq_ok_iff, require_eq_ok_iff, exists_and_left, exists_const,
    pure_eq_ok_iff] at h
  rcases h with ⟨_, ⟨-, _, -, -, hfeed, -⟩, -, rfl⟩
  rw [cell_emit, cell_store (ne_of_not_written hkey (by simp) hfeed)]

theorem registerLazerFeed_frame {accs : RegisterLazerFeed} {lazerFeedId : UInt64}
    {channel : UInt8}
    (h : registerLazerFeed rt w tx accs lazerFeedId channel = .ok w')
    (hkey : key ∉ (listedCells tx [accs.admin, accs.config, accs.feed]).writes) :
    worldView.cell w' key = worldView.cell w key := by
  simp only [registerLazerFeed, RegisterLazerFeed.tryAccounts, Tx.requireSigner,
    Tx.requireMut, requireAddress, Runtime.requireSeeds, bind_eq_ok_iff, require_eq_ok_iff,
    exists_and_left, exists_const, pure_eq_ok_iff] at h
  rcases h with ⟨_, ⟨-, _, -, _, -, -, -, hfeed, -⟩, -, -, rfl⟩
  rw [cell_emit, cell_store (ne_of_not_written hkey (by simp) hfeed)]

theorem updatePriceFeedFromLazer_frame {accs : UpdatePriceFeedFromLazer} {payload : List UInt8}
    (h : updatePriceFeedFromLazer w tx accs payload = .ok w')
    (hkey : key ∉ (listedCells tx [accs.poster, accs.feed, accs.instructions]).writes) :
    worldView.cell w' key = worldView.cell w key := by
  simp only [updatePriceFeedFromLazer, UpdatePriceFeedFromLazer.tryAccounts,
    Tx.requireSigner, Tx.requireMut, bind_eq_ok_iff, require_eq_ok_iff, exists_and_left,
    exists_const, pure_eq_ok_iff] at h
  rcases h with ⟨_, ⟨-, _, -, hfeed, -⟩, _, -, rfl⟩
  rw [cell_emit, cell_emit, cell_store (ne_of_not_written hkey (by simp) hfeed)]

theorem openPosition_frame {accs : OpenPosition} {args : OpenPositionArgs}
    (h : openPosition rt w tx accs args = .ok w')
    (hkey : key ∉ (listedCells tx [accs.owner, accs.config, accs.feed, accs.position,
      accs.systemProgram]).writes) :
    worldView.cell w' key = worldView.cell w key := by
  simp only [openPosition, Tx.requireSigner, requireSystemProgram, Tx.requireMut,
    Runtime.requireSeeds, bind_eq_ok_iff, Prod.exists, require_eq_ok_iff, exists_and_left,
    exists_const, pure_eq_ok_iff] at h
  rcases h with ⟨-, _, -, _, -, -, rent, bump, hinit, hconfig, -, _, -, lamports, hdeposit,
    rfl⟩
  rcases initAccount_writes hinit with ⟨howner, hposition, hrent⟩
  have hnePosition : key ≠ accs.position := ne_of_not_written hkey (by simp) hposition
  have hneOwner : key ≠ accs.owner := ne_of_not_written hkey (by simp) howner
  rw [cell_emit, cell_store (ne_of_not_written hkey (by simp) hconfig),
    cell_store hnePosition]
  apply cell_withLamports
  rw [lamports_of_single (systemTransfer_eq_ok hdeposit) hneOwner hnePosition]
  exact hrent key hneOwner hnePosition

theorem updateTriggers_frame {accs : UpdateTriggers}
    {stopPrice takeProfitPrice trailingOffset : UInt64}
    (h : updateTriggers rt w tx accs stopPrice takeProfitPrice trailingOffset = .ok w')
    (hkey : key ∉ (listedCells tx [accs.owner, accs.position]).writes) :
    worldView.cell w' key = worldView.cell w key := by
  simp only [updateTriggers, UpdateTriggers.tryAccounts, Tx.requireSigner, Tx.requireMut,
    requireAddress, Runtime.requireSeeds, bind_eq_ok_iff, require_eq_ok_iff,
    exists_and_left, exists_const, pure_eq_ok_iff] at h
  rcases h with ⟨_, ⟨-, _, -, -, hposition, -⟩, _, -, rfl⟩
  rw [cell_emit, cell_store (ne_of_not_written hkey (by simp) hposition)]

theorem tickPosition_frame {accs : TickPosition} (h : tickPosition rt w tx accs = .ok w')
    (hkey : key ∉ (listedCells tx [accs.keeper, accs.config, accs.feed, accs.position,
      accs.owner, accs.feeReceiver]).writes) :
    worldView.cell w' key = worldView.cell w key := by
  rcases tickPosition_eq_ok h with ⟨config, feed, position, haccs, -, -, hend⟩
  have hposition := ne_of_not_written hkey (by simp) haccs.position_mut
  rcases hend with ⟨-, rfl⟩ | ⟨-, hsettled⟩
  · rw [recordTick, cell_emit, cell_store hposition]
  · rcases settlePosition_eq_ok hsettled with ⟨payout, lamports, -, hmoved, rfl⟩
    rw [cell_emit, cell_store (ne_of_not_written hkey (by simp) haccs.config_mut),
      cell_store hposition]
    apply cell_withLamports
    apply hmoved.eq_of_untouched
    have hfeeReceiver := ne_of_not_written hkey (by simp) haccs.feeReceiver_mut
    have hkeeper := ne_of_not_written hkey (by simp) haccs.keeper_mut
    have howner := ne_of_not_written hkey (by simp) haccs.owner_mut
    simp [settlementTransfers, hposition, hfeeReceiver, hkeeper, howner]

theorem cancelPosition_frame {accs : CancelPosition} (h : cancelPosition rt w tx accs = .ok w')
    (hkey : key ∉ (listedCells tx [accs.owner, accs.config, accs.position]).writes) :
    worldView.cell w' key = worldView.cell w key := by
  rcases cancelPosition_eq_ok h with ⟨config, position, lamports, haccs, -, hmoved, rfl⟩
  have hposition := ne_of_not_written hkey (by simp) haccs.position_mut
  have howner := ne_of_not_written hkey (by simp) haccs.owner_mut
  rw [cell_emit, cell_store (ne_of_not_written hkey (by simp) haccs.config_mut),
    cell_store hposition]
  exact cell_withLamports (lamports_of_single hmoved hposition howner)

end Instructions

/-! ### Calls into the delegation program -/

section Delegations

variable {rt : Runtime} (hcpi : DelegationLocal rt) (tx : Tx)

include hcpi

theorem invokeDelegation_alike {ix : CpiInstruction} {accounts : List Pubkey}
    (hlisted : ∀ account ∈ ix.accounts, account.pubkey ∈ accounts)
    {lamports lamports' : Lamports}
    (h : Set.EqOn lamports lamports' {key | key ∈ accounts}) :
    Option.Rel (fun after after' => Set.EqOn after after' {key | key ∈ accounts})
      (rt.invokeDelegation ix tx lamports) (rt.invokeDelegation ix tx lamports') := by
  have hsub : {key | ∃ account ∈ ix.accounts, account.pubkey = key} ⊆
      {key | key ∈ accounts} := by
    rintro key ⟨account, haccount, rfl⟩
    exact hlisted account haccount
  have hsame := hcpi.depends ix tx (h.mono hsub)
  have hkept {before after : Lamports} (hcall : rt.invokeDelegation ix tx before = some after)
      {key : Pubkey} (hkey : ¬ ∃ account ∈ ix.accounts, account.pubkey = key) :
      after key = before key := by
    by_contra hchanged
    rcases (hcpi.keeps hcall key hchanged).2 with ⟨account, haccount, hmatch, -⟩
    exact hkey ⟨account, haccount, hmatch⟩
  cases hcall : rt.invokeDelegation ix tx lamports with
  | none =>
      rw [hcall] at hsame
      cases hcall' : rt.invokeDelegation ix tx lamports' with
      | none => exact .none
      | some after' =>
          rw [hcall'] at hsame
          contradiction
  | some after =>
      cases hcall' : rt.invokeDelegation ix tx lamports' with
      | none =>
          rw [hcall, hcall'] at hsame
          contradiction
      | some after' =>
          rw [hcall, hcall'] at hsame
          cases hsame with
          | some heq =>
              apply Option.Rel.some
              intro key hkey
              by_cases hgiven : ∃ account ∈ ix.accounts, account.pubkey = key
              · exact heq hgiven
              · rw [hkept hcall hgiven, hkept hcall' hgiven, h hkey]

/-- What the delegation program was not given, or not given writable, keeps its lamports. -/
theorem lamports_of_delegation {ix : CpiInstruction} {accounts : List Pubkey}
    (hlisted : ∀ account ∈ ix.accounts, account.pubkey ∈ accounts)
    {lamports lamports' : Lamports}
    (hcall : rt.invokeDelegation ix tx lamports = some lamports') {key : Pubkey}
    (hkey : key ∉ (listedCells tx accounts).writes) : lamports' key = lamports key := by
  by_contra hchanged
  rcases hcpi.keeps hcall key hchanged with ⟨hwritable, account, haccount, rfl, -⟩
  exact hkey ⟨hlisted account haccount, hwritable⟩

variable {w w' : World} {key : Pubkey}

theorem delegatePosition_frame {accs : DelegatePosition}
    (h : delegatePosition rt w tx accs = .ok w')
    (hkey : key ∉ (listedCells tx [accs.owner, accs.position, accs.delegationProgram,
      accs.delegationBuffer, accs.delegationRecord, accs.delegationMetadata,
      accs.systemProgram]).writes) :
    worldView.cell w' key = worldView.cell w key := by
  have hlisted (position : Position) : ∀ account ∈ (delegateIx accs position).accounts,
      account.pubkey ∈ [accs.owner, accs.position, accs.delegationProgram,
        accs.delegationBuffer, accs.delegationRecord, accs.delegationMetadata,
        accs.systemProgram] := by
    simp [delegateIx]
  simp only [delegatePosition, DelegatePosition.tryAccounts, Tx.requireSigner,
    requireSystemProgram, Tx.requireMut, requireAddress, Runtime.requireSeeds,
    bind_eq_ok_iff, require_eq_ok_iff, okOr_eq_ok_iff, exists_and_left, exists_const,
    pure_eq_ok_iff] at h
  rcases h with ⟨position, ⟨-, _, -, -, -, hposition, -⟩, -, -, lamports, hcall, rfl⟩
  rw [cell_emit, cell_store (ne_of_not_written hkey (by simp) hposition)]
  exact cell_withLamports (lamports_of_delegation hcpi tx (hlisted position) hcall hkey)

theorem undelegatePosition_frame {accs : UndelegatePosition}
    (h : undelegatePosition rt w tx accs = .ok w')
    (hkey : key ∉ (listedCells tx [accs.owner, accs.position, accs.delegationProgram,
      accs.delegationRecord, accs.delegationMetadata, accs.systemProgram]).writes) :
    worldView.cell w' key = worldView.cell w key := by
  have hlisted : ∀ account ∈ (undelegateIx accs).accounts,
      account.pubkey ∈ [accs.owner, accs.position, accs.delegationProgram,
        accs.delegationRecord, accs.delegationMetadata, accs.systemProgram] := by
    simp [undelegateIx]
  rcases undelegatePosition_eq_ok_iff.mp h with ⟨position, lamports, haccs, -, -, hcall, rfl⟩
  rw [cell_emit, cell_store (ne_of_not_written hkey (by simp) haccs.position_mut)]
  exact cell_withLamports (lamports_of_delegation hcpi tx hlisted hcall hkey)

theorem execute_frame {ix : Instruction} (h : execute rt w tx ix = .ok w')
    (hkey : key ∉ (listedCells tx ix.accounts).writes) :
    worldView.cell w' key = worldView.cell w key := by
  cases ix with
  | initializeConfig => exact initializeConfig_frame h hkey
  | updateConfig => exact updateConfig_frame h hkey
  | initializePriceFeed => exact initializePriceFeed_frame h hkey
  | updatePriceFeed => exact updatePriceFeed_frame h hkey
  | openPosition => exact openPosition_frame h hkey
  | updateTriggers => exact updateTriggers_frame h hkey
  | tickPosition => exact tickPosition_frame h hkey
  | cancelPosition => exact cancelPosition_frame h hkey
  | registerLazerFeed => exact registerLazerFeed_frame h hkey
  | updatePriceFeedFromLazer => exact updatePriceFeedFromLazer_frame h hkey
  | delegatePosition => exact delegatePosition_frame hcpi tx h hkey
  | undelegatePosition => exact undelegatePosition_frame hcpi tx h hkey

/-- Balances that agree on a list are moved alike among its accounts. -/
theorem movesAlike_of_agree (accounts : List Pubkey) :
    MovesAlike rt tx accounts
      fun lamports lamports' => Set.EqOn lamports lamports' {key | key ∈ accounts} where
  balance h _ hkey := (h hkey).symm
  transfer h _ _ hsrc hdst amount := systemTransfer_alike hsrc hdst amount h
  payOut h _ _ hsrc hdst amount := payOut_alike hsrc hdst amount h
  delegation h _ hlisted := invokeDelegation_alike hcpi tx hlisted h

theorem execute_local (ix : Instruction) :
    Local worldView (fun w => execute rt w tx ix) (listedCells tx ix.accounts) := by
  constructor
  case alike =>
    intro w v h
    exact execute_coupled (alike_keptByWrites _ w v) (alike_refl h) (lamports_of_agree h)
      (movesAlike_of_agree hcpi tx ix.accounts) (sameReads_of_agree h)
  case frame =>
    intro w w' h key hkey
    exact execute_frame hcpi tx h hkey

end Delegations

/-! ### One action -/

def Action.accounts : Action → List Pubkey
  | .invoke _ ix => ix.accounts
  | .transfer src dst _ => [src, dst]

/-- The accounts an action may change. -/
def Action.writable : Action → List Pubkey
  | .invoke tx ix => ix.accounts.filter tx.writable.contains
  | .transfer src dst _ => [src, dst]

theorem Action.writable_listed {action : Action} {key : Pubkey}
    (h : key ∈ action.writable) : key ∈ action.accounts := by
  cases action with
  | invoke tx ix => exact (List.mem_filter.mp h).1
  | transfer src dst amount => exact h

def Action.cells (action : Action) : Cells Pubkey where
  reads := {key | key ∈ action.accounts}
  writes := {key | key ∈ action.writable}
  writes_read := fun _ h => Action.writable_listed h

theorem attempt_local {rt : Runtime} (hcpi : DelegationLocal rt) (action : Action) :
    Local worldView (fun w => attempt rt w action) action.cells := by
  cases action with
  | invoke tx ix =>
      have hix := execute_local hcpi tx ix
      constructor
      case alike =>
        intro w v h
        exact invoke_coupled rfl rfl (hix.alike h)
      case frame =>
        intro w w' h key hkey
        apply hix.frame (attempt_invoke_eq_ok_iff.mp h).2.2
        rintro ⟨hlisted, hwritable⟩
        exact hkey (List.mem_filter.mpr ⟨hlisted, by simpa using hwritable⟩)
  | transfer src dst amount =>
      constructor
      case alike =>
        intro w v h
        have hsrc : src ∈ {key | key ∈ [src, dst]} := List.mem_cons_self
        have hdst : dst ∈ {key | key ∈ [src, dst]} := by simp
        apply transfer_coupled (systemTransfer_alike hsrc hdst amount (lamports_of_agree h))
        intro lamports lamports' hlamports
        exact alike_withLamports (alike_refl h) hlamports
      case frame =>
        intro w w' h key hkey
        rcases attempt_transfer_eq_ok h with ⟨lamports, -, hmoved, rfl⟩
        apply cell_withLamports
        apply lamports_of_single hmoved
        · rintro rfl
          exact hkey List.mem_cons_self
        · rintro rfl
          exact hkey (List.mem_cons_of_mem _ List.mem_cons_self)

end Hwal
