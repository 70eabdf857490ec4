/-
What the other parties can do to a position whose owner signs nothing: keepers,
the admin, feed authorities, posters and other owners, over runs of any length.
All they can do is settle it, at a price that meets the owner's own terms.
-/
import Hwal.Lifecycle

namespace Hwal

open Guard

/-- An instruction that carries this key's signature. -/
def Action.SignedBy (key : Pubkey) : Action → Prop
  | .invoke tx _ => key ∈ tx.signers
  | .transfer _ _ _ => False

instance (key : Pubkey) (action : Action) : Decidable (action.SignedBy key) := by
  cases action with
  | invoke tx ix => exact inferInstanceAs (Decidable (key ∈ tx.signers))
  | transfer src dst amount => exact inferInstanceAs (Decidable False)

/-- Everything about a position that only its owner may change. -/
structure OwnerTerms (position position' : Position) : Prop
    extends SameTerms position position' where
  stopPrice : position'.stopPrice = position.stopPrice
  takeProfitPrice : position'.takeProfitPrice = position.takeProfitPrice
  trailingOffset : position'.trailingOffset = position.trailingOffset
  erDelegated : position'.erDelegated = position.erDelegated

theorem OwnerTerms.refl (position : Position) : OwnerTerms position position :=
  ⟨SameTerms.refl position, rfl, rfl, rfl, rfl⟩

theorem OwnerTerms.trans {p q r : Position} (h : OwnerTerms p q) (h' : OwnerTerms q r) :
    OwnerTerms p r :=
  ⟨h.toSameTerms.trans h'.toSameTerms, h'.stopPrice.trans h.stopPrice,
    h'.takeProfitPrice.trans h.takeProfitPrice, h'.trailingOffset.trans h.trailingOffset,
    h'.erDelegated.trans h.erDelegated⟩

theorem OwnerTerms.observe (position : Position) (price : UInt64) (now : Int64) :
    OwnerTerms position (position.observe price now) :=
  ⟨⟨rfl, rfl, rfl, rfl, rfl, rfl⟩, rfl, rfl, rfl, rfl⟩

theorem OwnerTerms.fired (position : Position) (price : UInt64) (now : Int64) :
    OwnerTerms position (position.fired price now) :=
  ⟨⟨rfl, rfl, rfl, rfl, rfl, rfl⟩, rfl, rfl, rfl, rfl⟩

/-- What the two caps leave of a collateral. -/
def guaranteedNet (collateral : Nat) : Nat :=
  collateral - collateral * 500 / 10000 - collateral * 200 / 10000

/-- A tick that settled the position at `key` on the terms of `position`: it read the
position's own feed, at a price that meets one of its three conditions, and left the
owner what the caps guarantee. -/
inductive SettledOnTerms (rt : Runtime) (key : Pubkey) (position : Position) :
    Moment → Prop where
  | intro {w tx accs feed before w'} (account : accs.position = key)
      (ok : attempt rt w (.invoke tx (.tickPosition accs)) = .ok w')
      (feed_read : accs.feed = position.feed ∧ w.feeds position.feed = some feed)
      (record : w.positions key = some before) (isOpen : before.status = statusOpen)
      (terms : OwnerTerms position before)
      (condition : position.StopHit feed.price ∨ position.TakeProfitHit feed.price ∨
        (before.observe feed.price tx.unixTimestamp).TrailingHit feed.price)
      (after : w'.positions key = some (before.fired feed.price tx.unixTimestamp))
      (received : (w.lamports position.owner).toNat +
          guaranteedNet position.collateral.toNat ≤ (w'.lamports position.owner).toNat) :
      SettledOnTerms rt key position ⟨w, .invoke tx (.tickPosition accs), w'⟩

theorem hit_of_fires {position : Position} {price : UInt64}
    (h : position.firstHit price ≠ triggerNone) :
    position.StopHit price ∨ position.TakeProfitHit price ∨ position.TrailingHit price := by
  by_contra hmiss
  rw [not_or, not_or] at hmiss
  exact h (firstHit_eq_none_iff.mpr hmiss)

theorem OwnerTerms.stopHit {position position' : Position} (h : OwnerTerms position position')
    {price : UInt64} (hit : position'.StopHit price) : position.StopHit price := by
  rw [Position.StopHit, h.stopPrice, h.side] at hit
  exact hit

theorem OwnerTerms.takeProfitHit {position position' : Position}
    (h : OwnerTerms position position') {price : UInt64} (hit : position'.TakeProfitHit price) :
    position.TakeProfitHit price := by
  rw [Position.TakeProfitHit, h.takeProfitPrice, h.side] at hit
  exact hit

section Settlement

variable {rt : Runtime} {w w' : World} {tx : Tx} {accs : TickPosition} {config : Config}
  {feed : PriceFeed} {before : Position} {payout : Payout}

theorem guaranteedNet_le {collateral : UInt64} (hpayout : PayoutOf config collateral payout)
    (hcapped : config.RatesCapped) :
    guaranteedNet collateral.toNat ≤ payout.netToOwner.toNat := by
  rcases hpayout.shares_le hcapped with ⟨hfee, hreward⟩
  have htotal := hpayout.total
  unfold guaranteedNet
  omega

/-- Whoever else is paid, the owner's balance grows by at least the net amount. -/
theorem PositionSettled.owner_receives
    (h : PositionSettled rt w tx accs config feed before payout w')
    (hsound : PositionSound rt w accs.position before) :
    (w.lamports before.owner).toNat + payout.netToOwner.toNat ≤
      (w'.lamports before.owner).toNat := by
  have hne := hsound.ne_owner
  have hnet := h.paid before.owner
  rw [settlementTransfers, h.accounts.owner_matches] at hnet
  simp only [Ledger.netDelta_cons, Ledger.netDelta_nil, Ledger.Transfer.delta,
    Ne.symm hne, ↓reduceIte] at hnet
  split at hnet
  · split at hnet <;> omega
  · split at hnet <;> omega

/-- A settlement honours the terms the position had at any earlier point, as long as
they have not changed since. -/
theorem PositionSettled.onTerms {position : Position}
    (h : PositionSettled rt w tx accs config feed before payout w')
    (hok : attempt rt w (.invoke tx (.tickPosition accs)) = .ok w') (hinv : Invariant rt w)
    (hterms : OwnerTerms position before) (hcollateral : before.collateral = position.collateral) :
    SettledOnTerms rt accs.position position ⟨w, .invoke tx (.tickPosition accs), w'⟩ := by
  have hrecord := h.accounts.position_loaded
  have hsound := hinv.positions _ _ hrecord
  have hcapped := (hinv.configs _ _ h.accounts.config_loaded).capped
  have hfeed : accs.feed = position.feed := h.accounts.feed_matches.trans hterms.feed
  have hloaded := h.accounts.feed_loaded
  rw [hfeed] at hloaded
  have hobserved := hterms.trans (OwnerTerms.observe before feed.price tx.unixTimestamp)
  apply SettledOnTerms.intro rfl hok ⟨hfeed, hloaded⟩ hrecord
    (tickPrice_eq_ok_iff.mp h.guards).1 hterms
  · rcases hit_of_fires h.fires with hstop | htake | htrail
    · exact Or.inl (hobserved.stopHit hstop)
    · exact Or.inr (Or.inl (hobserved.takeProfitHit htake))
    · exact Or.inr (Or.inr htrail)
  · rw [h.positions, Function.update_self]
  · have hreceived := h.owner_receives hsound
    have hnet := guaranteedNet_le h.payout_of hcapped
    rw [hcollateral] at hnet
    rw [hterms.owner] at hreceived
    omega

end Settlement

/-! ### Runs without the owner -/

/-- Where a position stands after others have acted: as it was, or settled once on the
owner's terms. -/
def AsItWasOrSettled (rt : Runtime) (key : Pubkey) (position : Position)
    (history : List Moment) (position' : Position) : Prop :=
  position'.status = position.status ∧ position'.collateral = position.collateral ∨
    position.status = statusOpen ∧ position'.status = statusTriggered ∧
      position'.collateral = 0 ∧ ∃ m ∈ history, SettledOnTerms rt key position m

section Runs

variable {rt : Runtime} {w w' : World} {key : Pubkey} {position before : Position}
  {history : List Moment} {action : Action}

theorem AsItWasOrSettled.extend (h : AsItWasOrSettled rt key position history before)
    {after : Position} (m : Moment) (hstatus : after.status = before.status)
    (hcollateral : after.collateral = before.collateral) :
    AsItWasOrSettled rt key position (history ++ [m]) after := by
  rcases h with ⟨hsame, hkept⟩ | ⟨hopen, hclosed, hempty, hsettled⟩
  · exact Or.inl ⟨hstatus.trans hsame, hcollateral.trans hkept⟩
  · exact Or.inr ⟨hopen, hstatus.trans hclosed, hcollateral.trans hempty,
      exists_mem_snoc hsettled m⟩

theorem AsItWasOrSettled.of_open (h : AsItWasOrSettled rt key position history before)
    (hopen : before.status = statusOpen) :
    position.status = statusOpen ∧ before.collateral = position.collateral := by
  rcases h with ⟨hsame, hkept⟩ | ⟨-, hclosed, -⟩
  · exact ⟨hsame.symm.trans hopen, hkept⟩
  · rw [hopen] at hclosed
    exact absurd hclosed (by decide)

/-- One step that the owner did not sign. -/
theorem unsigned_step (hinv : Invariant rt w) (hok : attempt rt w action = .ok w')
    (hunsigned : ¬ action.SignedBy position.owner)
    (hbefore : w.positions key = some before) (hterms : OwnerTerms position before)
    (hstage : AsItWasOrSettled rt key position history before) :
    ∃ after, w'.positions key = some after ∧ OwnerTerms position after ∧
      AsItWasOrSettled rt key position (history ++ [⟨w, action, w'⟩]) after := by
  have hat := (attempt_effect hok).atPosition key
  have howner := hterms.owner
  rw [hbefore] at hat
  generalize hafter : w'.positions key = after at hat
  cases hat with
  | kept pays => exact ⟨before, rfl, hterms, hstage.extend _ rfl rfl⟩
  | retargeted account heff =>
      have hsigned := heff.signed
      rw [heff.owner, howner] at hsigned
      exact absurd hsigned hunsigned
  | ticked account heff =>
      exact ⟨_, rfl, hterms.trans (OwnerTerms.observe ..), hstage.extend _ rfl rfl⟩
  | settled account heff =>
      subst account
      have hopen := (tickPrice_eq_ok_iff.mp heff.guards).1
      rcases hstage.of_open hopen with ⟨hwas, hcollateral⟩
      refine ⟨_, rfl, hterms.trans (OwnerTerms.fired ..), Or.inr ⟨hwas, rfl, rfl, ?_⟩⟩
      exact ⟨_, List.mem_append_right _ List.mem_cons_self,
        heff.onTerms hok hinv hterms hcollateral⟩
  | cancelled account heff =>
      have hsigned := heff.accounts.owner_signs
      rw [heff.accounts.owner_matches, howner] at hsigned
      exact absurd hsigned hunsigned
  | delegated account heff =>
      have hsigned := heff.signed
      rw [heff.owner, howner] at hsigned
      exact absurd hsigned hunsigned
  | undelegated account heff =>
      have hsigned := heff.signed
      rw [heff.owner, howner] at hsigned
      exact absurd hsigned hunsigned

theorem unsigned_run (hreach : Reachable rt w) (hposition : w.positions key = some position)
    (actions : List Action) (hunsigned : ∀ action ∈ actions, ¬ action.SignedBy position.owner) :
    ∃ position', (runFrom rt w actions).positions key = some position' ∧
      OwnerTerms position position' ∧
      AsItWasOrSettled rt key position (historyFrom rt w actions) position' := by
  induction actions using List.reverseRecOn with
  | nil => exact ⟨position, hposition, OwnerTerms.refl position, Or.inl ⟨rfl, rfl⟩⟩
  | append_singleton earlier action ih =>
      have hearlier := fun a ha => hunsigned a (List.mem_append_left _ ha)
      have hlast := hunsigned action (List.mem_append_right _ List.mem_cons_self)
      rcases ih hearlier with ⟨before, hbefore, hterms, hstage⟩
      have hinv := reachable_invariant (hreach.run earlier)
      rw [runFrom_snoc, historyFrom_snoc]
      rcases ok_or_error (attempt rt (runFrom rt w earlier) action) with
        ⟨w', hok⟩ | ⟨error, herror⟩
      · rw [step_of_ok hok]
        exact unsigned_step hinv hok hlast hbefore hterms hstage
      · rw [step_of_error herror]
        exact ⟨before, hbefore, hterms, hstage.extend _ rfl rfl⟩

end Runs

/-- The settings of the config. -/
structure SameSettings (config config' : Config) : Prop where
  admin : config'.admin = config.admin
  feeReceiver : config'.feeReceiver = config.feeReceiver
  feeBps : config'.feeBps = config.feeBps
  keeperRewardBps : config'.keeperRewardBps = config.keeperRewardBps

/-- A step changes the settings only with the signature of the admin in office. -/
theorem settings_step {rt : Runtime} {w : World} {action : Action} {key : Pubkey}
    {config config' : Config} (hbefore : w.configs key = some config)
    (hafter : (step rt w action).configs key = some config') :
    SameSettings config config' ∨ action.SignedBy config.admin := by
  rcases step_effect rt w action with heffect | hsame
  · have hat := heffect.atConfig key
    rw [hbefore, hafter] at hat
    cases hat with
    | kept => exact Or.inl ⟨rfl, rfl, rfl, rfl⟩
    | changed account heff =>
        right
        have hsigned := heff.signed
        rw [heff.admin] at hsigned
        exact hsigned
    | opened account heff => exact Or.inl ⟨rfl, rfl, rfl, rfl⟩
    | settled account heff => exact Or.inl ⟨rfl, rfl, rfl, rfl⟩
    | cancelled account heff => exact Or.inl ⟨rfl, rfl, rfl, rfl⟩
  · rw [hsame, hbefore] at hafter
    rw [← Option.some.inj hafter]
    exact Or.inl ⟨rfl, rfl, rfl, rfl⟩

/-- Without its owner's signature a position keeps its terms over every run, and can only
go from open to settled, on those terms and with the guaranteed net paid to the owner;
and in every run the settings of the config change only with the admin's signature. -/
theorem owner_consent {rt : Runtime} {w : World} (hreach : Reachable rt w)
    (actions : List Action) :
    (∀ key position, w.positions key = some position →
      (∀ action ∈ actions, ¬ action.SignedBy position.owner) →
      ∃ position', (runFrom rt w actions).positions key = some position' ∧
        OwnerTerms position position' ∧
        AsItWasOrSettled rt key position (historyFrom rt w actions) position') ∧
    ∀ m ∈ historyFrom rt w actions, ∀ configKey config config',
      m.before.configs configKey = some config → m.after.configs configKey = some config' →
      SameSettings config config' ∨ m.action.SignedBy config.admin := by
  constructor
  · intro key position hposition hunsigned
    exact unsigned_run hreach hposition actions hunsigned
  · intro m hm configKey config config' hbefore hafter
    rcases (Transition.mem_trace_iff (step rt)).mp hm with ⟨earlier, later, -, -, hstep⟩
    rw [hstep] at hafter
    exact settings_step hbefore hafter

open Localnet in
/-- The admin raises both rates to their caps before the stop fires: Alice still gets
46.5 of her 50 million lamports. -/
theorem owner_consent_raised :
    ∃ closed, (runFrom cluster (runFrom cluster (World.genesis funds) (launch ++ [deposit]))
        [.invoke (tx admin 1004) (.updateConfig ⟨admin, config⟩ none none (some 500)
            (some 200)),
          push 80000000 1005, tick feeReceiver 1006]).positions position = some closed ∧
      closed.status = statusTriggered ∧ closed.owner = alice ∧ closed.stopPrice = 90000000 ∧
      guaranteedNet 50000000 = 46500000 := by
  have hfields : ((runFrom cluster (World.genesis funds) (launch ++ [deposit])).positions
      position).map (fun p => (p.status, p.owner, p.stopPrice)) =
        some (statusOpen, alice, 90000000) := by decide +kernel
  have hclosed : ((runFrom cluster (runFrom cluster (World.genesis funds)
      (launch ++ [deposit])) [.invoke (tx admin 1004) (.updateConfig ⟨admin, config⟩ none none
        (some 500) (some 200)), push 80000000 1005, tick feeReceiver 1006]).positions
          position).map Position.status = some statusTriggered := by decide +kernel
  rcases Option.map_eq_some_iff.mp hfields with ⟨opened, hopened, hvalues⟩
  simp only [Prod.mk.injEq] at hvalues
  rcases hvalues with ⟨-, howner, hstop⟩
  have hunsigned : ∀ action ∈ [Action.invoke (tx admin 1004) (.updateConfig ⟨admin, config⟩
        none none (some 500) (some 200)), push 80000000 1005, tick feeReceiver 1006],
      ¬ action.SignedBy opened.owner := by
    rw [howner]
    intro action haction
    simp only [List.mem_cons, List.not_mem_nil, or_false] at haction
    rcases haction with rfl | rfl | rfl <;> decide +kernel
  rcases (owner_consent (⟨funds, launch ++ [deposit], rfl⟩ : Reachable cluster _) _).1 position
    opened hopened hunsigned with ⟨closed, hafter, hterms, -⟩
  rw [hafter] at hclosed
  exact ⟨closed, hafter, Option.some.inj hclosed, hterms.owner.trans howner,
    hterms.stopPrice.trans hstop, by decide⟩

end Hwal
