/-
A position is on its own.  What becomes of it is decided by the calls on it, the updates of
its feed and the changes of policy: whatever happens to other positions, other feeds and
anyone's balance, its record, the calls that are accepted and what they pay are the same.
-/
import Hwal.DelegationMark
import Hwal.Governance
import Hwal.OrderIndependence
import Hwal.Support.Unwinding

namespace Hwal

open Guard

/-! ### What a position depends on -/

/-- The actions the position at `key` depends on, `feed` being its feed. -/
def Action.Concerns (key feed : Pubkey) : Action → Prop
  | .invoke _ (.updateConfig _ _ _ _ _) => True
  | .invoke _ (.updatePriceFeed accs _) => accs.feed = feed
  | .invoke _ (.updatePriceFeedFromLazer accs _) => accs.feed = feed
  | .invoke _ (.registerLazerFeed accs _ _) => accs.feed = feed
  | .invoke _ (.tickPosition accs) => accs.position = key
  | .invoke _ (.updateTriggers accs _ _ _) => accs.position = key
  | .invoke _ (.cancelPosition accs) => accs.position = key
  | _ => False

instance (key feed : Pubkey) : DecidablePred (Action.Concerns key feed)
  | .invoke _ (.updateConfig _ _ _ _ _) => inferInstanceAs (Decidable True)
  | .invoke _ (.updatePriceFeed accs _) => inferInstanceAs (Decidable (accs.feed = feed))
  | .invoke _ (.updatePriceFeedFromLazer accs _) =>
      inferInstanceAs (Decidable (accs.feed = feed))
  | .invoke _ (.registerLazerFeed accs _ _) => inferInstanceAs (Decidable (accs.feed = feed))
  | .invoke _ (.tickPosition accs) => inferInstanceAs (Decidable (accs.position = key))
  | .invoke _ (.updateTriggers accs _ _ _) => inferInstanceAs (Decidable (accs.position = key))
  | .invoke _ (.cancelPosition accs) => inferInstanceAs (Decidable (accs.position = key))
  | .invoke _ (.initializeConfig _ _ _) => inferInstanceAs (Decidable False)
  | .invoke _ (.initializePriceFeed _ _ _ _) => inferInstanceAs (Decidable False)
  | .invoke _ (.openPosition _ _) => inferInstanceAs (Decidable False)
  | .invoke _ (.delegatePosition _) => inferInstanceAs (Decidable False)
  | .invoke _ (.undelegatePosition _) => inferInstanceAs (Decidable False)
  | .transfer _ _ _ => inferInstanceAs (Decidable False)

/-- The record without its mark. -/
def Position.unmarked (position : Position) : Position :=
  { position with erDelegated := 0 }

/-- A position, its feed and the policy it is settled under. -/
structure PositionView where
  position : Option Position
  feed : Option PriceFeed
  policy : Option Policy
deriving DecidableEq, Repr

def World.viewOf (w : World) (rt : Runtime) (key feed : Pubkey) : PositionView where
  position := (w.positions key).map Position.unmarked
  feed := w.feeds feed
  policy := w.policy rt

/-- The same settings under the same bump; the counters may differ. -/
structure SamePolicy (config config' : Config) : Prop extends SameRates config config' where
  admin : config'.admin = config.admin

/-- The position, its feed and the policy as they are in both worlds. -/
structure SeenAlike (rt : Runtime) (key feed : Pubkey) (w v : World) : Prop where
  position : ∃ p q, w.positions key = some p ∧ v.positions key = some q ∧ SameButMark p q ∧
    p.feed = feed
  feed : ∃ f, w.feeds feed = some f ∧ v.feeds feed = some f
  config : ∃ c d, w.configs rt.configAddress = some c ∧ v.configs rt.configAddress = some d ∧
    SamePolicy c d

/-- Two steps side by side: what is seen stays alike, and the same amounts change hands. -/
structure GoAlike (rt : Runtime) (key feed : Pubkey) (w v w' v' : World) : Prop where
  after : SeenAlike rt key feed w' v'
  paid : ∃ transfers, Ledger.Moved transfers w.lamports w'.lamports ∧
    Ledger.Moved transfers v.lamports v'.lamports

/-- A run has a position at `key` that follows `feed`. -/
structure Follows (rt : Runtime) (key feed : Pubkey) (w : World) : Prop where
  reach : ReachableWithSupply rt w
  position : ∃ position, w.positions key = some position ∧ position.feed = feed

theorem SamePolicy.symm {config config' : Config} (h : SamePolicy config config') :
    SamePolicy config' config :=
  ⟨⟨h.bump.symm, h.feeReceiver.symm, h.feeBps.symm, h.keeperRewardBps.symm⟩, h.admin.symm⟩

theorem SamePolicy.sameKeys (config config' : Config) (h : SamePolicy config config') :
    SameKeys config config' :=
  ⟨h.admin, h.feeReceiver, h.bump⟩

theorem SamePolicy.of_policy {config config' : Config} (hbump : config'.bump = config.bump)
    (h : config'.policy = config.policy) : SamePolicy config config' :=
  ⟨⟨hbump, congrArg Policy.feeReceiver h, congrArg Policy.feeBps h,
    congrArg Policy.keeperRewardBps h⟩, congrArg Policy.admin h⟩

theorem SamePolicy.policy_eq {config config' : Config} (h : SamePolicy config config') :
    config'.policy = config.policy := by
  rw [Config.policy, Config.policy, h.admin, h.feeReceiver, h.feeBps, h.keeperRewardBps]

theorem sameButMark_iff {p q : Position} : SameButMark p q ↔ p.unmarked = q.unmarked := by
  constructor
  · rintro ⟨mark, rfl⟩
    rfl
  · intro h
    refine ⟨q.erDelegated, ?_⟩
    calc q = { q.unmarked with erDelegated := q.erDelegated } := rfl
      _ = { p.unmarked with erDelegated := q.erDelegated } := by rw [h]
      _ = { p with erDelegated := q.erDelegated } := rfl

section View

variable {rt : Runtime} {key feed : Pubkey} {w v : World}

theorem SeenAlike.symm (h : SeenAlike rt key feed w v) : SeenAlike rt key feed v w := by
  rcases h with ⟨⟨p, q, hp, hq, hpq, hfeed⟩, ⟨f, hf, hf'⟩, c, d, hc, hd, hcd⟩
  have hqp : SameButMark q p := sameButMark_iff.mpr (sameButMark_iff.mp hpq).symm
  have hfeed' : q.feed = feed := (hpq.sameAccount p q).feed.trans hfeed
  exact ⟨⟨q, p, hq, hp, hqp, hfeed'⟩, ⟨f, hf', hf⟩, d, c, hd, hc, hcd.symm⟩

theorem SeenAlike.view_eq (h : SeenAlike rt key feed w v) :
    w.viewOf rt key feed = v.viewOf rt key feed := by
  rcases h with ⟨⟨p, q, hp, hq, hpq, -⟩, ⟨f, hf, hf'⟩, c, d, hc, hd, hcd⟩
  simp only [World.viewOf, hp, hq, hf, hf', policy_of_config hc, policy_of_config hd,
    Option.map_some, sameButMark_iff.mp hpq, hcd.policy_eq]

theorem SeenAlike.loadPriceFeed (h : SeenAlike rt key feed w v) :
    v.loadPriceFeed feed = w.loadPriceFeed feed := by
  rcases h.feed with ⟨f, hf, hf'⟩
  rw [World.loadPriceFeed_eq_ok_iff.mpr hf, World.loadPriceFeed_eq_ok_iff.mpr hf']

theorem SeenAlike.loadConfig (h : SeenAlike rt key feed w v) :
    Coupled SamePolicy (w.loadConfig rt.configAddress) (v.loadConfig rt.configAddress) := by
  rcases h.config with ⟨c, d, hc, hd, hcd⟩
  rw [World.loadConfig_eq_ok_iff.mpr hc, World.loadConfig_eq_ok_iff.mpr hd]
  exact .ok hcd

theorem SeenAlike.loadPosition (h : SeenAlike rt key feed w v) :
    Coupled SameButMark (w.loadPosition key) (v.loadPosition key) := by
  rcases h.position with ⟨p, q, hp, hq, hpq, -⟩
  rw [World.loadPosition_eq_ok_iff.mpr hp, World.loadPosition_eq_ok_iff.mpr hq]
  exact .ok hpq

/-- Where a position follows the feed, everything its view shows is there. -/
theorem Follows.seenAlike (hw : Follows rt key feed w) (hv : Follows rt key feed v)
    (h : w.viewOf rt key feed = v.viewOf rt key feed) : SeenAlike rt key feed w v := by
  rcases hw.position with ⟨p, hp, hfeed⟩
  rcases hv.position with ⟨q, hq, -⟩
  have hwinv := reachable_invariant hw.reach.reachable
  have hvinv := reachable_invariant hv.reach.reachable
  rcases (hwinv.positions _ _ hp).feed with ⟨f, hf⟩
  rcases (hwinv.positions _ _ hp).config with ⟨c, hc⟩
  rcases (hvinv.positions _ _ hq).config with ⟨d, hd⟩
  rw [hfeed] at hf
  simp only [World.viewOf, hp, hq, policy_of_config hc, policy_of_config hd, Option.map_some,
    PositionView.mk.injEq, Option.some.injEq] at h
  rcases h with ⟨hposition, hfeeds, hpolicy⟩
  have hbump : d.bump = c.bump := by
    rw [(hwinv.configs _ _ hc).bump, (hvinv.configs _ _ hd).bump]
  exact ⟨⟨p, q, hp, hq, sameButMark_iff.mpr hposition, hfeed⟩,
    ⟨f, hf, by rw [← hfeeds, hf]⟩, c, d, hc, hd, .of_policy hbump hpolicy.symm⟩

theorem Follows.step (h : Follows rt key feed w) (action : Action) :
    Follows rt key feed (Hwal.step rt w action) := by
  rcases h.position with ⟨position, hposition, hfeed⟩
  rcases positions_persist rt hposition action with ⟨after, hafter⟩
  have hterms := step_sameTerms rt hposition hafter
  exact ⟨h.reach.step action, after, hafter, hterms.feed.trans hfeed⟩

end View

/-! ### What does not concern it -/

theorem viewOf_unconcerned {rt : Runtime} {key feed : Pubkey} {w w' : World} {action : Action}
    (hw : Follows rt key feed w) (h : Effect rt w action w')
    (hconcerns : ¬ action.Concerns key feed) :
    w'.viewOf rt key feed = w.viewOf rt key feed := by
  rcases hw.position with ⟨p, hp, hfeed⟩
  have hsound := (reachable_invariant hw.reach.reachable).positions _ _ hp
  rcases hsound.feed with ⟨f, hf⟩
  rcases hsound.config with ⟨c, hc⟩
  rw [hfeed] at hf
  have hposition : (w'.positions key).map Position.unmarked = some p.unmarked := by
    have hat := h.atPosition key
    rw [hp] at hat
    generalize w'.positions key = after at hat ⊢
    cases hat with
    | kept => rfl
    | retargeted account heff => exact absurd account hconcerns
    | ticked account heff => exact absurd account hconcerns
    | settled account heff => exact absurd account hconcerns
    | cancelled account heff => exact absurd account hconcerns
    | delegated account heff => rfl
    | undelegated account heff => rfl
  have hfeeds : w'.feeds feed = some f := by
    have hat := h.atFeed feed
    rw [hf] at hat
    generalize w'.feeds feed = after at hat ⊢
    cases hat with
    | kept => rfl
    | pushed account heff => exact absurd account hconcerns
    | registered account heff => exact absurd account hconcerns
    | verified account heff => exact absurd account hconcerns
  have hpolicy : w'.policy rt = some c.policy := by
    have hat := h.atConfig rt.configAddress
    rw [World.policy]
    rw [hc] at hat
    generalize w'.configs rt.configAddress = after at hat ⊢
    cases hat with
    | kept => rfl
    | changed account heff => exact absurd trivial hconcerns
    | opened account heff => rfl
    | settled account heff => rfl
    | cancelled account heff => rfl
  simp only [World.viewOf, hposition, hfeeds, hpolicy, hp, hf, policy_of_config hc,
    Option.map_some]

/-! ### Calls on the position -/

section Calls

variable {rt : Runtime} {feed : Pubkey} {w v : World} {tx : Tx}

theorem TickAccounts.seen_alike {accs : TickPosition} {config : Config} {read : PriceFeed}
    {p : Position} (haccs : TickAccounts accs rt w tx config read p) (hinv : Invariant rt w)
    (h : SeenAlike rt accs.position feed w v) :
    ∃ config' q, SameRates config config' ∧ SameButMark p q ∧
      TickAccounts accs rt v tx config' read q := by
  have hconfig : Coupled SamePolicy (w.loadConfig accs.config) (v.loadConfig accs.config) := by
    rw [(hinv.configs _ _ haccs.config_loaded).address]
    exact h.loadConfig
  have hread : v.loadPriceFeed accs.feed = w.loadPriceFeed accs.feed := by
    rcases h.position with ⟨p', -, hp, -, -, hfeed⟩
    obtain rfl := Option.some.inj (hp.symm.trans haccs.position_loaded)
    rw [haccs.feed_matches, hfeed, h.loadPriceFeed]
  have haccounts := tickPosition_tryAccounts_coupled rt tx SamePolicy.sameKeys
    SameButMark.sameAccount hconfig (coupled_eq hread) h.loadPosition
  rw [tickPosition_tryAccounts_eq_ok_iff.mpr haccs] at haccounts
  rcases haccounts.of_ok with ⟨⟨config', read', q⟩, hok, hpolicy, hfeeds, -, hpq⟩
  obtain rfl : read = read' := hfeeds
  exact ⟨config', q, hpolicy.toSameRates, hpq, tickPosition_tryAccounts_eq_ok_iff.mp hok⟩

theorem CancelAccounts.seen_alike {accs : CancelPosition} {config : Config} {p : Position}
    (haccs : CancelAccounts accs rt w tx config p) (hinv : Invariant rt w)
    (h : SeenAlike rt accs.position feed w v) :
    ∃ config' q, SameButMark p q ∧ CancelAccounts accs rt v tx config' q := by
  have hconfig : Coupled SamePolicy (w.loadConfig accs.config) (v.loadConfig accs.config) := by
    rw [(hinv.configs _ _ haccs.config_loaded).address]
    exact h.loadConfig
  have haccounts := cancelPosition_tryAccounts_coupled rt tx SamePolicy.sameKeys
    SameButMark.sameAccount hconfig h.loadPosition
  rw [cancelPosition_tryAccounts_eq_ok_iff.mpr haccs] at haccounts
  rcases haccounts.of_ok with ⟨⟨config', q⟩, hok, -, hpq⟩
  exact ⟨config', q, hpq, cancelPosition_tryAccounts_eq_ok_iff.mp hok⟩

/-- What the handler of a call on the position adds is the same but for the mark. -/
theorem Does.seen_alike {op : PositionOp} {delta : OpDelta} (hdoes : Does rt w tx op delta)
    (hinv : Invariant rt w) (h : SeenAlike rt op.key feed w v) :
    ∃ delta', Does rt v tx op delta' ∧ SameButMark delta.record delta'.record ∧
      delta'.transfers = delta.transfers := by
  cases hdoes with
  | ticked heval quiet =>
      rcases heval.accounts.seen_alike hinv h with ⟨config', q, -, hpq, haccs⟩
      have hobserved := hpq.observe
      rcases hpq with ⟨mark, rfl⟩
      exact ⟨_, .ticked ⟨haccs, heval.guards, heval.threshold⟩ quiet, hobserved _ _, rfl⟩
  | settled heval fires payout_of =>
      rcases heval.accounts.seen_alike hinv h with ⟨config', q, hrates, hpq, haccs⟩
      have hsettled := fun price now trigger => (hpq.observe price now).settled trigger now
      rcases hpq with ⟨mark, rfl⟩
      exact ⟨_, .settled ⟨haccs, heval.guards, heval.threshold⟩ fires
        (payout_of.of_sameRates hrates), hsettled _ _ _, rfl⟩
  | cancelled haccs status =>
      rcases haccs.seen_alike hinv h with ⟨config', q, hpq, haccs'⟩
      have hcancelled := hpq.cancelled
      rcases hpq with ⟨mark, rfl⟩
      exact ⟨_, .cancelled haccs' status, hcancelled _, rfl⟩
  | @retargeted accs stopPrice takeProfitPrice trailingOffset p record htry handled =>
      change SeenAlike rt accs.position feed w v at h
      have haccounts := updateTriggers_tryAccounts_coupled rt tx SameButMark.sameAccount
        h.loadPosition
      rw [htry] at haccounts
      rcases haccounts.of_ok with ⟨q', htry', hpq'⟩
      have hretarget := hpq'.retarget stopPrice takeProfitPrice trailingOffset
      rcases updateTriggersHandler_eq_ok_iff.mp handled with ⟨hopen, hplaced, rfl⟩
      rcases hpq' with ⟨mark, rfl⟩
      exact ⟨_, .retargeted htry' (updateTriggersHandler_eq_ok_iff.mpr ⟨hopen, hplaced, rfl⟩),
        hretarget, rfl⟩

theorem op_goes_alike (op : PositionOp) (hw : Follows rt op.key feed w)
    (hv : Follows rt op.key feed v) (h : SeenAlike rt op.key feed w v) {w' : World}
    (hok : attempt rt w (.invoke tx op.instruction) = .ok w') :
    ∃ v', attempt rt v (.invoke tx op.instruction) = .ok v' ∧
      GoAlike rt op.key feed w v w' v' := by
  have hwinv := reachable_invariant hw.reach.reachable
  have hvinv := reachable_invariant hv.reach.reachable
  rcases attempt_invoke_eq_ok_iff.mp hok with ⟨htx, hpre, hexec⟩
  rcases does_of_execute hwinv hexec with ⟨delta, hdoes, hadded⟩
  rcases hdoes.seen_alike hwinv h with ⟨delta', hdoes', hrecord, htransfers⟩
  rcases exists_execute_of_does hvinv (reachable_supply hv.reach) hdoes' with ⟨v', hexec'⟩
  rcases does_of_execute hvinv hexec' with ⟨delta'', hdoes'', hadded'⟩
  obtain rfl := hdoes'.unique hdoes''
  have hmoved := hadded'.lamports
  rw [htransfers] at hmoved
  refine ⟨v', attempt_invoke_eq_ok_iff.mpr ⟨htx, hpre, hexec'⟩, ⟨?_, ?_, ?_⟩,
    delta.transfers, hadded.lamports, hmoved⟩
  · have hfeed : delta.record.feed = feed := by
      rcases (hw.step (.invoke tx op.instruction)).position with ⟨after, hafter, hfeed⟩
      rw [step_of_ok hok, hadded.positions, Function.update_self] at hafter
      rw [Option.some.inj hafter, hfeed]
    refine ⟨delta.record, delta'.record, ?_, ?_, hrecord, hfeed⟩
    · rw [hadded.positions, Function.update_self]
    · rw [hadded'.positions, Function.update_self]
  · rw [hadded.feeds, hadded'.feeds]
    exact h.feed
  · rcases h.config with ⟨c, d, hc, hd, hcd⟩
    refine ⟨c.count delta.counts, d.count delta'.counts, ?_, ?_, ?_⟩
    · rw [hadded.configs, hc, Option.map_some]
    · rw [hadded'.configs, hd, Option.map_some]
    · exact ⟨⟨hcd.bump, hcd.feeReceiver, hcd.feeBps, hcd.keeperRewardBps⟩, hcd.admin⟩

end Calls

/-! ### Its feed and the policy -/

section Surroundings

variable {rt : Runtime} {key feed : Pubkey} {w v : World} {tx : Tx}

theorem SeenAlike.goAlike {w' v' : World} (h : SeenAlike rt key feed w' v')
    (hw : w'.lamports = w.lamports) (hv : v'.lamports = v.lamports) :
    GoAlike rt key feed w v w' v' := by
  refine ⟨h, [], ?_, ?_⟩
  · rw [hw]
    exact Ledger.Moved.nil _
  · rw [hv]
    exact Ledger.Moved.nil _

theorem SeenAlike.store_feed (h : SeenAlike rt key feed w v) (f : PriceFeed) :
    SeenAlike rt key feed (w.store feed (.priceFeed f)) (v.store feed (.priceFeed f)) := by
  rcases h.feed with ⟨f', hf, hf'⟩
  rcases World.views_of_feed hf with ⟨hconfig, hposition⟩
  rcases World.views_of_feed hf' with ⟨hconfig', hposition'⟩
  rcases views_store_feed f hconfig hposition with ⟨hc, hfeeds, hp⟩
  rcases views_store_feed f hconfig' hposition' with ⟨hc', hfeeds', hp'⟩
  constructor
  case position =>
    rw [hp, hp']
    exact h.position
  case feed =>
    rw [hfeeds, hfeeds', Function.update_self, Function.update_self]
    exact ⟨f, rfl, rfl⟩
  case config =>
    rw [hc, hc']
    exact h.config

theorem SeenAlike.store_config (h : SeenAlike rt key feed w v) {c d : Config}
    (hcd : SamePolicy c d) :
    SeenAlike rt key feed (w.store rt.configAddress (.config c))
      (v.store rt.configAddress (.config d)) := by
  rcases h.config with ⟨c', d', hc, hd, -⟩
  rcases World.views_of_config hc with ⟨hfeed, hposition⟩
  rcases World.views_of_config hd with ⟨hfeed', hposition'⟩
  rcases views_store_config c hfeed hposition with ⟨hconfigs, hf, hp⟩
  rcases views_store_config d hfeed' hposition' with ⟨hconfigs', hf', hp'⟩
  constructor
  case position =>
    rw [hp, hp']
    exact h.position
  case feed =>
    rw [hf, hf']
    exact h.feed
  case config =>
    rw [hconfigs, hconfigs', Function.update_self, Function.update_self]
    exact ⟨c, d, rfl, rfl, hcd⟩

theorem SeenAlike.emit (h : SeenAlike rt key feed w v) (event event' : Event) :
    SeenAlike rt key feed (w.emit event) (v.emit event') :=
  ⟨h.position, h.feed, h.config⟩

theorem updatePriceFeed_goes_alike (h : SeenAlike rt key feed w v) {accs : UpdatePriceFeed}
    (hfeed : accs.feed = feed) (newPrice : UInt64) :
    Coupled (GoAlike rt key feed w v) (updatePriceFeed w tx accs newPrice)
      (updatePriceFeed v tx accs newPrice) := by
  subst hfeed
  apply updatePriceFeed_coupled SameSource.of_eq (coupled_eq h.loadPriceFeed) Iff.rfl
  rintro f _ rfl
  exact ((h.store_feed _).emit _ _).goAlike rfl rfl

theorem updatePriceFeedFromLazer_goes_alike (h : SeenAlike rt key feed w v)
    {accs : UpdatePriceFeedFromLazer} (hfeed : accs.feed = feed) (payload : List UInt8) :
    Coupled (GoAlike rt key feed w v) (updatePriceFeedFromLazer w tx accs payload)
      (updatePriceFeedFromLazer v tx accs payload) := by
  subst hfeed
  apply updatePriceFeedFromLazer_coupled rfl rfl rfl (coupled_eq h.loadPriceFeed)
  · rintro f _ rfl
    exact coupled_eq rfl
  · rintro f _ message _ rfl rfl
    exact (((h.store_feed _).emit _ _).emit _ _).goAlike rfl rfl

theorem registerLazerFeed_goes_alike (h : SeenAlike rt key feed w v) {accs : RegisterLazerFeed}
    (hfeed : accs.feed = feed) (hconfig : accs.config = rt.configAddress)
    (lazerFeedId : UInt64) (channel : UInt8) :
    Coupled (GoAlike rt key feed w v) (registerLazerFeed rt w tx accs lazerFeedId channel)
      (registerLazerFeed rt v tx accs lazerFeedId channel) := by
  subst hfeed
  have hconfigs := h.loadConfig
  rw [← hconfig] at hconfigs
  apply registerLazerFeed_coupled SamePolicy.sameKeys SameSource.of_eq hconfigs
    (coupled_eq h.loadPriceFeed)
  rintro f _ rfl
  exact ((h.store_feed _).emit _ _).goAlike rfl rfl

theorem SamePolicy.setFeeBps {c d : Config} (h : SamePolicy c d) (change : Option UInt16) :
    Coupled SamePolicy (setFeeBps c change) (setFeeBps d change) := by
  cases change with
  | none => exact .ok h
  | some feeBps =>
      apply Coupled.same_guard
      exact .pure ⟨⟨h.bump, h.feeReceiver, rfl, h.keeperRewardBps⟩, h.admin⟩

theorem SamePolicy.setKeeperRewardBps {c d : Config} (h : SamePolicy c d)
    (change : Option UInt16) :
    Coupled SamePolicy (setKeeperRewardBps c change) (setKeeperRewardBps d change) := by
  cases change with
  | none => exact .ok h
  | some rewardBps =>
      apply Coupled.same_guard
      exact .pure ⟨⟨h.bump, h.feeReceiver, h.feeBps, rfl⟩, h.admin⟩

theorem SamePolicy.updateConfigHandler {c d : Config} (h : SamePolicy c d)
    (newAdmin newFeeReceiver : Option Pubkey) (newFeeBps newKeeperRewardBps : Option UInt16) :
    Coupled SamePolicy
      (updateConfigHandler c newAdmin newFeeReceiver newFeeBps newKeeperRewardBps)
      (updateConfigHandler d newAdmin newFeeReceiver newFeeBps newKeeperRewardBps) := by
  have hnamed : SamePolicy
      { c with
        admin := newAdmin.getD c.admin
        feeReceiver := newFeeReceiver.getD c.feeReceiver }
      { d with
        admin := newAdmin.getD d.admin
        feeReceiver := newFeeReceiver.getD d.feeReceiver } := by
    rw [h.admin, h.feeReceiver]
    exact ⟨⟨h.bump, rfl, h.feeBps, h.keeperRewardBps⟩, rfl⟩
  unfold Hwal.updateConfigHandler
  apply (hnamed.setFeeBps newFeeBps).bind
  intro c' d' hcd
  exact hcd.setKeeperRewardBps newKeeperRewardBps

theorem updateConfig_goes_alike (h : SeenAlike rt key feed w v) {accs : UpdateConfig}
    (hconfig : accs.config = rt.configAddress) (newAdmin newFeeReceiver : Option Pubkey)
    (newFeeBps newKeeperRewardBps : Option UInt16) :
    Coupled (GoAlike rt key feed w v)
      (updateConfig rt w tx accs newAdmin newFeeReceiver newFeeBps newKeeperRewardBps)
      (updateConfig rt v tx accs newAdmin newFeeReceiver newFeeBps newKeeperRewardBps) := by
  have hconfigs := h.loadConfig
  rw [← hconfig] at hconfigs
  apply updateConfig_coupled SamePolicy.sameKeys hconfigs
  · intro c d hcd
    exact hcd.updateConfigHandler _ _ _ _
  · intro c d hcd
    rw [hconfig]
    exact (h.store_config hcd).goAlike rfl rfl

end Surroundings

/-! ### What concerns it -/

section Concerned

variable {rt : Runtime} {key feed : Pubkey} {w v w' : World} {action : Action}

theorem invoke_goes_alike {tx : Tx} {ix : Instruction}
    (hok : attempt rt w (.invoke tx ix) = .ok w')
    (h : Coupled (GoAlike rt key feed w v) (execute rt w tx ix) (execute rt v tx ix)) :
    ∃ v', attempt rt v (.invoke tx ix) = .ok v' ∧ GoAlike rt key feed w v w' v' := by
  rcases attempt_invoke_eq_ok_iff.mp hok with ⟨htx, hpre, hexec⟩
  rw [hexec] at h
  rcases h.of_ok with ⟨v', hexec', hgo⟩
  exact ⟨v', attempt_invoke_eq_ok_iff.mpr ⟨htx, hpre, hexec'⟩, hgo⟩

/-- What concerns the position and is accepted in one world is accepted in the other. -/
theorem concerned_goes_alike (hw : Follows rt key feed w) (hv : Follows rt key feed v)
    (h : SeenAlike rt key feed w v) (hconcerns : action.Concerns key feed)
    (hok : attempt rt w action = .ok w') :
    ∃ v', attempt rt v action = .ok v' ∧ GoAlike rt key feed w v w' v' := by
  have hinv := reachable_invariant hw.reach.reachable
  have heffect := attempt_effect hok
  cases heffect with
  | configChanged heff =>
      have hconfig := (hinv.configs _ _ heff.loaded).address
      exact invoke_goes_alike hok (updateConfig_goes_alike h hconfig _ _ _ _)
  | feedPushed heff => exact invoke_goes_alike hok (updatePriceFeed_goes_alike h hconcerns _)
  | feedRegistered heff =>
      have hconfig := (hinv.configs _ _ heff.config_loaded).address
      exact invoke_goes_alike hok (registerLazerFeed_goes_alike h hconcerns hconfig _ _)
  | feedVerified heff =>
      exact invoke_goes_alike hok (updatePriceFeedFromLazer_goes_alike h hconcerns _)
  | @triggersChanged tx accs stopPrice takeProfitPrice trailingOffset position w' heff =>
      obtain rfl : accs.position = key := hconcerns
      exact op_goes_alike (.retarget accs stopPrice takeProfitPrice trailingOffset) hw hv h hok
  | @tickRecorded tx accs config read position w' heff =>
      obtain rfl : accs.position = key := hconcerns
      exact op_goes_alike (.tick accs) hw hv h hok
  | @positionSettled tx accs config read position payout w' heff =>
      obtain rfl : accs.position = key := hconcerns
      exact op_goes_alike (.tick accs) hw hv h hok
  | @positionCancelled tx accs config position w' heff =>
      obtain rfl : accs.position = key := hconcerns
      exact op_goes_alike (.cancel accs) hw hv h hok
  | configCreated heff => exact hconcerns.elim
  | feedCreated heff => exact hconcerns.elim
  | positionOpened heff => exact hconcerns.elim
  | delegated heff => exact hconcerns.elim
  | undelegated heff => exact hconcerns.elim
  | lamportsSent heff => exact hconcerns.elim

theorem step_goes_alike (hw : Follows rt key feed w) (hv : Follows rt key feed v)
    (h : SeenAlike rt key feed w v) (hconcerns : action.Concerns key feed) :
    SeenAlike rt key feed (step rt w action) (step rt v action) := by
  rcases ok_or_error (attempt rt w action) with ⟨w', hok⟩ | ⟨error, herror⟩
  · rcases concerned_goes_alike hw hv h hconcerns hok with ⟨v', hok', hgo⟩
    rw [step_of_ok hok, step_of_ok hok']
    exact hgo.after
  · rcases ok_or_error (attempt rt v action) with ⟨v', hok'⟩ | ⟨error', herror'⟩
    · rcases concerned_goes_alike hv hw h.symm hconcerns hok' with ⟨w', hok, -⟩
      rw [herror] at hok
      contradiction
    · rw [step_of_error herror, step_of_error herror']
      exact h

end Concerned

theorem view_unwinding (rt : Runtime) (key feed : Pubkey) :
    Transition.Unwinding (step rt) (Follows rt key feed) (World.viewOf · rt key feed)
      (Action.Concerns key feed) := by
  constructor
  case keeps =>
    intro w action hw
    exact hw.step action
  case unwatched =>
    intro w action hw hconcerns
    rcases step_effect rt w action with heffect | hsame
    · exact viewOf_unconcerned hw heffect hconcerns
    · rw [hsame]
  case alike =>
    intro w v action hw hv hconcerns hview
    exact (step_goes_alike hw hv (hw.seenAlike hv hview) hconcerns).view_eq

/-- Let two runs from one state take the same calls on a position, updates of its feed and
changes of policy, in the same order, and differ in everything else.  They leave the position
(but for the mark), the feed and the policy the same, and whatever concerns the position next
is accepted after both or after neither, and moves the same lamports. -/
theorem position_isolated (rt : Runtime) {w : World} (hreach : ReachableWithSupply rt w)
    {key : Pubkey} {position : Position} (hposition : w.positions key = some position)
    {actions others : List Action}
    (hsame : actions.filter (Action.Concerns key position.feed ·) =
      others.filter (Action.Concerns key position.feed ·)) :
    let w₁ := runFrom rt w actions
    let w₂ := runFrom rt w others
    w₁.viewOf rt key position.feed = w₂.viewOf rt key position.feed ∧
      ∀ action, action.Concerns key position.feed →
        ((∃ w', attempt rt w₁ action = .ok w') ↔ ∃ w', attempt rt w₂ action = .ok w') ∧
        ∀ w₁' w₂', attempt rt w₁ action = .ok w₁' → attempt rt w₂ action = .ok w₂' →
          ∃ transfers, Ledger.Moved transfers w₁.lamports w₁'.lamports ∧
            Ledger.Moved transfers w₂.lamports w₂'.lamports := by
  intro w₁ w₂
  have hstart : Follows rt key position.feed w := ⟨hreach, position, hposition, rfl⟩
  have hunwinding := view_unwinding rt key position.feed
  have h₁ : Follows rt key position.feed w₁ :=
    Transition.run_invariant (step rt) hstart hunwinding.keeps actions
  have h₂ : Follows rt key position.feed w₂ :=
    Transition.run_invariant (step rt) hstart hunwinding.keeps others
  have hview := hunwinding.view_run_eq hstart hsame
  have halike := h₁.seenAlike h₂ hview
  refine ⟨hview, ?_⟩
  intro action hconcerns
  constructor
  · constructor
    · rintro ⟨w', hok⟩
      rcases concerned_goes_alike h₁ h₂ halike hconcerns hok with ⟨v', hok', -⟩
      exact ⟨v', hok'⟩
    · rintro ⟨w', hok⟩
      rcases concerned_goes_alike h₂ h₁ halike.symm hconcerns hok with ⟨v', hok', -⟩
      exact ⟨v', hok'⟩
  · intro w₁' w₂' hok₁ hok₂
    rcases concerned_goes_alike h₁ h₂ halike hconcerns hok₁ with ⟨v', hok', hgo⟩
    obtain rfl := Except.ok.inj (hok₂.symm.trans hok')
    exact hgo.paid

section Busy

open Localnet

/-- Two prices, and around them dust for the position, a delegation and a transfer. -/
def busy : List Action :=
  [.transfer keeper position 5, push 101000000 1004,
    .invoke (tx alice 1005) (.delegatePosition ⟨alice, position, magicblockDelegationProgramId,
      keeper, poster, feedAuthority, systemProgramId⟩),
    .transfer poster feeReceiver 1000000, push 89000000 1006]

/-- The two prices alone. -/
def calm : List Action := [push 101000000 1004, push 89000000 1006]

/-- Alice's position is marked in one run and not in the other, and fires in both. -/
theorem position_isolated_busy :
    let w := runFrom cluster (World.genesis funds) (launch ++ [deposit])
    (runFrom cluster w busy).viewOf cluster position feed =
        (runFrom cluster w calm).viewOf cluster position feed ∧
      ((∃ w', attempt cluster (runFrom cluster w busy) (tick feeReceiver 1007) = .ok w') ↔
        ∃ w', attempt cluster (runFrom cluster w calm) (tick feeReceiver 1007) = .ok w') := by
  intro w
  have hwatches : (w.positions position).map Position.feed = some feed := by decide +kernel
  rcases Option.map_eq_some_iff.mp hwatches with ⟨record, hrecord, hfeed⟩
  have hsame : busy.filter (Action.Concerns position record.feed ·) =
      calm.filter (Action.Concerns position record.feed ·) := by
    rw [hfeed]
    rfl
  have hisolated := position_isolated cluster ⟨funds, launch ++ [deposit], funds_supply, rfl⟩
    hrecord hsame
  rw [hfeed] at hisolated
  exact ⟨hisolated.1, (hisolated.2 (tick feeReceiver 1007) rfl).1⟩

end Busy

end Hwal
