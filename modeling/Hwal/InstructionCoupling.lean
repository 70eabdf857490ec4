/-
Two runs of one call side by side, in two worlds and perhaps with other arguments.  Each
instruction is walked through once, here: where what it loads is related in both worlds and
what its handler makes of it stays so, the call fails with one error in both, or leaves in
both what it writes.
-/
import Hwal.Coherence
import Hwal.InstructionData
import Hwal.Support.Coupling

namespace Hwal

open Guard

/-! ### Related records -/

/-- What the account constraints read of a config. -/
structure SameKeys (config config' : Config) : Prop where
  admin : config'.admin = config.admin
  feeReceiver : config'.feeReceiver = config.feeReceiver
  bump : config'.bump = config.bump

/-- What they read of a feed. -/
structure SameSource (feed feed' : PriceFeed) : Prop where
  authority : feed'.authority = feed.authority
  source : feed'.source = feed.source

/-- What they read of a position. -/
structure SameAccount (p q : Position) : Prop where
  owner : q.owner = p.owner
  feed : q.feed = p.feed
  nonce : q.nonce = p.nonce
  bump : q.bump = p.bump

/-- Positions under the same constraints, both open or both closed in the same way, that
hold the same. -/
structure SameDeposit (p q : Position) : Prop extends SameAccount p q where
  status : q.status = p.status
  collateral : q.collateral = p.collateral

theorem SameKeys.of_eq (config config' : Config) (h : config = config') :
    SameKeys config config' := by
  subst h
  exact ⟨rfl, rfl, rfl⟩

theorem SameSource.of_eq (feed feed' : PriceFeed) (h : feed = feed') :
    SameSource feed feed' := by
  subst h
  exact ⟨rfl, rfl⟩

theorem SameDeposit.of_eq (p q : Position) (h : p = q) : SameDeposit p q := by
  subst h
  exact ⟨⟨rfl, rfl, rfl, rfl⟩, rfl, rfl⟩

theorem coupled_eq {ε α : Type} {x y : Except ε α} (h : y = x) : Coupled Eq x y := by
  rw [h]
  exact Coupled.refl (fun _ => rfl) x

theorem okOr_coupled {α β ε : Type} {R : α → β → Prop} {x : Option α} {y : Option β}
    (h : Option.Rel R x y) (error : ε) : Coupled R (okOr x error) (okOr y error) := by
  cases h with
  | some hab => exact .ok hab
  | none => exact .error error

/-! ### Related balances -/

/-- Balances related by `L` are the same on the listed accounts, and stay related when
lamports move among these. -/
structure MovesAlike (rt : Runtime) (tx : Tx) (accounts : List Pubkey)
    (L : Lamports → Lamports → Prop) : Prop where
  balance : ∀ {lamports lamports'}, L lamports lamports' → ∀ key ∈ accounts,
    lamports' key = lamports key
  transfer : ∀ {lamports lamports'}, L lamports lamports' → ∀ {src dst}, src ∈ accounts →
    dst ∈ accounts → ∀ amount,
      Coupled L (systemTransfer lamports src dst amount) (systemTransfer lamports' src dst amount)
  payOut : ∀ {lamports lamports'}, L lamports lamports' → ∀ {src dst}, src ∈ accounts →
    dst ∈ accounts → ∀ amount,
      Coupled L (payOut lamports src dst amount) (payOut lamports' src dst amount)
  delegation : ∀ {lamports lamports'}, L lamports lamports' → ∀ {ix : CpiInstruction},
    (∀ account ∈ ix.accounts, account.pubkey ∈ accounts) →
      Option.Rel L (rt.invokeDelegation ix tx lamports) (rt.invokeDelegation ix tx lamports')

/-- Equal balances stay equal, whatever moves. -/
theorem MovesAlike.eq (rt : Runtime) (tx : Tx) (accounts : List Pubkey) :
    MovesAlike rt tx accounts Eq := by
  constructor
  case balance =>
    rintro lamports _ rfl key _
    rfl
  case transfer =>
    rintro lamports _ rfl src dst _ _ amount
    exact coupled_eq rfl
  case payOut =>
    rintro lamports _ rfl src dst _ _ amount
    exact coupled_eq rfl
  case delegation =>
    rintro lamports _ rfl ix _
    cases rt.invokeDelegation ix tx lamports with
    | none => exact .none
    | some after => exact .some rfl

/-- The balances are related, and the bump is one. -/
def FundedAlike (L : Lamports → Lamports → Prop) (x y : Lamports × UInt8) : Prop :=
  L x.1 y.1 ∧ y.2 = x.2

section Balances

variable {rt : Runtime} {tx : Tx} {accounts : List Pubkey} {L : Lamports → Lamports → Prop}
  {w v : World} (hmoves : MovesAlike rt tx accounts L)

include hmoves

theorem MovesAlike.fundRent (hlamports : L w.lamports v.lamports) {payer account : Pubkey}
    (hpayer : payer ∈ accounts) (haccount : account ∈ accounts) (space : Nat) :
    Coupled L (w.fundRent rt payer account space) (v.fundRent rt payer account space) := by
  simp only [World.fundRent, hmoves.balance hlamports account haccount]
  split
  · exact hmoves.transfer hlamports hpayer haccount _
  · exact .ok hlamports

/-- An account is initialised alike where it is unused in both worlds or in neither. -/
theorem MovesAlike.initAccount (hlamports : L w.lamports v.lamports) {payer account : Pubkey}
    (hpayer : payer ∈ accounts) (haccount : account ∈ accounts)
    (hunused : v.accounts account = none ↔ w.accounts account = none) (seeds : Seeds)
    (space : Nat) :
    Coupled (FundedAlike L) (w.initAccount rt tx payer account seeds space)
      (v.initAccount rt tx payer account seeds space) := by
  have hfunds := hmoves.fundRent hlamports hpayer haccount space
  have hcreated : Coupled L (w.createAccount rt tx payer account space)
      (v.createAccount rt tx payer account space) := by
    simp only [World.createAccount, hmoves.balance hlamports account haccount, hunused]
    split
    · apply Coupled.same_guard
      apply Coupled.same_guard
      exact hfunds
    · apply Coupled.same_guard
      apply hfunds.bind
      intro lamports lamports' hfunded
      apply Coupled.same_guard
      apply Coupled.same_guard
      exact .pure hfunded
  unfold World.initAccount
  apply Coupled.same_guard
  apply hcreated.bind
  intro lamports lamports' hfunded
  apply Coupled.same_guard
  exact .pure ⟨hfunded, rfl⟩

theorem MovesAlike.payAll {lamports lamports' : Lamports} (h : L lamports lamports')
    {accs : TickPosition} (hposition : accs.position ∈ accounts)
    (hfeeReceiver : accs.feeReceiver ∈ accounts) (hkeeper : accs.keeper ∈ accounts)
    (howner : accs.owner ∈ accounts) (payout : Payout) :
    Coupled L (payAll lamports accs payout) (payAll lamports' accs payout) := by
  unfold Hwal.payAll
  apply (hmoves.payOut h hposition hfeeReceiver payout.fee).bind
  intro _ _ hfee
  apply (hmoves.payOut hfee hposition hkeeper payout.keeperReward).bind
  intro _ _ hreward
  exact hmoves.payOut hreward hposition howner payout.netToOwner

end Balances

/-! ### The accounts of a position -/

section Accounts

variable (rt : Runtime) (tx : Tx) {w v : World} {C : Config → Config → Prop}
  {F : PriceFeed → PriceFeed → Prop} {R : Position → Position → Prop}
  (hkeys : ∀ c d, C c d → SameKeys c d) (hsame : ∀ p q, R p q → SameAccount p q)

include hsame

theorem updateTriggers_tryAccounts_coupled {accs : UpdateTriggers}
    (hposition : Coupled R (w.loadPosition accs.position) (v.loadPosition accs.position)) :
    Coupled R (accs.tryAccounts rt w tx) (accs.tryAccounts rt v tx) := by
  unfold UpdateTriggers.tryAccounts
  apply Coupled.same_guard
  apply hposition.bind
  intro p q hpq
  rcases hsame p q hpq with ⟨howner, -, hnonce, hbump⟩
  rw [howner, hnonce, hbump]
  apply Coupled.same_guard
  apply Coupled.same_guard
  apply Coupled.same_guard
  exact .pure hpq

theorem delegatePosition_tryAccounts_coupled {accs : DelegatePosition}
    (hposition : Coupled R (w.loadPosition accs.position) (v.loadPosition accs.position)) :
    Coupled R (accs.tryAccounts rt w tx) (accs.tryAccounts rt v tx) := by
  unfold DelegatePosition.tryAccounts
  apply Coupled.same_guard
  apply hposition.bind
  intro p q hpq
  rcases hsame p q hpq with ⟨howner, -, hnonce, hbump⟩
  rw [howner, hnonce, hbump]
  apply Coupled.same_guard
  apply Coupled.same_guard
  apply Coupled.same_guard
  apply Coupled.same_guard
  apply Coupled.same_guard
  apply Coupled.same_guard
  apply Coupled.same_guard
  apply Coupled.same_guard
  exact .pure hpq

theorem undelegatePosition_tryAccounts_coupled {accs : UndelegatePosition}
    (hposition : Coupled R (w.loadPosition accs.position) (v.loadPosition accs.position)) :
    Coupled R (accs.tryAccounts rt w tx) (accs.tryAccounts rt v tx) := by
  unfold UndelegatePosition.tryAccounts
  apply Coupled.same_guard
  apply hposition.bind
  intro p q hpq
  rcases hsame p q hpq with ⟨howner, -, hnonce, hbump⟩
  rw [howner, hnonce, hbump]
  apply Coupled.same_guard
  apply Coupled.same_guard
  apply Coupled.same_guard
  apply Coupled.same_guard
  apply Coupled.same_guard
  apply Coupled.same_guard
  apply Coupled.same_guard
  exact .pure hpq

include hkeys

theorem tickPosition_tryAccounts_coupled {accs : TickPosition}
    (hconfig : Coupled C (w.loadConfig accs.config) (v.loadConfig accs.config))
    (hfeed : Coupled F (w.loadPriceFeed accs.feed) (v.loadPriceFeed accs.feed))
    (hposition : Coupled R (w.loadPosition accs.position) (v.loadPosition accs.position)) :
    Coupled
      (fun x y => C x.1 y.1 ∧ F x.2.1 y.2.1 ∧ accs.feed = x.2.2.feed ∧ R x.2.2 y.2.2)
      (accs.tryAccounts rt w tx) (accs.tryAccounts rt v tx) := by
  unfold TickPosition.tryAccounts
  apply Coupled.same_guard
  apply hconfig.bind
  intro c d hcd
  apply hfeed.bind
  intro f g hfg
  apply hposition.bind
  intro p q hpq
  rcases hsame p q hpq with ⟨howner, hfeedKey, hnonce, hbump⟩
  rw [(hkeys c d hcd).bump, (hkeys c d hcd).feeReceiver, howner, hfeedKey, hnonce, hbump]
  apply Coupled.same_guard
  apply Coupled.same_guard
  apply Coupled.same_guard
  apply Coupled.same_bind
  intro _ hmatches
  apply Coupled.same_guard
  apply Coupled.same_guard
  apply Coupled.same_guard
  apply Coupled.same_guard
  apply Coupled.same_guard
  apply Coupled.same_guard
  exact .pure ⟨hcd, hfg, require_eq_ok_iff.mp hmatches, hpq⟩

theorem cancelPosition_tryAccounts_coupled {accs : CancelPosition}
    (hconfig : Coupled C (w.loadConfig accs.config) (v.loadConfig accs.config))
    (hposition : Coupled R (w.loadPosition accs.position) (v.loadPosition accs.position)) :
    Coupled (fun x y => C x.1 y.1 ∧ R x.2 y.2) (accs.tryAccounts rt w tx)
      (accs.tryAccounts rt v tx) := by
  unfold CancelPosition.tryAccounts
  apply Coupled.same_guard
  apply hconfig.bind
  intro c d hcd
  apply hposition.bind
  intro p q hpq
  rcases hsame p q hpq with ⟨howner, -, hnonce, hbump⟩
  rw [(hkeys c d hcd).bump, howner, hnonce, hbump]
  apply Coupled.same_guard
  apply Coupled.same_guard
  apply Coupled.same_guard
  apply Coupled.same_guard
  apply Coupled.same_guard
  apply Coupled.same_guard
  exact .pure ⟨hcd, hpq⟩

end Accounts

/-! ### The instructions

`C`, `F` and `R` relate the configs, feeds and positions a call loads, `L` the balances, and
`T` the worlds it leaves behind. -/

section Instructions

variable {rt : Runtime} {tx : Tx} {w v : World} {C : Config → Config → Prop}
  {F : PriceFeed → PriceFeed → Prop} {R : Position → Position → Prop}
  {L : Lamports → Lamports → Prop} {T : World → World → Prop}

/-! #### The policy -/

theorem initializeConfig_coupled {accs : InitializeConfig} {feeBps keeperRewardBps : UInt16}
    (hinit : Coupled (FundedAlike L)
      (w.initAccount rt tx accs.admin accs.config .config configSpace)
      (v.initAccount rt tx accs.admin accs.config .config configSpace))
    (hwrite : ∀ lamports lamports' bump, L lamports lamports' →
      let record := newConfig accs feeBps keeperRewardBps bump
      let event := Event.configInitialized accs.admin feeBps keeperRewardBps
      T (((w.withLamports lamports).store accs.config (.config record)).emit event)
        (((v.withLamports lamports').store accs.config (.config record)).emit event)) :
    Coupled T (initializeConfig rt w tx accs feeBps keeperRewardBps)
      (initializeConfig rt v tx accs feeBps keeperRewardBps) := by
  unfold initializeConfig
  apply Coupled.same_guard
  apply Coupled.same_guard
  apply hinit.bind
  rintro ⟨lamports, bump⟩ ⟨lamports', bump'⟩ ⟨hlamports, hbump⟩
  obtain rfl : bump' = bump := hbump
  apply Coupled.same_guard
  apply Coupled.same_guard
  exact .pure (hwrite lamports lamports' bump' hlamports)

theorem updateConfig_coupled {accs : UpdateConfig} {newAdmin newFeeReceiver : Option Pubkey}
    {newFeeBps newKeeperRewardBps : Option UInt16} (hkeys : ∀ c d, C c d → SameKeys c d)
    (hconfig : Coupled C (w.loadConfig accs.config) (v.loadConfig accs.config))
    (hhandler : ∀ c d, C c d → Coupled C
      (updateConfigHandler c newAdmin newFeeReceiver newFeeBps newKeeperRewardBps)
      (updateConfigHandler d newAdmin newFeeReceiver newFeeBps newKeeperRewardBps))
    (hwrite : ∀ c d, C c d →
      T (w.store accs.config (.config c)) (v.store accs.config (.config d))) :
    Coupled T (updateConfig rt w tx accs newAdmin newFeeReceiver newFeeBps newKeeperRewardBps)
      (updateConfig rt v tx accs newAdmin newFeeReceiver newFeeBps newKeeperRewardBps) := by
  have haccounts : Coupled C (accs.tryAccounts rt w tx) (accs.tryAccounts rt v tx) := by
    unfold UpdateConfig.tryAccounts
    apply Coupled.same_guard
    apply hconfig.bind
    intro c d hcd
    rw [(hkeys c d hcd).admin, (hkeys c d hcd).bump]
    apply Coupled.same_guard
    apply Coupled.same_guard
    apply Coupled.same_guard
    exact .pure hcd
  unfold updateConfig
  apply haccounts.bind
  intro c d hcd
  apply (hhandler c d hcd).bind
  intro c' d' hcd'
  exact .pure (hwrite c' d' hcd')

/-! #### Feeds -/

theorem initializePriceFeed_coupled {accs : InitializePriceFeed} {symbol : FeedSymbol}
    {decimals decimals' : UInt8} {price price' : UInt64}
    (hkeys : ∀ c d, C c d → SameKeys c d)
    (hconfig : Coupled C (w.loadConfig accs.config) (v.loadConfig accs.config))
    (hinit : Coupled (FundedAlike L)
      (w.initAccount rt tx accs.admin accs.feed (.feed symbol) priceFeedSpace)
      (v.initAccount rt tx accs.admin accs.feed (.feed symbol) priceFeedSpace))
    (hprice : 0 < price' ↔ 0 < price)
    (hwrite : ∀ lamports lamports' bump, L lamports lamports' →
      T (((w.withLamports lamports).store accs.feed (.priceFeed
            (newPriceFeed accs symbol decimals price tx.unixTimestamp bump))).emit
          (.priceFeedInitialized accs.feed accs.authority symbol decimals price))
        (((v.withLamports lamports').store accs.feed (.priceFeed
            (newPriceFeed accs symbol decimals' price' tx.unixTimestamp bump))).emit
          (.priceFeedInitialized accs.feed accs.authority symbol decimals' price'))) :
    Coupled T (initializePriceFeed rt w tx accs symbol decimals price)
      (initializePriceFeed rt v tx accs symbol decimals' price') := by
  unfold initializePriceFeed
  simp only [gt_iff_lt, hprice]
  apply Coupled.same_guard
  apply hconfig.bind
  intro c d hcd
  rw [(hkeys c d hcd).admin, (hkeys c d hcd).bump]
  apply Coupled.same_guard
  apply hinit.bind
  rintro ⟨lamports, bump⟩ ⟨lamports', bump'⟩ ⟨hlamports, hbump⟩
  obtain rfl : bump' = bump := hbump
  apply Coupled.same_guard
  apply Coupled.same_guard
  apply Coupled.same_guard
  exact .pure (hwrite lamports lamports' bump' hlamports)

theorem updatePriceFeed_coupled {accs : UpdatePriceFeed} {price price' : UInt64}
    (hsource : ∀ f g, F f g → SameSource f g)
    (hfeed : Coupled F (w.loadPriceFeed accs.feed) (v.loadPriceFeed accs.feed))
    (hprice : 0 < price' ↔ 0 < price)
    (hwrite : ∀ f g, F f g →
      let updated := f.record price tx.unixTimestamp
      let updated' := g.record price' tx.unixTimestamp
      T ((w.store accs.feed (.priceFeed updated)).emit
          (PriceFeed.updatedEvent accs.feed f updated))
        ((v.store accs.feed (.priceFeed updated')).emit
          (PriceFeed.updatedEvent accs.feed g updated'))) :
    Coupled T (updatePriceFeed w tx accs price) (updatePriceFeed v tx accs price') := by
  have haccounts : Coupled F (accs.tryAccounts w tx) (accs.tryAccounts v tx) := by
    unfold UpdatePriceFeed.tryAccounts
    apply Coupled.same_guard
    apply hfeed.bind
    intro f g hfg
    rw [(hsource f g hfg).authority]
    apply Coupled.same_guard
    apply Coupled.same_guard
    exact .pure hfg
  unfold updatePriceFeed
  apply haccounts.bind
  intro f g hfg
  simp only [gt_iff_lt, hprice]
  apply Coupled.same_guard
  exact .pure (hwrite f g hfg)

theorem registerLazerFeed_coupled {accs : RegisterLazerFeed} {lazerFeedId : UInt64}
    {channel : UInt8} (hkeys : ∀ c d, C c d → SameKeys c d)
    (hsource : ∀ f g, F f g → SameSource f g)
    (hconfig : Coupled C (w.loadConfig accs.config) (v.loadConfig accs.config))
    (hfeed : Coupled F (w.loadPriceFeed accs.feed) (v.loadPriceFeed accs.feed))
    (hwrite : ∀ f g, F f g →
      let event := Event.lazerFeedRegistered accs.feed lazerFeedId channel
      T ((w.store accs.feed (.priceFeed (f.register lazerFeedId channel))).emit event)
        ((v.store accs.feed (.priceFeed (g.register lazerFeedId channel))).emit event)) :
    Coupled T (registerLazerFeed rt w tx accs lazerFeedId channel)
      (registerLazerFeed rt v tx accs lazerFeedId channel) := by
  have haccounts : Coupled F (accs.tryAccounts rt w tx) (accs.tryAccounts rt v tx) := by
    unfold RegisterLazerFeed.tryAccounts
    apply Coupled.same_guard
    apply hconfig.bind
    intro c d hcd
    rw [(hkeys c d hcd).admin, (hkeys c d hcd).bump]
    apply hfeed.bind
    intro f g hfg
    apply Coupled.same_guard
    apply Coupled.same_guard
    apply Coupled.same_guard
    exact .pure hfg
  unfold registerLazerFeed
  apply haccounts.bind
  intro f g hfg
  rw [(hsource f g hfg).source]
  apply Coupled.same_guard
  apply Coupled.same_guard
  exact .pure (hwrite f g hfg)

/-- Two postings, in transactions with the same signers, writable accounts and clock. -/
theorem updatePriceFeedFromLazer_coupled {tx' : Tx} {accs : UpdatePriceFeedFromLazer}
    {payload payload' : List UInt8} {M : LazerMessage → LazerMessage → Prop}
    (hsigners : tx'.signers = tx.signers) (hwritable : tx'.writable = tx.writable)
    (hnow : tx'.unixTimestamp = tx.unixTimestamp)
    (hfeed : Coupled F (w.loadPriceFeed accs.feed) (v.loadPriceFeed accs.feed))
    (haccepted : ∀ f g, F f g → Coupled M (acceptLazerPayload f tx payload)
      (acceptLazerPayload g tx' payload'))
    (hwrite : ∀ f g m n, F f g → M m n →
      let updated := f.record m.price tx.unixTimestamp
      let updated' := g.record n.price tx.unixTimestamp
      T (((w.store accs.feed (.priceFeed updated)).emit
            (.lazerPriceVerified accs.feed m.feedId m.channel m.price m.timestamp
              tx.unixTimestamp)).emit (PriceFeed.updatedEvent accs.feed f updated))
        (((v.store accs.feed (.priceFeed updated')).emit
            (.lazerPriceVerified accs.feed n.feedId n.channel n.price n.timestamp
              tx.unixTimestamp)).emit (PriceFeed.updatedEvent accs.feed g updated'))) :
    Coupled T (updatePriceFeedFromLazer w tx accs payload)
      (updatePriceFeedFromLazer v tx' accs payload') := by
  have haccounts : Coupled F (accs.tryAccounts w tx) (accs.tryAccounts v tx') := by
    unfold UpdatePriceFeedFromLazer.tryAccounts Tx.requireSigner Tx.requireMut
    rw [hsigners, hwritable]
    apply Coupled.same_guard
    apply hfeed.bind
    intro f g hfg
    apply Coupled.same_guard
    apply Coupled.same_guard
    exact .pure hfg
  unfold updatePriceFeedFromLazer
  rw [hnow]
  apply haccounts.bind
  intro f g hfg
  apply (haccepted f g hfg).bind
  intro m n hmn
  exact .pure (hwrite f g m n hfg hmn)

/-! #### The owner's calls -/

/-- Deposits of one amount under one nonce. -/
theorem openPosition_coupled {accs : OpenPosition} {args args' : OpenPositionArgs}
    (hnonce : args'.nonce = args.nonce) (hcollateral : args'.collateral = args.collateral)
    (hmoves : MovesAlike rt tx
      [accs.owner, accs.config, accs.feed, accs.position, accs.systemProgram] L)
    (hkeys : ∀ c d, C c d → SameKeys c d)
    (hconfig : Coupled C (w.loadConfig accs.config) (v.loadConfig accs.config))
    (hfeed : Coupled F (w.loadPriceFeed accs.feed) (v.loadPriceFeed accs.feed))
    (hinit : Coupled (FundedAlike L)
      (w.initAccount rt tx accs.owner accs.position (.position accs.owner args.nonce)
        positionSpace)
      (v.initAccount rt tx accs.owner accs.position (.position accs.owner args.nonce)
        positionSpace))
    (hcheck : ∀ f g, F f g →
      checkOpen g tx.unixTimestamp args' = checkOpen f tx.unixTimestamp args)
    (hwrite : ∀ c d f g lamports lamports' bump, C c d → F f g → L lamports lamports' →
      OpenChecked f tx.unixTimestamp args →
      T ((((w.withLamports lamports).store accs.position (.position
            (newPosition accs args f.price tx.unixTimestamp bump))).store accs.config
            (.config c.countOpened)).emit
          (.positionOpened accs.position accs.owner accs.feed args.side args.collateral
            f.price args.stopPrice args.takeProfitPrice args.trailingOffset
            tx.unixTimestamp))
        ((((v.withLamports lamports').store accs.position (.position
            (newPosition accs args' g.price tx.unixTimestamp bump))).store accs.config
            (.config d.countOpened)).emit
          (.positionOpened accs.position accs.owner accs.feed args'.side args'.collateral
            g.price args'.stopPrice args'.takeProfitPrice args'.trailingOffset
            tx.unixTimestamp))) :
    Coupled T (openPosition rt w tx accs args) (openPosition rt v tx accs args') := by
  unfold openPosition
  rw [hnonce]
  apply Coupled.same_guard
  apply hconfig.bind
  intro c d hcd
  rw [(hkeys c d hcd).bump]
  apply hfeed.bind
  intro f g hfg
  apply Coupled.same_guard
  apply hinit.bind
  rintro ⟨rent, bump⟩ ⟨rent', bump'⟩ ⟨hrent, hbump⟩
  obtain rfl : bump' = bump := hbump
  apply Coupled.same_guard
  apply Coupled.same_guard
  rw [hcheck f g hfg]
  apply Coupled.same_bind
  intro _ hchecked
  have hdeposit : Coupled L (systemTransfer rent accs.owner accs.position args.collateral)
      (systemTransfer rent' accs.owner accs.position args'.collateral) := by
    rw [hcollateral]
    exact hmoves.transfer hrent (by simp) (by simp) args.collateral
  apply hdeposit.bind
  intro lamports lamports' hlamports
  exact .pure (hwrite c d f g lamports lamports' bump' hcd hfg hlamports
    (checkOpen_eq_ok_iff.mp hchecked))

theorem updateTriggers_coupled {accs : UpdateTriggers}
    {stop stop' takeProfit takeProfit' offset offset' : UInt64}
    (hsame : ∀ p q, R p q → SameAccount p q)
    (hposition : Coupled R (w.loadPosition accs.position) (v.loadPosition accs.position))
    (hhandler : ∀ p q, R p q → Coupled R (updateTriggersHandler p stop takeProfit offset)
      (updateTriggersHandler q stop' takeProfit' offset'))
    (hwrite : ∀ p q, R p q →
      T ((w.store accs.position (.position p)).emit
          (.triggersUpdated accs.position stop takeProfit offset))
        ((v.store accs.position (.position q)).emit
          (.triggersUpdated accs.position stop' takeProfit' offset'))) :
    Coupled T (updateTriggers rt w tx accs stop takeProfit offset)
      (updateTriggers rt v tx accs stop' takeProfit' offset') := by
  unfold updateTriggers
  apply (updateTriggers_tryAccounts_coupled rt tx hsame hposition).bind
  intro p q hpq
  apply (hhandler p q hpq).bind
  intro p' q' hpq'
  exact .pure (hwrite p' q' hpq')

/-! #### Settlements -/

/-- What a settlement leaves when the collateral is paid out. -/
def settledWorld (w : World) (tx : Tx) (accs : TickPosition) (config : Config)
    (position : Position) (price : UInt64) (trigger : UInt8) (payout : Payout)
    (lamports : Lamports) : World :=
  (((w.withLamports lamports).store accs.position
      (.position (position.settled trigger tx.unixTimestamp))).store accs.config
      (.config (config.countTriggered payout))).emit
    (.positionTriggered accs.position position.owner trigger price payout.netToOwner
      payout.fee payout.keeperReward accs.keeper tx.unixTimestamp)

theorem settlePosition_coupled {accs : TickPosition} {config : Config} {p q : Position}
    {price price' : UInt64} {trigger : UInt8} (hcollateral : q.collateral = p.collateral)
    (hpaid : ∀ payout,
      Coupled L (payAll w.lamports accs payout) (payAll v.lamports accs payout))
    (hwrite : ∀ payout lamports lamports', L lamports lamports' →
      T (settledWorld w tx accs config p price trigger payout lamports)
        (settledWorld v tx accs config q price' trigger payout lamports')) :
    Coupled T (settlePosition w tx accs config p price trigger)
      (settlePosition v tx accs config q price' trigger) := by
  unfold settlePosition
  rw [hcollateral]
  apply Coupled.same_bind
  intro payout _
  apply (hpaid payout).bind
  intro lamports lamports' hlamports
  exact .pure (hwrite payout lamports lamports' hlamports)

/-- `P` relates the prices that are read; the observed records evaluate alike. -/
theorem tickPosition_coupled {accs : TickPosition} {P : UInt64 → UInt64 → Prop}
    (hmoves : MovesAlike rt tx
      [accs.keeper, accs.config, accs.feed, accs.position, accs.owner, accs.feeReceiver] L)
    (hlamports : L w.lamports v.lamports) (hdeposit : ∀ p q, R p q → SameDeposit p q)
    (hconfig : v.loadConfig accs.config = w.loadConfig accs.config)
    (hfeed : Coupled F (w.loadPriceFeed accs.feed) (v.loadPriceFeed accs.feed))
    (hposition : Coupled R (w.loadPosition accs.position) (v.loadPosition accs.position))
    (hobserve : ∀ f g p q, F f g → R p q → accs.feed = p.feed →
      Coupled (fun price price' => P price price' ∧
          R (p.observe price tx.unixTimestamp) (q.observe price' tx.unixTimestamp) ∧
          evaluateTrigger (q.observe price' tx.unixTimestamp) price' =
            evaluateTrigger (p.observe price tx.unixTimestamp) price)
        (tickPrice p f tx.unixTimestamp) (tickPrice q g tx.unixTimestamp))
    (hrecord : ∀ p q price price', R p q → P price price' →
      T (recordTick w accs p price) (recordTick v accs q price'))
    (hsettle : ∀ config p q price price' trigger payout lamports lamports', R p q →
      P price price' → L lamports lamports' →
      T (settledWorld w tx accs config p price trigger payout lamports)
        (settledWorld v tx accs config q price' trigger payout lamports')) :
    Coupled T (tickPosition rt w tx accs) (tickPosition rt v tx accs) := by
  have haccounts := tickPosition_tryAccounts_coupled rt tx SameKeys.of_eq
    (fun p q hpq => (hdeposit p q hpq).toSameAccount) (coupled_eq hconfig) hfeed hposition
  unfold tickPosition
  apply haccounts.bind
  rintro ⟨config, f, p⟩ ⟨config', g, q⟩ ⟨hconfigs, hfg, hmatches, hpq⟩
  obtain rfl : config = config' := hconfigs
  apply (hobserve f g p q hfg hpq hmatches).bind
  rintro price price' ⟨hprices, hobserved, hevaluated⟩
  dsimp only
  rw [hevaluated]
  apply Coupled.same_bind
  intro trigger _
  by_cases hnone : trigger = triggerNone
  · rw [if_pos hnone, if_pos hnone]
    exact .pure (hrecord _ _ price price' hobserved hprices)
  · rw [if_neg hnone, if_neg hnone]
    apply settlePosition_coupled (hdeposit _ _ hobserved).collateral
    · intro payout
      exact hmoves.payAll hlamports (by simp) (by simp) (by simp) (by simp) payout
    · intro payout lamports lamports' hpaid
      exact hsettle _ _ _ _ _ _ _ _ _ hobserved hprices hpaid

theorem cancelPosition_coupled {accs : CancelPosition}
    (hmoves : MovesAlike rt tx [accs.owner, accs.config, accs.position] L)
    (hlamports : L w.lamports v.lamports) (hdeposit : ∀ p q, R p q → SameDeposit p q)
    (hconfig : v.loadConfig accs.config = w.loadConfig accs.config)
    (hposition : Coupled R (w.loadPosition accs.position) (v.loadPosition accs.position))
    (hwrite : ∀ (config : Config) p q lamports lamports', R p q → L lamports lamports' →
      T ((((w.withLamports lamports).store accs.position
            (.position (p.cancelled tx.unixTimestamp))).store accs.config
            (.config config.countCancelled)).emit
          (.positionCancelled accs.position p.owner p.collateral tx.unixTimestamp))
        ((((v.withLamports lamports').store accs.position
            (.position (q.cancelled tx.unixTimestamp))).store accs.config
            (.config config.countCancelled)).emit
          (.positionCancelled accs.position q.owner q.collateral tx.unixTimestamp))) :
    Coupled T (cancelPosition rt w tx accs) (cancelPosition rt v tx accs) := by
  have haccounts := cancelPosition_tryAccounts_coupled rt tx SameKeys.of_eq
    (fun p q hpq => (hdeposit p q hpq).toSameAccount) (coupled_eq hconfig) hposition
  unfold cancelPosition
  apply haccounts.bind
  rintro ⟨config, p⟩ ⟨config', q⟩ ⟨hconfigs, hpq⟩
  obtain rfl : config = config' := hconfigs
  have hpaid : Coupled L (payOut w.lamports accs.position accs.owner p.collateral)
      (payOut v.lamports accs.position accs.owner q.collateral) := by
    rw [(hdeposit p q hpq).collateral]
    exact hmoves.payOut hlamports (by simp) (by simp) p.collateral
  apply (Coupled.require (by rw [(hdeposit p q hpq).status]) _).bind
  intro _ _ _
  apply hpaid.bind
  intro lamports lamports' hlamports'
  exact .pure (hwrite config p q lamports lamports' hpq hlamports')

/-! #### Delegation -/

theorem delegatePosition_coupled {accs : DelegatePosition}
    (hmoves : MovesAlike rt tx [accs.owner, accs.position, accs.delegationProgram,
      accs.delegationBuffer, accs.delegationRecord, accs.delegationMetadata,
      accs.systemProgram] L)
    (hlamports : L w.lamports v.lamports) (hdeposit : ∀ p q, R p q → SameDeposit p q)
    (hmark : ∀ p q, R p q → q.erDelegated = p.erDelegated)
    (hposition : Coupled R (w.loadPosition accs.position) (v.loadPosition accs.position))
    (hwrite : ∀ p q lamports lamports', R p q → L lamports lamports' →
      T (((w.withLamports lamports).store accs.position
            (.position { p with erDelegated := 1 })).emit
          (.positionDelegated accs.position p.owner tx.unixTimestamp))
        (((v.withLamports lamports').store accs.position
            (.position { q with erDelegated := 1 })).emit
          (.positionDelegated accs.position q.owner tx.unixTimestamp))) :
    Coupled T (delegatePosition rt w tx accs) (delegatePosition rt v tx accs) := by
  have haccounts := delegatePosition_tryAccounts_coupled rt tx
    (fun p q hpq => (hdeposit p q hpq).toSameAccount) hposition
  unfold delegatePosition
  apply haccounts.bind
  intro p q hpq
  have hcall : delegateIx accs q = delegateIx accs p := by
    simp only [delegateIx, (hdeposit p q hpq).owner, (hdeposit p q hpq).nonce]
  rw [hcall]
  apply (Coupled.require (by rw [(hdeposit p q hpq).status]) _).bind
  intro _ _ _
  apply (Coupled.require (by rw [hmark p q hpq]) _).bind
  intro _ _ _
  apply (okOr_coupled (hmoves.delegation hlamports (by simp [delegateIx])) _).bind
  intro lamports lamports' hlamports'
  exact .pure (hwrite p q lamports lamports' hpq hlamports')

theorem undelegatePosition_coupled {accs : UndelegatePosition}
    (hmoves : MovesAlike rt tx [accs.owner, accs.position, accs.delegationProgram,
      accs.delegationRecord, accs.delegationMetadata, accs.systemProgram] L)
    (hlamports : L w.lamports v.lamports) (hdeposit : ∀ p q, R p q → SameDeposit p q)
    (hmark : ∀ p q, R p q → q.erDelegated = p.erDelegated)
    (hposition : Coupled R (w.loadPosition accs.position) (v.loadPosition accs.position))
    (hwrite : ∀ p q lamports lamports', R p q → L lamports lamports' →
      T (((w.withLamports lamports).store accs.position
            (.position { p with erDelegated := 0 })).emit
          (.positionUndelegated accs.position p.owner tx.unixTimestamp))
        (((v.withLamports lamports').store accs.position
            (.position { q with erDelegated := 0 })).emit
          (.positionUndelegated accs.position q.owner tx.unixTimestamp))) :
    Coupled T (undelegatePosition rt w tx accs) (undelegatePosition rt v tx accs) := by
  have haccounts := undelegatePosition_tryAccounts_coupled rt tx
    (fun p q hpq => (hdeposit p q hpq).toSameAccount) hposition
  unfold undelegatePosition
  apply haccounts.bind
  intro p q hpq
  apply (Coupled.require (by rw [(hdeposit p q hpq).status]) _).bind
  intro _ _ _
  apply (Coupled.require (by rw [hmark p q hpq]) _).bind
  intro _ _ _
  apply (okOr_coupled (hmoves.delegation hlamports (by simp [undelegateIx])) _).bind
  intro lamports lamports' hlamports'
  exact .pure (hwrite p q lamports lamports' hpq hlamports')

end Instructions

/-! ### The same call in two worlds that hold the same records -/

/-- What the call loads is the same in both worlds. -/
structure SameReads (ix : Instruction) (w v : World) : Prop where
  config : ∀ key ∈ ix.accounts, v.loadConfig key = w.loadConfig key
  feed : ∀ key ∈ ix.accounts, v.loadPriceFeed key = w.loadPriceFeed key
  position : ∀ key, ix.ActsOn key → v.loadPosition key = w.loadPosition key
  unused : ∀ key ∈ ix.accounts, v.accounts key = none ↔ w.accounts key = none

/-- Worlds related by `T` stay so when the same is written in both, and balances related by
`L` are put in. -/
structure KeptByWrites (L : Lamports → Lamports → Prop) (T : World → World → Prop) :
    Prop where
  withLamports : ∀ {w v lamports lamports'}, T w v → L lamports lamports' →
    T (w.withLamports lamports) (v.withLamports lamports')
  store : ∀ {w v}, T w v → ∀ key account, T (w.store key account) (v.store key account)
  emit : ∀ {w v}, T w v → ∀ event, T (w.emit event) (v.emit event)

section SameRecords

variable {rt : Runtime} {tx : Tx} {w v : World} {L : Lamports → Lamports → Prop}
  {T : World → World → Prop}

/-- Every call goes the same way in both worlds, and keeps them related. -/
theorem execute_coupled (hkept : KeptByWrites L T) (h : T w v)
    (hlamports : L w.lamports v.lamports) {ix : Instruction}
    (hmoves : MovesAlike rt tx ix.accounts L) (hreads : SameReads ix w v) :
    Coupled T (execute rt w tx ix) (execute rt v tx ix) := by
  have hinit {payer account : Pubkey} (hpayer : payer ∈ ix.accounts)
      (haccount : account ∈ ix.accounts) (seeds : Seeds) (space : Nat) :=
    hmoves.initAccount hlamports hpayer haccount (hreads.unused account haccount) seeds space
  have hconfig {key : Pubkey} (hkey : key ∈ ix.accounts) :=
    coupled_eq (hreads.config key hkey)
  have hfeed {key : Pubkey} (hkey : key ∈ ix.accounts) :=
    coupled_eq (hreads.feed key hkey)
  have hposition {key : Pubkey} (hkey : ix.ActsOn key) :=
    coupled_eq (hreads.position key hkey)
  cases ix with
  | initializeConfig accs feeBps keeperRewardBps =>
      apply initializeConfig_coupled (hinit (by simp) (by simp) _ _)
      intro lamports lamports' bump hpaid
      exact hkept.emit (hkept.store (hkept.withLamports h hpaid) _ _) _
  | updateConfig accs newAdmin newFeeReceiver newFeeBps newKeeperRewardBps =>
      apply updateConfig_coupled SameKeys.of_eq (hconfig (by simp))
      · rintro c _ rfl
        exact coupled_eq rfl
      · rintro c _ rfl
        exact hkept.store h _ _
  | initializePriceFeed accs symbol decimals initialPrice =>
      apply initializePriceFeed_coupled SameKeys.of_eq (hconfig (by simp))
        (hinit (by simp) (by simp) _ _) Iff.rfl
      intro lamports lamports' bump hpaid
      exact hkept.emit (hkept.store (hkept.withLamports h hpaid) _ _) _
  | updatePriceFeed accs newPrice =>
      apply updatePriceFeed_coupled SameSource.of_eq (hfeed (by simp)) Iff.rfl
      rintro f _ rfl
      exact hkept.emit (hkept.store h _ _) _
  | openPosition accs args =>
      apply openPosition_coupled rfl rfl hmoves SameKeys.of_eq (hconfig (by simp))
        (hfeed (by simp)) (hinit (by simp) (by simp) _ _)
      · rintro f _ rfl
        rfl
      · rintro c _ f _ lamports lamports' bump rfl rfl hpaid -
        exact hkept.emit (hkept.store (hkept.store (hkept.withLamports h hpaid) _ _) _ _) _
  | updateTriggers accs stopPrice takeProfitPrice trailingOffset =>
      apply updateTriggers_coupled (fun p q hpq => (SameDeposit.of_eq p q hpq).toSameAccount)
        (hposition rfl)
      · rintro p _ rfl
        exact coupled_eq rfl
      · rintro p _ rfl
        exact hkept.emit (hkept.store h _ _) _
  | tickPosition accs =>
      apply tickPosition_coupled (P := Eq) hmoves hlamports SameDeposit.of_eq
        (hreads.config _ (by simp)) (hfeed (by simp)) (hposition rfl)
      · rintro f _ p _ rfl rfl -
        apply (coupled_eq rfl).mono
        rintro price _ rfl
        exact ⟨rfl, rfl, rfl⟩
      · rintro p _ price _ rfl rfl
        exact hkept.emit (hkept.store h _ _) _
      · rintro config p _ price _ trigger payout lamports lamports' rfl rfl hpaid
        exact hkept.emit (hkept.store (hkept.store (hkept.withLamports h hpaid) _ _) _ _) _
  | cancelPosition accs =>
      apply cancelPosition_coupled hmoves hlamports SameDeposit.of_eq
        (hreads.config _ (by simp)) (hposition rfl)
      rintro config p _ lamports lamports' rfl hpaid
      exact hkept.emit (hkept.store (hkept.store (hkept.withLamports h hpaid) _ _) _ _) _
  | registerLazerFeed accs lazerFeedId channel =>
      apply registerLazerFeed_coupled SameKeys.of_eq SameSource.of_eq (hconfig (by simp))
        (hfeed (by simp))
      rintro f _ rfl
      exact hkept.emit (hkept.store h _ _) _
  | updatePriceFeedFromLazer accs payload =>
      apply updatePriceFeedFromLazer_coupled rfl rfl rfl (hfeed (by simp))
      · rintro f _ rfl
        exact coupled_eq rfl
      · rintro f _ m _ rfl rfl
        exact hkept.emit (hkept.emit (hkept.store h _ _) _) _
  | delegatePosition accs =>
      apply delegatePosition_coupled hmoves hlamports SameDeposit.of_eq
        (fun p q hpq => by rw [hpq]) (hposition rfl)
      rintro p _ lamports lamports' rfl hpaid
      exact hkept.emit (hkept.store (hkept.withLamports h hpaid) _ _) _
  | undelegatePosition accs =>
      apply undelegatePosition_coupled hmoves hlamports SameDeposit.of_eq
        (fun p q hpq => by rw [hpq]) (hposition rfl)
      rintro p _ lamports lamports' rfl hpaid
      exact hkept.emit (hkept.store (hkept.withLamports h hpaid) _ _) _

end SameRecords

/-! ### One action -/

section Actions

variable {rt : Runtime} {tx tx' : Tx} {w v : World} {T : World → World → Prop}

/-- Calls that go the same way do so in transactions that pass the same checks. -/
theorem invoke_coupled {ix ix' : Instruction}
    (hauthentic : tx'.authentic rt = tx.authentic rt)
    (hprecompiles : tx'.precompilesPass rt = tx.precompilesPass rt)
    (hexecute : Coupled T (execute rt w tx ix) (execute rt v tx' ix')) :
    Coupled T (attempt rt w (.invoke tx ix)) (attempt rt v (.invoke tx' ix')) := by
  simp only [attempt]
  rw [hauthentic, hprecompiles]
  apply Coupled.same_guard
  apply Coupled.same_guard
  exact hexecute

/-- Lamports are sent alike from balances that are moved alike. -/
theorem transfer_coupled {L : Lamports → Lamports → Prop} {src dst : Pubkey} {amount : UInt64}
    (hmoved : Coupled L (systemTransfer w.lamports src dst amount)
      (systemTransfer v.lamports src dst amount))
    (hwrite : ∀ lamports lamports', L lamports lamports' →
      T (w.withLamports lamports) (v.withLamports lamports')) :
    Coupled T (attempt rt w (.transfer src dst amount))
      (attempt rt v (.transfer src dst amount)) := by
  simp only [attempt]
  apply Coupled.same_guard
  apply hmoved.bind
  intro lamports lamports' hlamports
  exact .pure (hwrite lamports lamports' hlamports)

/-- Two attempts that end alike leave related worlds. -/
theorem step_of_coupled {action action' : Action} (h : T w v)
    (hcoupled : Coupled T (attempt rt w action) (attempt rt v action')) :
    T (step rt w action) (step rt v action') := by
  unfold step
  generalize attempt rt w action = outcome at hcoupled ⊢
  generalize attempt rt v action' = outcome' at hcoupled ⊢
  cases hcoupled with
  | ok hworlds => exact hworlds
  | error error => exact h

end Actions

end Hwal
