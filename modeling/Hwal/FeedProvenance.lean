/-
Where a feed's record comes from: its price and time from the last write that was
accepted, with the authority behind it, its counter from the number of updates, its
identity from its creation, and its Lazer registration from one act of the admin.
-/
import Hwal.FeedHistory

namespace Hwal

open Guard

/-- A write of the price of the feed at `key` that went through. -/
def PriceAccepted (rt : Runtime) (key : Pubkey) (m : Moment) : Prop :=
  Succeeded rt m ∧ m.action.WritesPrice key

/-- What stands behind the price and the time a moment gives the feed at `key`: the admin
of that moment, the feed's own authority, or a recent message for the registered feed. -/
inductive Authorised (rt : Runtime) (key : Pubkey) (m : Moment) : UInt64 → Int64 → Prop where
  | initialised {tx accs symbol decimals price config}
      (action : m.action = .invoke tx (.initializePriceFeed accs symbol decimals price))
      (account : accs.feed = key)
      (config_loaded : m.before.configs rt.configAddress = some config)
      (signed : config.admin ∈ tx.signers) :
      Authorised rt key m price tx.unixTimestamp
  | pushed {tx accs price feed}
      (action : m.action = .invoke tx (.updatePriceFeed accs price))
      (account : accs.feed = key) (loaded : m.before.feeds key = some feed)
      (signed : feed.authority ∈ tx.signers) :
      Authorised rt key m price tx.unixTimestamp
  | posted {tx accs payload feed message}
      (action : m.action = .invoke tx (.updatePriceFeedFromLazer accs payload))
      (account : accs.feed = key) (loaded : m.before.feeds key = some feed)
      (source : feed.source = feedSourceLazer)
      (decoded : decodeLazerPayload payload = .ok message)
      (feedId : message.feedId = feed.lazerFeedId)
      (channel : message.channel = feed.lazerChannel)
      (recent : tx.unixTimestamp.toInt - 5 ≤ message.timestamp.toInt)
      (not_future : message.timestamp.toInt ≤ tx.unixTimestamp.toInt) :
      Authorised rt key m message.price tx.unixTimestamp

/-- The two instructions that update an existing feed. -/
def Action.updatesFeed (key : Pubkey) : Action → Bool
  | .invoke _ (.updatePriceFeed accs _) => accs.feed = key
  | .invoke _ (.updatePriceFeedFromLazer accs _) => accs.feed = key
  | _ => false

def updateAcceptedAt (rt : Runtime) (key : Pubkey) (m : Moment) : Bool :=
  (attempt rt m.before m.action).isOk && m.action.updatesFeed key

/-- The `initialize_price_feed` that created a feed with this identity. -/
def CreatesFeed (rt : Runtime) (key : Pubkey) (feed : PriceFeed) (m : Moment) : Prop :=
  Succeeded rt m ∧ ∃ tx accs initialPrice, m.action =
      .invoke tx (.initializePriceFeed accs feed.symbol feed.decimals initialPrice) ∧
    accs.feed = key ∧ accs.authority = feed.authority

/-- The record of a feed, traced back to what happened. -/
structure FeedProvenance (rt : Runtime) (key : Pubkey) (history : List Moment)
    (feed : PriceFeed) : Prop where
  price_pos : 0 < feed.price
  last : ∃ earlier m later, history = earlier ++ m :: later ∧ PriceAccepted rt key m ∧
    Authorised rt key m feed.price feed.lastUpdated ∧
    ∀ m' ∈ later, ¬ PriceAccepted rt key m'
  created : ∃ earlier m later, history = earlier ++ m :: later ∧ CreatesFeed rt key feed m ∧
    feed.updateCount.toNat = min (later.countP (updateAcceptedAt rt key)) (2 ^ 64 - 1)
  source : feed.source = feedSourceAuthority ∨ feed.source = feedSourceLazer
  channel : feed.source = feedSourceLazer → feed.lazerChannel ≤ lazerChannel200ms

section Step

variable {rt : Runtime} {w w' : World} {action : Action} {key : Pubkey} {feed : PriceFeed}
  {history : List Moment} {m : Moment}

theorem writesPrice_of_updatesFeed (h : action.updatesFeed key = true) :
    action.WritesPrice key := by
  unfold Action.updatesFeed at h
  split at h
  · rw [decide_eq_true_eq] at h
    exact h
  · rw [decide_eq_true_eq] at h
    exact h
  · contradiction

/-- A moment that writes no price leaves the origin of the record where it was. -/
theorem FeedProvenance.kept_step (h : FeedProvenance rt key history feed)
    (hprice : ¬ PriceAccepted rt key m) (hupdate : updateAcceptedAt rt key m = false) :
    FeedProvenance rt key (history ++ [m]) feed := by
  rcases h.last with ⟨earlier, last, later, hsplit, haccepted, hauthorised, hlater⟩
  rcases h.created with ⟨before, creation, after, hsplit', hcreates, hcount⟩
  constructor
  case price_pos => exact h.price_pos
  case last =>
    refine ⟨earlier, last, later ++ [m], by rw [hsplit]; simp, haccepted, hauthorised, ?_⟩
    intro m' hm'
    rcases List.mem_append.mp hm' with hold | hnew
    · exact hlater m' hold
    · rw [List.mem_singleton.mp hnew]
      exact hprice
  case created =>
    refine ⟨before, creation, after ++ [m], by rw [hsplit']; simp, hcreates, ?_⟩
    rw [List.countP_append, List.countP_singleton, hupdate]
    exact hcount
  case source => exact h.source
  case channel => exact h.channel

/-- An accepted update becomes the last one and is counted. -/
theorem FeedProvenance.update_step (h : FeedProvenance rt key history feed) {price : UInt64}
    {now : Int64} (hprice : PriceAccepted rt key m) (hupdate : updateAcceptedAt rt key m = true)
    (hauthorised : Authorised rt key m price now) (hpos : 0 < price) :
    FeedProvenance rt key (history ++ [m]) (feed.record price now) := by
  rcases h.created with ⟨before, creation, after, hsplit, hcreates, hcount⟩
  constructor
  case price_pos => exact hpos
  case last =>
    refine ⟨history, m, [], rfl, hprice, hauthorised, ?_⟩
    intro m' hm'
    contradiction
  case created =>
    refine ⟨before, creation, after ++ [m], by rw [hsplit]; simp, hcreates, ?_⟩
    have hrecorded : (feed.record price now).updateCount =
        feed.updateCount.saturatingAdd 1 := rfl
    rw [List.countP_append, List.countP_singleton, hupdate, if_pos rfl, hrecorded,
      UInt64.toNat_saturatingAdd, hcount, UInt64.toNat_one]
    omega
  case source => exact h.source
  case channel => exact h.channel

theorem FeedProvenance.register_step (h : FeedProvenance rt key history feed)
    (hprice : ¬ PriceAccepted rt key m) (hupdate : updateAcceptedAt rt key m = false)
    {lazerFeedId : UInt64} {channel : UInt8} (hchannel : channel ≤ lazerChannel200ms) :
    FeedProvenance rt key (history ++ [m]) (feed.register lazerFeedId channel) := by
  have hkept := h.kept_step hprice hupdate
  exact ⟨hkept.price_pos, hkept.last, hkept.created, Or.inr rfl, fun _ => hchannel⟩

theorem updateAcceptedAt_of_not_updates {after : World} (h : action.updatesFeed key = false) :
    updateAcceptedAt rt key ⟨w, action, after⟩ = false := by
  rw [updateAcceptedAt, h, Bool.and_false]

theorem updateAcceptedAt_of_ok {after : World} (hok : attempt rt w action = .ok w')
    (h : action.updatesFeed key = true) : updateAcceptedAt rt key ⟨w, action, after⟩ = true := by
  rw [updateAcceptedAt, hok, h]
  rfl

theorem updatesFeed_of_not_writesPrice (h : ¬ action.WritesPrice key) :
    action.updatesFeed key = false := by
  rw [← Bool.not_eq_true]
  exact fun hupdates => h (writesPrice_of_updatesFeed hupdates)

/-- Whoever signed as the admin of a loaded config is the admin of that moment. -/
theorem admin_of_moment (hinv : Invariant rt w) {configKey admin : Pubkey} {config : Config}
    {tx : Tx} (hloaded : w.configs configKey = some config) (hadmin : admin = config.admin)
    (hsigned : admin ∈ tx.signers) :
    w.configs rt.configAddress = some config ∧ config.admin ∈ tx.signers := by
  have haddress := (hinv.configs _ _ hloaded).address
  rw [haddress] at hloaded
  rw [hadmin] at hsigned
  exact ⟨hloaded, hsigned⟩

/-- Creation starts the record's history. -/
theorem feedProvenance_created {tx : Tx} {accs : InitializePriceFeed} {symbol : FeedSymbol}
    {decimals : UInt8} {initialPrice : UInt64} {config : Config} {bump : UInt8}
    (hinv : Invariant rt w) (account : accs.feed = key)
    (hok : attempt rt w (.invoke tx (.initializePriceFeed accs symbol decimals initialPrice)) =
      .ok w')
    (heff : FeedCreated rt w tx accs symbol decimals initialPrice config bump w') :
    FeedProvenance rt key (history ++
        [⟨w, .invoke tx (.initializePriceFeed accs symbol decimals initialPrice), w'⟩])
      (newPriceFeed accs symbol decimals initialPrice tx.unixTimestamp bump) := by
  rcases admin_of_moment hinv heff.config_loaded heff.admin heff.signed with ⟨hconfig, hsigned⟩
  constructor
  case price_pos => exact heff.price_pos
  case last =>
    refine ⟨history, _, [], rfl, ⟨hok, account⟩, .initialised rfl account hconfig hsigned, ?_⟩
    intro m' hm'
    contradiction
  case created =>
    exact ⟨history, _, [], rfl, ⟨hok, tx, accs, initialPrice, rfl, account, rfl⟩, rfl⟩
  case source => exact Or.inl rfl
  case channel =>
    intro hlazer
    have hsource : feedSourceAuthority = feedSourceLazer := hlazer
    exact absurd hsource (by decide)

theorem provenance_step (hinv : Invariant rt w) (hok : attempt rt w action = .ok w')
    (h : ∀ before, w.feeds key = some before → FeedProvenance rt key history before)
    (hfeed : w'.feeds key = some feed) :
    FeedProvenance rt key (history ++ [⟨w, action, w'⟩]) feed := by
  have hat := (attempt_effect hok).atFeed key
  rw [hfeed] at hat
  generalize hbefore : w.feeds key = before at hat h
  cases hat with
  | kept writes =>
      apply (h _ rfl).kept_step
      · exact fun haccepted => writes haccepted.2
      · exact updateAcceptedAt_of_not_updates (updatesFeed_of_not_writesPrice writes)
  | created account heff => exact feedProvenance_created hinv account hok heff
  | @pushed tx accs newPrice before _ account heff =>
      have hsigned : before.authority ∈ tx.signers := by
        rw [← heff.authority]
        exact heff.signed
      have hprice : PriceAccepted rt key ⟨w, .invoke tx (.updatePriceFeed accs newPrice), w'⟩ :=
        ⟨hok, account⟩
      apply (h before rfl).update_step hprice
      · exact updateAcceptedAt_of_ok hok (decide_eq_true account)
      · exact .pushed rfl account hbefore hsigned
      · exact heff.price_pos
  | registered account heff =>
      apply (h _ rfl).register_step _ _ heff.channel_known
      · exact fun haccepted => haccepted.2
      · exact updateAcceptedAt_of_not_updates rfl
  | @verified tx accs payload before message _ account heff =>
      have haccepted := heff.accepted
      have hrecent := haccepted.recent
      have hprice : PriceAccepted rt key
          ⟨w, .invoke tx (.updatePriceFeedFromLazer accs payload), w'⟩ := ⟨hok, account⟩
      apply (h before rfl).update_step hprice
      · exact updateAcceptedAt_of_ok hok (decide_eq_true account)
      · exact .posted rfl account hbefore haccepted.source haccepted.decoded
          haccepted.feedId.symm haccepted.channel.symm (by omega) haccepted.not_future
      · exact haccepted.price_pos

end Step

/-! ### Identity and registration -/

/-- What a feed is from its creation on. -/
structure SameIdentity (feed feed' : PriceFeed) : Prop where
  authority : feed'.authority = feed.authority
  symbol : feed'.symbol = feed.symbol
  decimals : feed'.decimals = feed.decimals

/-- At this moment the feed at `key` is handed over to Lazer. -/
def TurnsLazer (key : Pubkey) (m : Moment) : Prop :=
  ∃ feed feed', m.before.feeds key = some feed ∧ m.after.feeds key = some feed' ∧
    feed.source = feedSourceAuthority ∧ feed'.source = feedSourceLazer

/-- A successful `register_lazer_feed` under the signature of the admin of that moment. -/
def AdminRegisters (rt : Runtime) (key : Pubkey) (m : Moment) : Prop :=
  Succeeded rt m ∧ ∃ tx accs lazerFeedId channel config,
    m.action = .invoke tx (.registerLazerFeed accs lazerFeedId channel) ∧ accs.feed = key ∧
    m.before.configs rt.configAddress = some config ∧ config.admin ∈ tx.signers

section Registration

variable {rt : Runtime} {w w' : World} {action : Action} {key : Pubkey} {feed : PriceFeed}

theorem SameRegistration.refl (feed : PriceFeed) : SameRegistration feed feed :=
  ⟨rfl, rfl, rfl⟩

theorem SameRegistration.trans {p q r : PriceFeed} (h : SameRegistration p q)
    (h' : SameRegistration q r) : SameRegistration p r :=
  ⟨h'.source.trans h.source, h'.lazerFeedId.trans h.lazerFeedId,
    h'.lazerChannel.trans h.lazerChannel⟩

theorem SameIdentity.trans {p q r : PriceFeed} (h : SameIdentity p q)
    (h' : SameIdentity q r) : SameIdentity p r :=
  ⟨h'.authority.trans h.authority, h'.symbol.trans h.symbol, h'.decimals.trans h.decimals⟩

/-- A step leaves the registration alone, or it is the admin's registration of a feed
that had none. -/
theorem feed_step (hinv : Invariant rt w) (hfeed : w.feeds key = some feed) (action : Action) :
    ∃ feed', (step rt w action).feeds key = some feed' ∧ SameIdentity feed feed' ∧
      (SameRegistration feed feed' ∨
        feed.source = feedSourceAuthority ∧ feed'.source = feedSourceLazer ∧
          AdminRegisters rt key ⟨w, action, step rt w action⟩) := by
  rcases ok_or_error (attempt rt w action) with ⟨w', hok⟩ | ⟨error, herror⟩
  · rw [step_of_ok hok]
    have hat := (attempt_effect hok).atFeed key
    rw [hfeed] at hat
    generalize w'.feeds key = after at hat ⊢
    cases hat with
    | kept writes => exact ⟨feed, rfl, ⟨rfl, rfl, rfl⟩, Or.inl (.refl feed)⟩
    | pushed account heff => exact ⟨_, rfl, ⟨rfl, rfl, rfl⟩, Or.inl ⟨rfl, rfl, rfl⟩⟩
    | verified account heff => exact ⟨_, rfl, ⟨rfl, rfl, rfl⟩, Or.inl ⟨rfl, rfl, rfl⟩⟩
    | @registered tx accs lazerFeedId channel config _ _ account heff =>
        rcases admin_of_moment hinv heff.config_loaded heff.admin heff.signed with
          ⟨hconfig, hsigned⟩
        exact ⟨_, rfl, ⟨rfl, rfl, rfl⟩, Or.inr ⟨heff.source, rfl, hok, tx, accs, lazerFeedId,
          channel, config, rfl, account, hconfig, hsigned⟩⟩
  · rw [step_of_error herror]
    exact ⟨feed, hfeed, ⟨rfl, rfl, rfl⟩, Or.inl (.refl feed)⟩

/-- From any reachable state on, a feed keeps its identity, and its registration once it
has one. -/
theorem feed_run (h : Reachable rt w) (hfeed : w.feeds key = some feed)
    (later : List Action) :
    ∃ feed', (runFrom rt w later).feeds key = some feed' ∧ SameIdentity feed feed' ∧
      (feed.source = feedSourceLazer → SameRegistration feed feed') := by
  induction later generalizing w feed with
  | nil => exact ⟨feed, hfeed, ⟨rfl, rfl, rfl⟩, fun _ => .refl feed⟩
  | cons action rest ih =>
      rcases feed_step (reachable_invariant h) hfeed action with
        ⟨next, hnext, hidentity, hregistration⟩
      rcases ih (h.run [action]) hnext with ⟨feed', hfeed', hidentity', hregistration'⟩
      refine ⟨feed', hfeed', hidentity.trans hidentity', ?_⟩
      intro hlazer
      rcases hregistration with hsame | ⟨hauthority, -, -⟩
      · exact hsame.trans (hregistration' (hsame.source.trans hlazer))
      · rw [hlazer] at hauthority
        exact absurd hauthority (by decide)

end Registration

/-- The instructions that work on positions. -/
def Instruction.OnPositions : Instruction → Prop
  | .openPosition _ _ => True
  | .updateTriggers _ _ _ _ => True
  | .tickPosition _ => True
  | .cancelPosition _ => True
  | .delegatePosition _ => True
  | .undelegatePosition _ => True
  | _ => False

theorem feeds_of_onPositions (rt : Runtime) (w : World) (tx : Tx) {ix : Instruction}
    (hix : ix.OnPositions) : (step rt w (.invoke tx ix)).feeds = w.feeds := by
  rcases step_effect rt w (.invoke tx ix) with heffect | hsame
  · generalize step rt w (.invoke tx ix) = w' at heffect ⊢
    cases heffect with
    | configCreated heff => exact heff.feeds
    | configChanged heff => exact heff.feeds
    | feedCreated heff => exact hix.elim
    | feedPushed heff => exact hix.elim
    | feedRegistered heff => exact hix.elim
    | feedVerified heff => exact hix.elim
    | positionOpened heff => exact heff.feeds
    | triggersChanged heff => exact heff.feeds
    | tickRecorded heff => exact heff.feeds
    | positionSettled heff => exact heff.feeds
    | positionCancelled heff => exact heff.feeds
    | delegated heff => exact heff.feeds
    | undelegated heff => exact heff.feeds
  · rw [hsame]

/-! ### Whole runs -/

section Runs

variable (rt : Runtime) (lamports : Lamports) (actions : List Action) (key : Pubkey)

theorem feedProvenance_of_run {feed : PriceFeed}
    (h : (runFrom rt (World.genesis lamports) actions).feeds key = some feed) :
    FeedProvenance rt key (historyFrom rt (World.genesis lamports) actions) feed := by
  induction actions using List.reverseRecOn generalizing feed with
  | nil => contradiction
  | append_singleton earlier action ih =>
      rw [runFrom_snoc] at h
      rw [historyFrom_snoc]
      have hreach : Reachable rt (runFrom rt (World.genesis lamports) earlier) :=
        ⟨lamports, earlier, rfl⟩
      have hinv := reachable_invariant hreach
      rcases ok_or_error (attempt rt (runFrom rt (World.genesis lamports) earlier) action)
        with ⟨w', hok⟩ | ⟨error, herror⟩
      · rw [step_of_ok hok] at h ⊢
        exact provenance_step hinv hok (fun before hbefore => ih hbefore) h
      · rw [step_of_error herror] at h ⊢
        apply (ih h).kept_step
        · rintro ⟨hok, -⟩
          rw [Succeeded, herror] at hok
          contradiction
        · rw [updateAcceptedAt, herror]
          rfl

/-- A feed is handed over to Lazer once at most. -/
theorem turnsLazer_once :
    (historyFrom rt (World.genesis lamports) actions).Pairwise fun m m' =>
      ¬ (TurnsLazer key m ∧ TurnsLazer key m') := by
  apply @Transition.trace_pairwise_once _ _ (step rt) (Reachable rt)
    (fun w => ∃ feed, w.feeds key = some feed ∧ feed.source = feedSourceLazer) (TurnsLazer key)
  · intro w action hreach
    exact hreach.run [action]
  · rintro w action hreach ⟨feed, hfeed, hsource⟩
    rcases feed_run hreach hfeed [action] with ⟨feed', hfeed', -, hregistration⟩
    exact ⟨feed', hfeed', (hregistration hsource).source.trans hsource⟩
  · rintro w action - ⟨before, after, hbefore, -, hauthority, -⟩ ⟨feed, hfeed, hsource⟩
    dsimp only at hbefore
    rw [hfeed] at hbefore
    rw [← Option.some.inj hbefore, hsource] at hauthority
    exact absurd hauthority (by decide)
  · rintro w action - ⟨before, after, -, hafter, -, hsource⟩
    exact ⟨after, hafter, hsource⟩
  · exact ⟨lamports, [], rfl⟩

/-- Only the admin hands a feed over. -/
theorem adminRegisters_of_turnsLazer {m : Moment}
    (hm : m ∈ historyFrom rt (World.genesis lamports) actions) (h : TurnsLazer key m) :
    AdminRegisters rt key m := by
  rcases reachable_of_mem_history hm with ⟨hreach, hafter⟩
  rcases m with ⟨before, action, after⟩
  dsimp only at hafter hreach
  subst hafter
  rcases h with ⟨feed, feed', hfeed, hfeed', hauthority, hlazer⟩
  dsimp only at hfeed hfeed'
  rcases feed_step (reachable_invariant hreach) hfeed action with
    ⟨next, hnext, -, hsame | ⟨-, -, hregisters⟩⟩
  · rw [hfeed'] at hnext
    obtain rfl := Option.some.inj hnext
    rw [hsame.source, hauthority] at hlazer
    exact absurd hlazer (by decide)
  · exact hregisters

/-- The record of every feed of every reachable state: its price is positive and, with its
time, that of the last accepted write; its counter is the number of updates; whatever
happens later its identity stays, and its registration once the admin has made it, which
happens at most once; and no instruction on positions touches a feed. -/
theorem feed_provenance {feed : PriceFeed}
    (h : (runFrom rt (World.genesis lamports) actions).feeds key = some feed) :
    FeedProvenance rt key (historyFrom rt (World.genesis lamports) actions) feed ∧
    (∀ later, ∃ feed',
      (runFrom rt (runFrom rt (World.genesis lamports) actions) later).feeds key = some feed' ∧
        SameIdentity feed feed' ∧
        (feed.source = feedSourceLazer → SameRegistration feed feed')) ∧
    (∀ m ∈ historyFrom rt (World.genesis lamports) actions, TurnsLazer key m →
      AdminRegisters rt key m) ∧
    (historyFrom rt (World.genesis lamports) actions).Pairwise (fun m m' =>
      ¬ (TurnsLazer key m ∧ TurnsLazer key m')) ∧
    ∀ (w : World) (tx : Tx) (ix : Instruction), ix.OnPositions →
      (step rt w (.invoke tx ix)).feeds = w.feeds := by
  refine ⟨feedProvenance_of_run rt lamports actions key h, ?_, ?_,
    turnsLazer_once rt lamports actions key, ?_⟩
  · intro later
    exact feed_run ⟨lamports, actions, rfl⟩ h later
  · intro m hm hturns
    exact adminRegisters_of_turnsLazer rt lamports actions key hm hturns
  · intro w tx ix hix
    exact feeds_of_onPositions rt w tx hix

end Runs

section Posted

open Localnet

/-- A push, a posted message, and a push by someone else that fails. -/
def threeWrites : List Action :=
  launch ++ [push 95000000 1004, post recentEntry 1009,
    .invoke (tx alice 1010) (.updatePriceFeed ⟨alice, feed⟩ 1)]

/-- The price is the posted one, the second of two accepted updates. -/
theorem feed_provenance_threeWrites :
    ∃ stored, (runFrom cluster (World.genesis funds) threeWrites).feeds feed = some stored ∧
      stored.price = 99000000 ∧ stored.lastUpdated = 1009 ∧ stored.updateCount = 2 ∧
      FeedProvenance cluster feed (historyFrom cluster (World.genesis funds) threeWrites)
        stored := by
  have hfields : ((runFrom cluster (World.genesis funds) threeWrites).feeds feed).map
      (fun f => (f.price, f.lastUpdated, f.updateCount)) = some (99000000, 1009, 2) := by
    decide +kernel
  rcases Option.map_eq_some_iff.mp hfields with ⟨stored, hstored, hvalues⟩
  simp only [Prod.mk.injEq] at hvalues
  rcases hvalues with ⟨hprice, htime, hcount⟩
  exact ⟨stored, hstored, hprice, htime, hcount,
    (feed_provenance cluster funds threeWrites feed hstored).1⟩

end Posted

end Hwal
