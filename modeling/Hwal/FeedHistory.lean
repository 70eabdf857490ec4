/-
Where the price of a feed comes from: the writes of a run, the messages behind
the posted ones, and what follows about the order and the age of the prices the
program works with.
-/
import Hwal.Invariants
import Hwal.LazerVerification

namespace Hwal

open Guard

/-- One write of a feed's price, with the message it was posted from, if any. -/
structure PriceWrite where
  price : UInt64
  writtenAt : Int64
  message : Option LazerMessage
deriving DecidableEq, Repr

def Instruction.priceWrite (key : Pubkey) (now : Int64) : Instruction → Option PriceWrite
  | .initializePriceFeed accs _ _ initialPrice =>
      if accs.feed = key then some ⟨initialPrice, now, none⟩ else none
  | .updatePriceFeed accs newPrice =>
      if accs.feed = key then some ⟨newPrice, now, none⟩ else none
  | .updatePriceFeedFromLazer accs payload =>
      if accs.feed = key then
        match decodeLazerPayload payload with
        | .ok message => some ⟨message.price, now, some message⟩
        | .error _ => none
      else none
  | _ => none

/-- The price a moment of a run writes to the feed at `key`. -/
def priceWriteAt (rt : Runtime) (key : Pubkey) (m : Moment) : Option PriceWrite :=
  match m.action with
  | .invoke tx ix =>
      if (attempt rt m.before m.action).isOk = true then ix.priceWrite key tx.unixTimestamp
      else none
  | .transfer _ _ _ => none

/-- All price writes of a run, oldest first. -/
def priceWrites (rt : Runtime) (key : Pubkey) (history : List Moment) : List PriceWrite :=
  history.filterMap (priceWriteAt rt key)

/-- The messages accepted for the feed at `key`, in the order of their acceptance. -/
def acceptedMessages (rt : Runtime) (key : Pubkey) (history : List Moment) :
    List LazerMessage :=
  (priceWrites rt key history).filterMap PriceWrite.message

/-- A posted price was at most five seconds old, and not from the future. -/
def PriceWrite.Genuine (write : PriceWrite) : Prop :=
  ∀ message, write.message = some message →
    message.price = write.price ∧ message.timestamp.toInt ≤ write.writtenAt.toInt ∧
      write.writtenAt.toInt - message.timestamp.toInt ≤ 5

/-- The record carries what a write put there. -/
structure PriceFrom (write : PriceWrite) (feed : PriceFeed) : Prop where
  price : feed.price = write.price
  lastUpdated : feed.lastUpdated = write.writtenAt

section Step

variable {rt : Runtime} {w w' : World} {key : Pubkey} {action : Action}

theorem priceWriteAt_of_ok {tx : Tx} {ix : Instruction}
    (hok : attempt rt w (.invoke tx ix) = .ok w') :
    priceWriteAt rt key ⟨w, .invoke tx ix, w'⟩ = ix.priceWrite key tx.unixTimestamp := by
  simp [priceWriteAt, hok, Except.isOk, Except.toBool]

theorem priceWriteAt_of_error {error : ProgramError} (h : attempt rt w action = .error error)
    (after : World) : priceWriteAt rt key ⟨w, action, after⟩ = none := by
  cases action with
  | invoke tx ix => simp [priceWriteAt, h, Except.isOk, Except.toBool]
  | transfer src dst amount => rfl

theorem priceWriteAt_of_not_writesPrice {after : World} (h : ¬ action.WritesPrice key) :
    priceWriteAt rt key ⟨w, action, after⟩ = none := by
  cases action with
  | transfer src dst amount => rfl
  | invoke tx ix =>
      have hnone : ix.priceWrite key tx.unixTimestamp = none := by
        cases ix with
        | initializePriceFeed accs symbol decimals price => exact if_neg h
        | updatePriceFeed accs price => exact if_neg h
        | updatePriceFeedFromLazer accs payload => exact if_neg h
        | initializeConfig => rfl
        | updateConfig => rfl
        | openPosition => rfl
        | updateTriggers => rfl
        | tickPosition => rfl
        | cancelPosition => rfl
        | registerLazerFeed => rfl
        | delegatePosition => rfl
        | undelegatePosition => rfl
      simp only [priceWriteAt, hnone, ite_self]

/-- A step either leaves price and time of a feed alone or writes both. -/
theorem priceWrite_step (hok : attempt rt w action = .ok w') :
    (priceWriteAt rt key ⟨w, action, w'⟩ = none ∧
      ∀ feed', w'.feeds key = some feed' → ∃ feed, w.feeds key = some feed ∧
        feed'.price = feed.price ∧ feed'.lastUpdated = feed.lastUpdated) ∨
    ∃ write, priceWriteAt rt key ⟨w, action, w'⟩ = some write ∧ write.Genuine ∧
      ∀ feed', w'.feeds key = some feed' → PriceFrom write feed' := by
  have hat := (attempt_effect hok).atFeed key
  generalize hbefore : w.feeds key = before at hat
  generalize hafter : w'.feeds key = after at hat
  cases hat with
  | kept writes =>
      left
      refine ⟨priceWriteAt_of_not_writesPrice writes, ?_⟩
      intro feed' hfeed'
      exact ⟨feed', hfeed', rfl, rfl⟩
  | created account heff =>
      right
      rw [priceWriteAt_of_ok hok, Instruction.priceWrite, if_pos account]
      refine ⟨_, rfl, ?_, ?_⟩
      · intro message hmessage
        contradiction
      · intro feed' hfeed'
        rw [← Option.some.inj hfeed']
        exact ⟨rfl, rfl⟩
  | pushed account heff =>
      right
      rw [priceWriteAt_of_ok hok, Instruction.priceWrite, if_pos account]
      refine ⟨_, rfl, ?_, ?_⟩
      · intro message hmessage
        contradiction
      · intro feed' hfeed'
        rw [← Option.some.inj hfeed']
        exact ⟨rfl, rfl⟩
  | @registered tx accs lazerFeedId channel config feed _ account heff =>
      left
      refine ⟨by rw [priceWriteAt_of_ok hok]; rfl, ?_⟩
      intro feed' hfeed'
      rw [← Option.some.inj hfeed']
      exact ⟨feed, rfl, rfl, rfl⟩
  | @verified tx accs payload feed message _ account heff =>
      right
      have hdecoded := heff.accepted.decoded
      rw [priceWriteAt_of_ok hok, Instruction.priceWrite, if_pos account, hdecoded]
      refine ⟨_, rfl, ?_, ?_⟩
      · intro decoded hsome
        rw [← Option.some.inj hsome]
        exact ⟨rfl, heff.accepted.not_future, heff.accepted.recent⟩
      · intro feed' hfeed'
        rw [← Option.some.inj hfeed']
        exact ⟨rfl, rfl⟩

theorem genuine_of_priceWriteAt {m : Moment} {write : PriceWrite}
    (h : priceWriteAt rt key m = some write) : write.Genuine := by
  rcases m with ⟨before, action, after⟩
  rcases ok_or_error (attempt rt before action) with ⟨result, hok⟩ | ⟨error, herror⟩
  · have hsame : priceWriteAt rt key ⟨before, action, result⟩ = some write := h
    rcases @priceWrite_step rt before result key action hok with
      ⟨hnone, -⟩ | ⟨found, hfound, hgenuine, -⟩
    · rw [hnone] at hsame
      contradiction
    · rw [hfound] at hsame
      rw [← Option.some.inj hsame]
      exact hgenuine
  · rw [priceWriteAt_of_error herror] at h
    contradiction

theorem time_of_priceWriteAt {m : Moment} {write : PriceWrite}
    (h : priceWriteAt rt key m = some write) : m.action.time = some write.writtenAt := by
  rcases m with ⟨before, action, after⟩
  cases action with
  | transfer src dst amount => contradiction
  | invoke tx ix =>
      simp only [priceWriteAt] at h
      split at h
      · have hnow : write.writtenAt = tx.unixTimestamp := by
          unfold Instruction.priceWrite at h
          repeat' split at h
          all_goals first
            | contradiction
            | rw [← Option.some.inj h]
        rw [hnow]
        rfl
      · contradiction

end Step

/-! ### Whole runs -/

section Runs

variable (rt : Runtime) (lamports : Lamports) (actions : List Action) (key : Pubkey)

theorem genuine_of_mem {history : List Moment} {write : PriceWrite}
    (h : write ∈ priceWrites rt key history) : write.Genuine := by
  rcases List.mem_filterMap.mp h with ⟨m, -, hwrite⟩
  exact genuine_of_priceWriteAt hwrite

/-- Price and time of a feed are those of the last write of the run. -/
theorem provenance_of_run {feed : PriceFeed}
    (h : (runFrom rt (World.genesis lamports) actions).feeds key = some feed) :
    ∃ write, (priceWrites rt key
        (historyFrom rt (World.genesis lamports) actions)).getLast? = some write ∧
      PriceFrom write feed := by
  induction actions using List.reverseRecOn generalizing feed with
  | nil => contradiction
  | append_singleton earlier action ih =>
      rw [runFrom_snoc] at h
      rw [historyFrom_snoc, priceWrites, List.filterMap_append, List.filterMap_cons,
        List.filterMap_nil]
      rcases ok_or_error (attempt rt (runFrom rt (World.genesis lamports) earlier) action)
        with ⟨w', hok⟩ | ⟨error, herror⟩
      · rw [step_of_ok hok] at h ⊢
        rcases @priceWrite_step rt _ w' key action hok with
          ⟨hnone, hkept⟩ | ⟨write, hwrite, -, hfrom⟩
        · rw [hnone, List.append_nil]
          rcases hkept feed h with ⟨before, hbefore, hprice, hupdated⟩
          rcases ih hbefore with ⟨write, hlast, hfrom⟩
          exact ⟨write, hlast, hprice.trans hfrom.price, hupdated.trans hfrom.lastUpdated⟩
        · rw [hwrite]
          exact ⟨write, List.getLast?_concat .., hfrom feed h⟩
      · rw [step_of_error herror] at h ⊢
        rw [priceWriteAt_of_error herror, List.append_nil]
        exact ih h

/-- The times of the writes are among the times of the actions, in their order. -/
theorem writtenAt_sublist (w : World) :
    List.Sublist ((priceWrites rt key (historyFrom rt w actions)).map PriceWrite.writtenAt)
      (actions.filterMap Action.time) := by
  induction actions generalizing w with
  | nil => exact List.Sublist.refl _
  | cons action rest ih =>
      have hrest := ih (step rt w action)
      change List.Sublist (((⟨w, action, step rt w action⟩ :: historyFrom rt (step rt w action)
        rest).filterMap (priceWriteAt rt key)).map PriceWrite.writtenAt) _
      cases hwrite : priceWriteAt rt key ⟨w, action, step rt w action⟩ with
      | none =>
          rw [List.filterMap_cons_none hwrite, List.filterMap_cons]
          split
          · exact hrest
          · exact hrest.cons _
      | some write =>
          have htime := time_of_priceWriteAt hwrite
          rw [List.filterMap_cons_some hwrite, List.filterMap_cons_some htime, List.map_cons]
          exact hrest.cons_cons _

/-- With a clock that does not go backwards, no accepted message is more than five
seconds older than one accepted before it. -/
theorem accepted_within_window (hclock : ClockMonotone actions) (w : World) :
    (acceptedMessages rt key (historyFrom rt w actions)).Pairwise fun earlier later =>
      earlier.timestamp.toInt - 5 ≤ later.timestamp.toInt := by
  have htimes := hclock.sublist (writtenAt_sublist rt actions key w)
  rw [List.pairwise_map] at htimes
  have hgenuine : ∀ write ∈ priceWrites rt key (historyFrom rt w actions), write.Genuine :=
    fun write hmem => genuine_of_mem rt key hmem
  rw [acceptedMessages, List.pairwise_filterMap]
  apply htimes.imp_of_mem
  intro earlier later hearlier hlater htime old hold new hnew
  rcases hgenuine earlier hearlier old hold with ⟨-, hpast, -⟩
  rcases hgenuine later hlater new hnew with ⟨-, -, hrecent⟩
  omega

/-- Registered in the same way: the fields a posted message is compared with. -/
structure SameRegistration (feed feed' : PriceFeed) : Prop where
  source : feed'.source = feed.source
  lazerFeedId : feed'.lazerFeedId = feed.lazerFeedId
  lazerChannel : feed'.lazerChannel = feed.lazerChannel

theorem LazerGuards.of_sameRegistration {rt : Runtime} {w w' : World} {tx : Tx}
    {accs : UpdatePriceFeedFromLazer} {payload : List UInt8} {feed feed' : PriceFeed}
    {message : LazerMessage} (h : LazerGuards rt w tx accs payload feed message)
    (hfeed' : w'.feeds accs.feed = some feed') (hsame : SameRegistration feed feed') :
    LazerGuards rt w' tx accs payload feed' message := by
  have haccepted := h.accepted
  constructor
  case authentic => exact h.authentic
  case precompiles => exact h.precompiles
  case signed => exact h.signed
  case loaded => exact hfeed'
  case writable => exact h.writable
  case sysvar => exact h.sysvar
  case accepted =>
    constructor
    case source => exact hsame.source.trans haccepted.source
    case decoded => exact haccepted.decoded
    case price_pos => exact haccepted.price_pos
    case feedId => exact hsame.lazerFeedId.trans haccepted.feedId
    case channel => exact hsame.lazerChannel.trans haccepted.channel
    case not_future => exact haccepted.not_future
    case recent => exact haccepted.recent
    case carried => exact haccepted.carried

theorem SameRegistration.symm {feed feed' : PriceFeed} (h : SameRegistration feed feed') :
    SameRegistration feed' feed :=
  ⟨h.source.symm, h.lazerFeedId.symm, h.lazerChannel.symm⟩

/-- Acceptance looks at the registration only, never at the prices accepted before. -/
theorem lazer_succeeds_congr {rt : Runtime} {w w' : World} {tx : Tx}
    {accs : UpdatePriceFeedFromLazer} {payload : List UInt8} {feed feed' : PriceFeed}
    (hfeed : w.feeds accs.feed = some feed) (hfeed' : w'.feeds accs.feed = some feed')
    (hsame : SameRegistration feed feed') :
    (∃ after, attempt rt w (.invoke tx (.updatePriceFeedFromLazer accs payload)) =
        .ok after) ↔
      ∃ after, attempt rt w' (.invoke tx (.updatePriceFeedFromLazer accs payload)) =
        .ok after := by
  rw [lazer_succeeds_iff, lazer_succeeds_iff]
  constructor
  · rintro ⟨loaded, message, hguards⟩
    have hloaded := Option.some.inj (hguards.loaded.symm.trans hfeed)
    subst hloaded
    exact ⟨feed', message, hguards.of_sameRegistration hfeed' hsame⟩
  · rintro ⟨loaded, message, hguards⟩
    have hloaded := Option.some.inj (hguards.loaded.symm.trans hfeed')
    subst hloaded
    exact ⟨feed, message, hguards.of_sameRegistration hfeed hsame.symm⟩

/-- Over every run: acceptance does not depend on what was accepted before; a rejected
post changes nothing; a posted price is that of the message accepted last; and while
the clock does not go backwards, accepted timestamps fall by at most five seconds. -/
theorem last_accepted_wins :
    (∀ tx accs payload (w w' : World) feed feed', w.feeds accs.feed = some feed →
      w'.feeds accs.feed = some feed' → SameRegistration feed feed' →
      ((∃ after, attempt rt w (.invoke tx (.updatePriceFeedFromLazer accs payload)) =
          .ok after) ↔
        ∃ after, attempt rt w' (.invoke tx (.updatePriceFeedFromLazer accs payload)) =
          .ok after)) ∧
    (∀ m ∈ historyFrom rt (World.genesis lamports) actions,
      Succeeded rt m ∨ m.after = m.before) ∧
    (∀ feed write message,
      (runFrom rt (World.genesis lamports) actions).feeds key = some feed →
      (priceWrites rt key (historyFrom rt (World.genesis lamports) actions)).getLast? =
        some write → write.message = some message →
      (acceptedMessages rt key
          (historyFrom rt (World.genesis lamports) actions)).getLast? = some message ∧
        feed.price = message.price ∧ feed.lastUpdated = write.writtenAt) ∧
    (ClockMonotone actions →
      (acceptedMessages rt key (historyFrom rt (World.genesis lamports) actions)).Pairwise
        fun earlier later => earlier.timestamp.toInt - 5 ≤ later.timestamp.toInt) := by
  refine ⟨?_, ?_, ?_, ?_⟩
  · intro tx accs payload w w' feed feed' hfeed hfeed' hsame
    exact lazer_succeeds_congr hfeed hfeed' hsame
  · intro m hm
    rcases (reachable_of_mem_history hm).2 with hafter
    rcases step_cases rt m.before m.action with hok | hsame
    · left
      rw [Succeeded, hafter]
      exact hok
    · right
      rw [hafter, hsame]
  · intro feed write message hfeed hlast hmessage
    rcases provenance_of_run rt lamports actions key hfeed with ⟨found, hfound, hfrom⟩
    rw [hlast] at hfound
    obtain rfl := Option.some.inj hfound
    have hmem := List.mem_of_getLast? hlast
    have hprice := (genuine_of_mem rt key hmem message hmessage).1
    refine ⟨?_, hfrom.price.trans hprice.symm, hfrom.lastUpdated⟩
    rcases List.getLast?_eq_some_iff.mp hlast with ⟨older, hwrites⟩
    rw [acceptedMessages, hwrites, List.filterMap_append,
      List.filterMap_cons_some hmessage, List.filterMap_nil]
    exact List.getLast?_concat ..
  · intro hclock
    exact accepted_within_window rt actions key hclock _

end Runs

section OutOfOrder

open Localnet

def post (entry : Ed25519.SignatureEntry) (now : Int64) : Action :=
  .invoke (lazerTx now (Ed25519.newInstructionData entry))
    (.updatePriceFeedFromLazer ⟨poster, feed, instructionsSysvarId⟩ entry.message)

/-- The message of second 1008 arrives before the one of second 1006. -/
def outOfOrder : List Action := launch ++ [post recentEntry 1009, post earlierEntry 1010]

theorem clockMonotone_outOfOrder : ClockMonotone outOfOrder := by
  unfold ClockMonotone
  decide +kernel

theorem accepted_outOfOrder :
    (acceptedMessages cluster feed
      (historyFrom cluster (World.genesis funds) outOfOrder)).map LazerMessage.timestamp =
        [1008, 1006] := by decide +kernel

/-- Two seconds back is within the five that are possible. -/
theorem last_accepted_wins_outOfOrder :
    (acceptedMessages cluster feed
      (historyFrom cluster (World.genesis funds) outOfOrder)).Pairwise
        fun earlier later => earlier.timestamp.toInt - 5 ≤ later.timestamp.toInt :=
  (last_accepted_wins cluster funds outOfOrder feed).2.2.2 clockMonotone_outOfOrder

/-- The older message is accepted after the newer one, and its price stands. -/
theorem older_message_wins :
    ClockMonotone outOfOrder ∧
      ¬ (acceptedMessages cluster feed
        (historyFrom cluster (World.genesis funds) outOfOrder)).Pairwise
          (fun earlier later => earlier.timestamp.toInt ≤ later.timestamp.toInt) ∧
      ((runFrom cluster (World.genesis funds) outOfOrder).feeds feed).map
        (fun f => (f.price, f.lastUpdated, f.updateCount)) = some (101000000, 1010, 2) := by
  refine ⟨clockMonotone_outOfOrder, ?_, by decide +kernel⟩
  intro hordered
  have htimes : ((acceptedMessages cluster feed
      (historyFrom cluster (World.genesis funds) outOfOrder)).map
        LazerMessage.timestamp).Pairwise fun earlier later => earlier.toInt ≤ later.toInt :=
    List.pairwise_map.mpr hordered
  rw [accepted_outOfOrder] at htimes
  exact absurd htimes (by decide)

end OutOfOrder

/-! ### The age of the prices in use -/

/-- The feed an instruction takes its price from, and the time it does so. -/
def Action.priceRead : Action → Option (Pubkey × Int64)
  | .invoke tx (.openPosition accs _) => some (accs.feed, tx.unixTimestamp)
  | .invoke tx (.tickPosition accs) => some (accs.feed, tx.unixTimestamp)
  | _ => none

/-- Whenever `open_position` or `tick_position` goes through, the price it used was
posted from a message no older than `lazerAge`, or pushed at most 120 seconds ago. -/
def FreshPrices (rt : Runtime) (lamports : Lamports) (actions : List Action)
    (lazerAge : Int) : Prop :=
  ∀ earlier action later key now w', actions = earlier ++ action :: later →
    action.priceRead = some (key, now) →
    attempt rt (runFrom rt (World.genesis lamports) earlier) action = .ok w' →
    ∃ feed write, (runFrom rt (World.genesis lamports) earlier).feeds key = some feed ∧
      (priceWrites rt key (historyFrom rt (World.genesis lamports) earlier)).getLast? =
        some write ∧ PriceFrom write feed ∧
      match write.message with
      | some message => now.toInt - message.timestamp.toInt ≤ lazerAge
      | none => now.toInt - write.writtenAt.toInt ≤ 120

section Freshness

variable {rt : Runtime} {w w' : World} {action : Action} {key : Pubkey} {now : Int64}

theorem fresh_of_priceRead (hok : attempt rt w action = .ok w')
    (hread : action.priceRead = some (key, now)) :
    ∃ feed, w.feeds key = some feed ∧ now.toInt - feed.lastUpdated.toInt ≤ 120 := by
  have heffect := attempt_effect hok
  cases heffect with
  | @positionOpened tx accs args config feed rent bump _ heff =>
      simp only [Action.priceRead, Option.some.injEq, Prod.mk.injEq] at hread
      rcases hread with ⟨rfl, rfl⟩
      exact ⟨feed, heff.feed_loaded, heff.checked.fresh⟩
  | @tickRecorded tx accs config feed position _ heff =>
      simp only [Action.priceRead, Option.some.injEq, Prod.mk.injEq] at hread
      rcases hread with ⟨rfl, rfl⟩
      exact ⟨feed, heff.accounts.feed_loaded, (tickPrice_eq_ok_iff.mp heff.guards).2.2.1⟩
  | @positionSettled tx accs config feed position payout _ heff =>
      simp only [Action.priceRead, Option.some.injEq, Prod.mk.injEq] at hread
      rcases hread with ⟨rfl, rfl⟩
      exact ⟨feed, heff.accounts.feed_loaded, (tickPrice_eq_ok_iff.mp heff.guards).2.2.1⟩
  | configCreated => contradiction
  | configChanged => contradiction
  | feedCreated => contradiction
  | feedPushed => contradiction
  | feedRegistered => contradiction
  | feedVerified => contradiction
  | triggersChanged => contradiction
  | positionCancelled => contradiction
  | delegated => contradiction
  | undelegated => contradiction
  | lamportsSent => contradiction

/-- The two windows add up: a posted price is used up to 125 seconds after its message
was dated, a pushed one up to 120 seconds after the push. -/
theorem fresh_prices (rt : Runtime) (lamports : Lamports) (actions : List Action) :
    FreshPrices rt lamports actions (120 + 5) := by
  intro earlier action later key now w' hactions hread hok
  rcases fresh_of_priceRead hok hread with ⟨feed, hfeed, hfresh⟩
  rcases provenance_of_run rt lamports earlier key hfeed with ⟨write, hlast, hfrom⟩
  have hgenuine := genuine_of_mem rt key (List.mem_of_getLast? hlast)
  rw [hfrom.lastUpdated] at hfresh
  refine ⟨feed, write, hfeed, hlast, hfrom, ?_⟩
  cases hmessage : write.message with
  | none => exact hfresh
  | some message =>
      rcases hgenuine message hmessage with ⟨-, -, hrecent⟩
      have htotal : now.toInt - message.timestamp.toInt ≤ 120 + 5 := by omega
      exact htotal

open Localnet in
/-- A message of second 1006, posted five seconds later and used 120 seconds after that. -/
def lateTick : List Action :=
  launch ++ [deposit, post earlierEntry 1011, tick feeReceiver 1131]

open Localnet in
/-- The tick at second 1131 goes through on a price that is 125 seconds old. -/
theorem lateTick_not_fresh :
    ClockMonotone lateTick ∧ ¬ FreshPrices cluster funds lateTick 120 := by
  have hclock : ClockMonotone lateTick := by
    unfold ClockMonotone
    decide +kernel
  refine ⟨hclock, ?_⟩
  intro hfresh
  have hok : attempt cluster (runFrom cluster (World.genesis funds)
      (launch ++ [deposit, post earlierEntry 1011])) (tick feeReceiver 1131) = .ok _ :=
    succeeded_of_isOk (by decide +kernel)
  have hwrite : (priceWrites cluster feed (historyFrom cluster (World.genesis funds)
      (launch ++ [deposit, post earlierEntry 1011]))).getLast? =
        some ⟨101000000, 1011, some ⟨6, 1006, 101000000, 1⟩⟩ := by decide +kernel
  rcases hfresh (launch ++ [deposit, post earlierEntry 1011]) _ [] _ _ _ rfl rfl hok with
    ⟨stored, write, -, hlast, -, hage⟩
  rw [hwrite] at hlast
  rw [← Option.some.inj hlast] at hage
  exact absurd hage (by decide)

end Freshness

end Hwal
