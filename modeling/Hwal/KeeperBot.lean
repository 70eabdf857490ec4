/-
The keeper of `scripts/keeper-bot.ts`: it reads the config once, then lists the positions
over and over and submits one tick for each that was open when it was listed, while
everyone else goes on acting in between.
-/
import Hwal.InstructionData
import Hwal.Lifecycle
import Hwal.Progress

namespace Hwal

open Guard

instance (position : Position) (price : UInt64) :
    Decidable (position.ThresholdOverflows price) := by
  unfold Position.ThresholdOverflows
  infer_instance

/-- What `tickAll` keeps from before its loop. -/
structure KeeperBot where
  keeper : Pubkey
  config : Pubkey
  feeReceiver : Pubkey
deriving DecidableEq, Repr

/-- A position account as `program.account.position.all()` returns it. -/
structure Listed where
  publicKey : Pubkey
  account : Position
deriving DecidableEq, Repr

/-- Without a config to fetch there is no bot. -/
def KeeperBot.start (rt : Runtime) (w : World) (keeper : Pubkey) : Option KeeperBot :=
  (w.configs rt.configAddress).map fun config =>
    ⟨keeper, rt.configAddress, config.feeReceiver⟩

/-- The listing, in whatever order the accounts came. -/
def Lists (w : World) (listing : List Listed) : Prop :=
  ∀ key position, ⟨key, position⟩ ∈ listing ↔ w.positions key = some position

def openOf (listing : List Listed) : List Listed :=
  listing.filter fun listed => listed.account.status = statusOpen

namespace KeeperBot

/-- `accountsStrict`: the position's own accounts are those of the listing. -/
def accounts (bot : KeeperBot) (listed : Listed) : TickPosition where
  keeper := bot.keeper
  config := bot.config
  feed := listed.account.feed
  position := listed.publicKey
  owner := listed.account.owner
  feeReceiver := bot.feeReceiver

/-- The transaction of `rpc()`, signed by the keeper alone. -/
def tx (bot : KeeperBot) (accs : TickPosition) (now : Int64) : Tx where
  signers := [bot.keeper]
  writable := [accs.keeper, accs.config, accs.position, accs.owner, accs.feeReceiver]
  unixTimestamp := now
  instructions := [⟨hwalProgramId, Method.tickPosition.data ()⟩]
  currentIndex := 0

def tick (bot : KeeperBot) (listed : Listed) (now : Int64) : Action :=
  .invoke (bot.tx (bot.accounts listed) now) (.tickPosition (bot.accounts listed))

/-- One pass over the listed positions; a tick that fails is only logged, and others act
before, between and after the ticks. -/
inductive Pass (bot : KeeperBot) : List Listed → List Action → Prop where
  | done : Pass bot [] []
  | other (action : Action) {pending : List Listed} {actions : List Action}
      (rest : Pass bot pending actions) : Pass bot pending (action :: actions)
  | tick (listed : Listed) (now : Int64) {pending : List Listed} {actions : List Action}
      (rest : Pass bot pending actions) :
      Pass bot (listed :: pending) (bot.tick listed now :: actions)

theorem Pass.exists_tick {bot : KeeperBot} {pending : List Listed} {actions : List Action}
    (h : bot.Pass pending actions) {listed : Listed} (hmem : listed ∈ pending) :
    ∃ before now after, actions = before ++ bot.tick listed now :: after := by
  induction h with
  | done => contradiction
  | other action rest ih =>
      rcases ih hmem with ⟨before, now, after, rfl⟩
      exact ⟨action :: before, now, after, rfl⟩
  | tick head now rest ih =>
      rcases List.mem_cons.mp hmem with rfl | hmem
      · exact ⟨[], now, _, rfl⟩
      · rcases ih hmem with ⟨before, now', after, rfl⟩
        exact ⟨bot.tick head now :: before, now', after, rfl⟩

/-- What becomes of a tick, read off the records it meets: the cached fee receiver must
still be the config's, the position open and the feed fresh, and the threshold must fit. -/
def verdict (bot : KeeperBot) (feeReceiver : Pubkey) (feed : PriceFeed)
    (position : Position) (now : Int64) : Except ProgramError Position := do
  requireAddress bot.feeReceiver feeReceiver (.anchor .constraintAddress)
  let price ← tickPrice position feed now
  require (¬ position.ThresholdOverflows price) (.hwal .mathOverflow)
  return position.ticked price now

end KeeperBot

/-- An attempt on one position does what a verdict says. -/
def Yields (rt : Runtime) (w : World) (key : Pubkey) (action : Action) :
    Except ProgramError Position → Prop
  | .ok after => ∃ w', attempt rt w action = .ok w' ∧ Rewritten w key after w'
  | .error error => attempt rt w action = .error error

section Tick

variable {rt : Runtime} {w : World} {bot : KeeperBot} {listed : Listed} {config : Config}
  {feed : PriceFeed} {position : Position}

/-- What the bot knows of a position stays right: only the fee receiver can be out of
date among the accounts it passes. -/
theorem KeeperBot.tryAccounts_eq (hinv : Invariant rt w)
    (hconfig : bot.config = rt.configAddress)
    (hloadedConfig : w.configs rt.configAddress = some config)
    (hloaded : w.positions listed.publicKey = some position)
    (hfeed : w.feeds position.feed = some feed)
    (hsame : SameTerms listed.account position) (now : Int64) :
    (bot.accounts listed).tryAccounts rt w (bot.tx (bot.accounts listed) now) =
      (requireAddress bot.feeReceiver config.feeReceiver (.anchor .constraintAddress) >>=
        fun _ => pure (config, feed, position)) := by
  have hsound := hinv.positions _ _ hloaded
  have hbump := (hinv.configs _ _ hloadedConfig).bump
  have hloadConfig : w.loadConfig bot.config = .ok config := by
    rw [hconfig]
    exact World.loadConfig_eq_ok_iff.mpr hloadedConfig
  have hloadFeed := World.loadPriceFeed_eq_ok_iff.mpr hfeed
  have hloadPosition := World.loadPosition_eq_ok_iff.mpr hloaded
  have hconfigSeeds : rt.createProgramAddress .config config.bump = some bot.config := by
    rw [hbump, hconfig]
    exact rt.create_find .config
  have hpositionSeeds : rt.createProgramAddress (.position position.owner position.nonce)
      position.bump = some listed.publicKey := by
    rw [hsound.bump, hsound.address]
    exact rt.create_find _
  simp only [TickPosition.tryAccounts, Tx.requireSigner, Tx.requireMut,
    Runtime.requireSeeds, KeeperBot.accounts, KeeperBot.tx, hloadConfig, hloadFeed,
    hloadPosition, hconfigSeeds, hpositionSeeds, ← hsame.feed, ← hsame.owner, ok_bind,
    requireAddress, require, List.mem_cons, true_or, or_true, ↓reduceIte]

/-- The cluster runs the transaction, and nothing else is in it. -/
theorem KeeperBot.attempt_tick (hkeeper : rt.canSign bot.keeper = true) (now : Int64) :
    attempt rt w (bot.tick listed now) =
      tickPosition rt w (bot.tx (bot.accounts listed) now) (bot.accounts listed) := by
  have hsigners : (bot.tx (bot.accounts listed) now).authentic rt = true := by
    simp [Tx.authentic, tx, hkeeper]
  have hpass : (bot.tx (bot.accounts listed) now).precompilesPass rt = true := by
    simp [Tx.precompilesPass, tx, hwalProgramId, Ed25519.programId]
  simp only [attempt, tick, require_of_holds _ hsigners, require_of_holds _ hpass, ok_bind,
    execute]

/-- A tick of the bot goes the way of its verdict. -/
theorem KeeperBot.yields_verdict (hinv : Invariant rt w)
    (hsupply : Ledger.SupplyAtMost (2 ^ 64 - 1) w.lamports)
    (hkeeper : rt.canSign bot.keeper = true) (hconfig : bot.config = rt.configAddress)
    (hloadedConfig : w.configs rt.configAddress = some config)
    (hloaded : w.positions listed.publicKey = some position)
    (hfeed : w.feeds position.feed = some feed)
    (hsame : SameTerms listed.account position) (now : Int64) :
    Yields rt w listed.publicKey (bot.tick listed now)
      (bot.verdict config.feeReceiver feed position now) := by
  have htry := tryAccounts_eq hinv hconfig hloadedConfig hloaded hfeed hsame now
  have hattempt : attempt rt w (bot.tick listed now) = _ := attempt_tick hkeeper now
  by_cases hreceiver : bot.feeReceiver = config.feeReceiver
  · rw [requireAddress, require_of_holds _ hreceiver] at htry
    have haccs := tickPosition_tryAccounts_eq_ok_iff.mp htry
    rcases ok_or_error (tickPrice position feed now) with ⟨price, hprice⟩ | ⟨error, herror⟩
    · obtain rfl := (tickPrice_eq_ok_iff.mp hprice).2.2.2
      by_cases hover : position.ThresholdOverflows feed.price
      · have hsound := (hinv.positions _ _ hloaded).shape
        have hverdict :
            bot.verdict config.feeReceiver feed position now =
              .error (.hwal .mathOverflow) := by
          simp [verdict, requireAddress, hreceiver, hprice, hover, require]
        rw [hverdict, Yields, hattempt]
        exact tickPosition_of_overflow haccs hprice hsound hover
      · rcases exists_tickPosition haccs hprice hinv hsupply hover with ⟨w', hok⟩
        have hverdict : bot.verdict config.feeReceiver feed position now =
            .ok (position.ticked feed.price now) := by
          simp [verdict, requireAddress, hreceiver, hprice, hover]
        rw [hverdict]
        exact ⟨w', hattempt.trans hok, rewritten_of_tick haccs hok⟩
    · have hverdict : bot.verdict config.feeReceiver feed position now = .error error := by
        simp [verdict, requireAddress, hreceiver, herror]
      rw [hverdict, Yields, hattempt, tickPosition, htry]
      simp only [ok_bind, pure_bind, KeeperBot.tx, herror, error_bind]
  · have hverdict : bot.verdict config.feeReceiver feed position now =
        .error (.anchor .constraintAddress) := by
      simp [verdict, requireAddress, require, hreceiver]
    rw [hverdict, Yields, hattempt, tickPosition, htry, requireAddress, require,
      if_neg hreceiver]
    rfl

end Tick

/-! ### Whole passes -/

/-- A position listed once is there ever after, on the terms of the listing. -/
theorem sameTerms_run (rt : Runtime) {w : World} {key : Pubkey} {position : Position}
    (h : w.positions key = some position) (later : List Action) :
    ∃ position', (runFrom rt w later).positions key = some position' ∧
      SameTerms position position' := by
  induction later using List.reverseRecOn with
  | nil => exact ⟨position, h, .refl position⟩
  | append_singleton earlier action ih =>
      rcases ih with ⟨before, hbefore, hterms⟩
      rcases positions_persist rt hbefore action with ⟨after, hafter⟩
      rw [runFrom_snoc]
      exact ⟨after, hafter, hterms.trans (step_sameTerms rt hbefore hafter)⟩

/-- A bot started at any point of any run, one pass over a listing made at any later
point, and anything at all done by others in between: every position open at the listing
gets its tick, and the tick's outcome is the verdict on the records it then meets.  It goes
through exactly when the config still names the fee receiver the bot fetched, the position
is still open, the feed is fresh and the threshold fits; what the listing says of the
position's accounts is never out of date. -/
theorem keeper_pass (rt : Runtime) (lamports : Lamports) (earlier middle : List Action)
    {keeper : Pubkey} {bot : KeeperBot} {listing : List Listed} {actions : List Action}
    (hsupply : Ledger.SupplyAtMost (2 ^ 64 - 1) lamports)
    (hkeeper : rt.canSign keeper = true)
    (hstart : KeeperBot.start rt (runFrom rt (World.genesis lamports) earlier) keeper =
      some bot)
    (hlisting : Lists (runFrom rt (World.genesis lamports) (earlier ++ middle)) listing)
    (hpass : bot.Pass (openOf listing) actions) {key : Pubkey} {position : Position}
    (hposition : (runFrom rt (World.genesis lamports) (earlier ++ middle)).positions key =
      some position)
    (hopen : position.status = statusOpen) :
    ∃ before now after, actions = before ++ bot.tick ⟨key, position⟩ now :: after ∧
      let w := runFrom rt (World.genesis lamports) (earlier ++ middle ++ before)
      ∃ config feed current, w.configs rt.configAddress = some config ∧
        w.feeds current.feed = some feed ∧ w.positions key = some current ∧
        Yields rt w key (bot.tick ⟨key, position⟩ now)
          (bot.verdict config.feeReceiver feed current now) := by
  have hmem : (⟨key, position⟩ : Listed) ∈ openOf listing := by
    rw [openOf, List.mem_filter]
    exact ⟨(hlisting key position).mpr hposition, by simp [hopen]⟩
  rcases hpass.exists_tick hmem with ⟨before, now, after, hactions⟩
  refine ⟨before, now, after, hactions, ?_⟩
  have hreach : ReachableWithSupply rt
      (runFrom rt (World.genesis lamports) (earlier ++ middle ++ before)) :=
    ⟨lamports, _, hsupply, rfl⟩
  have hinv := reachable_invariant hreach.reachable
  have hrun : runFrom rt (World.genesis lamports) (earlier ++ middle ++ before) =
      runFrom rt (runFrom rt (World.genesis lamports) (earlier ++ middle)) before :=
    Transition.run_append ..
  rcases sameTerms_run rt hposition before with ⟨current, hcurrent, hterms⟩
  rw [← hrun] at hcurrent
  have hsound := hinv.positions _ _ hcurrent
  rcases hsound.config with ⟨config, hconfig⟩
  rcases hsound.feed with ⟨feed, hfeed⟩
  rcases Option.map_eq_some_iff.mp hstart with ⟨_, -, rfl⟩
  exact ⟨config, feed, current, hconfig, hfeed, hcurrent,
    KeeperBot.yields_verdict hinv (reachable_supply hreach) hkeeper rfl hconfig hcurrent hfeed
      hterms now⟩

/-! ### A pass nobody disturbs -/

/-- Where a position stands after its tick. -/
def KeeperBot.swept (bot : KeeperBot) (rt : Runtime) (w : World) (position : Position)
    (now : Int64) : Position :=
  match w.feeReceiverAt rt.configAddress, w.feeds position.feed with
  | some feeReceiver, some feed =>
      (bot.verdict feeReceiver feed position now).toOption.getD position
  | _, _ => position

/-- One tick of the pass, seen from every position. -/
theorem step_tick {rt : Runtime} {w : World} {bot : KeeperBot} {listed : Listed}
    (hreach : ReachableWithSupply rt w) (hkeeper : rt.canSign bot.keeper = true)
    (hconfig : bot.config = rt.configAddress)
    (hloaded : w.positions listed.publicKey = some listed.account) (now : Int64) :
    Rewritten w listed.publicKey (bot.swept rt w listed.account now)
      (step rt w (bot.tick listed now)) := by
  have hinv := reachable_invariant hreach.reachable
  have hsound := hinv.positions _ _ hloaded
  rcases hsound.config with ⟨config, hloadedConfig⟩
  rcases hsound.feed with ⟨feed, hfeed⟩
  have hyields := KeeperBot.yields_verdict hinv (reachable_supply hreach) hkeeper hconfig
    hloadedConfig hloaded hfeed (.refl _) now
  have hreceiver : w.feeReceiverAt rt.configAddress = some config.feeReceiver := by
    rw [World.feeReceiverAt, hloadedConfig, Option.map_some]
  simp only [KeeperBot.swept, hreceiver, hfeed]
  cases hverdict : bot.verdict config.feeReceiver feed listed.account now with
  | ok after =>
      rw [hverdict] at hyields
      rcases hyields with ⟨w', hok, hrewritten⟩
      rw [step_of_ok hok]
      exact hrewritten
  | error error =>
      rw [hverdict] at hyields
      rw [step_of_error hyields]
      exact ⟨(Function.update_eq_self_iff.mpr hloaded.symm).symm, rfl, rfl⟩

/-- What a tick leaves alone is all that its verdicts depend on. -/
theorem Rewritten.swept {rt : Runtime} {w w' : World} {key : Pubkey} {after : Position}
    (h : Rewritten w key after w') (bot : KeeperBot) (position : Position) (now : Int64) :
    bot.swept rt w' position now = bot.swept rt w position now := by
  rw [KeeperBot.swept, KeeperBot.swept, h.feeds, h.feeReceivers]

theorem swept_of_closed (bot : KeeperBot) (rt : Runtime) (w : World) {position : Position}
    (hclosed : position.status ≠ statusOpen) (now : Int64) :
    bot.swept rt w position now = position := by
  unfold KeeperBot.swept
  split
  · next feeReceiver feed _ _ =>
      by_cases hreceiver : bot.feeReceiver = feeReceiver
      · simp [KeeperBot.verdict, requireAddress, tickPrice, require, hreceiver, hclosed,
          Except.toOption]
      · simp [KeeperBot.verdict, requireAddress, require, hreceiver, Except.toOption]
  · rfl

/-- The ticks of a pass do not get in each other's way. -/
theorem run_ticks {rt : Runtime} {w : World} {bot : KeeperBot}
    (hreach : ReachableWithSupply rt w) (hkeeper : rt.canSign bot.keeper = true)
    (hconfig : bot.config = rt.configAddress) (clock : Pubkey → Int64)
    {pending : List Listed} (hnodup : (pending.map Listed.publicKey).Nodup)
    (hloaded : ∀ listed ∈ pending, w.positions listed.publicKey = some listed.account)
    (key : Pubkey) :
    (runFrom rt w (pending.map fun listed =>
        bot.tick listed (clock listed.publicKey))).positions key =
      if key ∈ pending.map Listed.publicKey then
        (w.positions key).map fun position => bot.swept rt w position (clock key)
      else w.positions key := by
  induction pending generalizing w with
  | nil => simp
  | cons head rest ih =>
      rw [List.map_cons, List.nodup_cons] at hnodup
      have hhead := hloaded head List.mem_cons_self
      have hstep := step_tick hreach hkeeper hconfig hhead (clock head.publicKey)
      have hrest : ∀ listed ∈ rest,
          (step rt w (bot.tick head (clock head.publicKey))).positions listed.publicKey =
            some listed.account := by
        intro listed hlisted
        have hne : listed.publicKey ≠ head.publicKey := by
          intro hsame
          rw [← hsame] at hnodup
          exact hnodup.1 (List.mem_map_of_mem hlisted)
        rw [hstep.positions, Function.update_of_ne hne]
        exact hloaded listed (List.mem_cons_of_mem head hlisted)
      have hrun := ih (hreach.step _) hnodup.2 hrest
      rw [List.map_cons, List.map_cons, runFrom, Transition.run_cons, hrun]
      simp only [hstep.swept, List.mem_cons]
      by_cases hkey : key = head.publicKey
      · subst hkey
        rw [if_neg hnodup.1, if_pos (Or.inl rfl), hstep.positions, Function.update_self, hhead,
          Option.map_some]
      · rw [hstep.positions, Function.update_of_ne hkey]
        simp only [hkey, false_or]

/-- A pass nobody disturbs, over a listing of every position in whatever order, each tick
landing at a time of its own: every position ends where its own tick alone would have put
it, and the closed ones stay as they are. -/
theorem keeper_sweep {rt : Runtime} {w : World} {bot : KeeperBot} {listing : List Listed}
    (hreach : ReachableWithSupply rt w) (hkeeper : rt.canSign bot.keeper = true)
    (hconfig : bot.config = rt.configAddress) (hlisting : Lists w listing)
    (hnodup : (listing.map Listed.publicKey).Nodup) (clock : Pubkey → Int64) :
    let w' := runFrom rt w ((openOf listing).map fun listed =>
      bot.tick listed (clock listed.publicKey))
    ∀ key, w'.positions key =
      (w.positions key).map fun position => bot.swept rt w position (clock key) := by
  intro w' key
  have hkeys : ((openOf listing).map Listed.publicKey).Nodup :=
    hnodup.sublist (List.filter_sublist.map _)
  have hloaded : ∀ listed ∈ openOf listing,
      w.positions listed.publicKey = some listed.account := by
    intro listed hmem
    exact (hlisting _ _).mp (List.mem_filter.mp hmem).1
  have hrun := run_ticks hreach hkeeper hconfig clock hkeys hloaded key
  refine hrun.trans ?_
  split
  · rfl
  · next hkey =>
      cases hposition : w.positions key with
      | none => rfl
      | some position =>
          have hclosed : position.status ≠ statusOpen := by
            intro hopen
            apply hkey
            have hmem : (⟨key, position⟩ : Listed) ∈ openOf listing :=
              List.mem_filter.mpr ⟨(hlisting key position).mpr hposition, by simp [hopen]⟩
            exact List.mem_map_of_mem hmem
          rw [Option.map_some, swept_of_closed bot rt w hclosed]

section Started

open Localnet

/-- The bot, started after the launch. -/
def launchedBot : KeeperBot := ⟨Localnet.keeper, Localnet.config, Localnet.feeReceiver⟩

/-- A deposit, and a price below its stop. -/
def stopReached : List Action := [deposit, push 89000000 1006]

theorem positionAddress_cluster (owner : Pubkey) (nonce : UInt64) :
    cluster.positionAddress owner nonce = Localnet.position ∨
      cluster.positionAddress owner nonce = 1#256 := by
  change (findProgramAddress (.position owner nonce)).1 = Localnet.position ∨
    (findProgramAddress (.position owner nonce)).1 = 1#256
  rw [findProgramAddress, addresses, List.lookup_cons, List.lookup_cons, List.lookup_cons]
  cases hseeds : (Seeds.position owner nonce == Seeds.position alice 1) with
  | true => exact Or.inl rfl
  | false => exact Or.inr rfl

/-- On the local cluster one entry is a whole listing. -/
theorem lists_stopReached {record : Position}
    (hrecord : (runFrom cluster (World.genesis funds) (launch ++ stopReached)).positions
      Localnet.position = some record) :
    Lists (runFrom cluster (World.genesis funds) (launch ++ stopReached))
      [⟨Localnet.position, record⟩] := by
  have hreach : Reachable cluster (runFrom cluster (World.genesis funds)
    (launch ++ stopReached)) := ⟨funds, _, rfl⟩
  have hnone : (runFrom cluster (World.genesis funds) (launch ++ stopReached)).positions
      1#256 = none := by decide +kernel
  intro key found
  rw [List.mem_singleton, Listed.mk.injEq]
  constructor
  · rintro ⟨rfl, rfl⟩
    exact hrecord
  · intro hfound
    have haddress := ((reachable_invariant hreach).positions _ _ hfound).address
    rcases positionAddress_cluster found.owner found.nonce with hkey | hkey
    · rw [hkey] at haddress
      subst haddress
      exact ⟨rfl, Option.some.inj (hfound.symm.trans hrecord)⟩
    · rw [haddress, hkey, hnone] at hfound
      contradiction

theorem keeper_pass_stopReached :
    ∃ record, (runFrom cluster (World.genesis funds) (launch ++ stopReached)).positions
        Localnet.position = some record ∧
      ∃ before now after, [cancel 1006, launchedBot.tick ⟨Localnet.position, record⟩ 1007] =
        before ++ launchedBot.tick ⟨Localnet.position, record⟩ now :: after ∧
      let w := runFrom cluster (World.genesis funds) (launch ++ stopReached ++ before)
      ∃ config feed current, w.configs cluster.configAddress = some config ∧
        w.feeds current.feed = some feed ∧ w.positions Localnet.position = some current ∧
        Yields cluster w Localnet.position
          (launchedBot.tick ⟨Localnet.position, record⟩ now)
          (launchedBot.verdict config.feeReceiver feed current now) := by
  have hfields : ((runFrom cluster (World.genesis funds) (launch ++ stopReached)).positions
      Localnet.position).map Position.status = some statusOpen := by decide +kernel
  rcases Option.map_eq_some_iff.mp hfields with ⟨record, hrecord, hopen⟩
  have hpass : launchedBot.Pass (openOf [⟨Localnet.position, record⟩])
      [cancel 1006, launchedBot.tick ⟨Localnet.position, record⟩ 1007] := by
    simp only [openOf, hopen, decide_true, List.filter_cons_of_pos, List.filter_nil]
    exact .other _ (.tick _ _ .done)
  have hkeeper : cluster.canSign Localnet.keeper = true := by decide
  have hstart : KeeperBot.start cluster (runFrom cluster (World.genesis funds) launch)
      Localnet.keeper = some launchedBot := by decide +kernel
  refine ⟨record, hrecord, ?_⟩
  exact keeper_pass cluster funds launch stopReached funds_supply hkeeper hstart
    (lists_stopReached hrecord) hpass hrecord hopen

theorem keeper_sweep_stopReached :
    ∃ record, (runFrom cluster (World.genesis funds) (launch ++ stopReached)).positions
        Localnet.position = some record ∧
      let w := runFrom cluster (World.genesis funds) (launch ++ stopReached)
      let w' := runFrom cluster w ((openOf [⟨Localnet.position, record⟩]).map fun listed =>
        launchedBot.tick listed 1007)
      ∀ key, w'.positions key =
        (w.positions key).map fun position => launchedBot.swept cluster w position 1007 := by
  have hfound : ((runFrom cluster (World.genesis funds) (launch ++ stopReached)).positions
      Localnet.position).isSome = true := by decide +kernel
  rcases Option.isSome_iff_exists.mp hfound with ⟨record, hrecord⟩
  refine ⟨record, hrecord, ?_⟩
  exact keeper_sweep ⟨funds, _, funds_supply, rfl⟩ (by decide +kernel) rfl
    (lists_stopReached hrecord) (by simp) fun _ => 1007

end Started

end Hwal
