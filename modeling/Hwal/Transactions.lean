/-
Whole transactions: a list of instructions for this program and for others, signed once,
dated once, and executed to the end or not at all.  What the program does under them is
what it does under its own instructions one at a time.
-/
import Hwal.InstructionData
import Hwal.LazerVerification
import Hwal.Progress
import Hwal.Support.AtomicBatch

namespace Hwal

open Guard

/-- Lamports another program moves. -/
structure LamportMove where
  source : Pubkey
  destination : Pubkey
  amount : UInt64
deriving DecidableEq, Repr

/-- One instruction of a transaction's message.  What a program outside this repository
does with it is told by the lamports it moves. -/
structure MessageInstruction where
  programId : Pubkey
  accounts : List Pubkey
  data : List UInt8
  moves : List LamportMove
deriving DecidableEq, Repr

structure Transaction where
  signers : List Pubkey
  writable : List Pubkey
  unixTimestamp : Int64
  instructions : List MessageInstruction
deriving Repr

/-- What the instruction at an index sees of its transaction. -/
def Transaction.tx (transaction : Transaction) (index : Nat) : Tx where
  signers := transaction.signers
  writable := transaction.writable
  unixTimestamp := transaction.unixTimestamp
  instructions := transaction.instructions.map fun ix => ⟨ix.programId, ix.data⟩
  currentIndex := UInt16.ofNat index

/-- What an instruction asks for; the precompile has run before any of them. -/
def MessageInstruction.actions (ix : MessageInstruction) (tx : Tx) : Option (List Action) :=
  if ix.programId = hwalProgramId then
    (parseInstruction ix.accounts ix.data).map fun call => [.invoke tx call]
  else if ix.programId = Ed25519.programId then some []
  else some (ix.moves.map fun move => .transfer move.source move.destination move.amount)

/-- The actions of the instructions from an index on. -/
def Transaction.actionsFrom (transaction : Transaction) :
    Nat → List MessageInstruction → Option (List Action)
  | _, [] => some []
  | index, ix :: rest => do
      let first ← ix.actions (transaction.tx index)
      let others ← transaction.actionsFrom (index + 1) rest
      return first ++ others

/-- A transaction whose signatures or precompiles fail is never executed. -/
def Transaction.actions (rt : Runtime) (transaction : Transaction) : Option (List Action) :=
  if (transaction.tx 0).authentic rt = true ∧ (transaction.tx 0).precompilesPass rt = true then
    transaction.actionsFrom 0 transaction.instructions
  else none

def transactionStep (rt : Runtime) (w : World) (transaction : Transaction) : World :=
  Transition.commit (attempt rt) (Transaction.actions rt) w transaction

/-- The actions transactions would take if every one of them committed. -/
def actionsOf (rt : Runtime) (transactions : List Transaction) : List Action :=
  transactions.flatMap fun transaction => (transaction.actions rt).getD []

/-- The transactions of a list that commit, each tried where the ones before it lead. -/
def committedOf (rt : Runtime) (w : World) (transactions : List Transaction) :
    List Transaction :=
  Transition.committed (attempt rt) (Transaction.actions rt) w transactions

/-! ### Instruction by instruction -/

/-- One instruction of a message takes effect: the program's own is well formed and passes
every check where it stands, the precompile has run already, and another program moves its
lamports. -/
inductive MessageInstruction.Executes (rt : Runtime) (tx : Tx) (ix : MessageInstruction)
    (w w' : World) : Prop where
  | own {call : Instruction} (program : ix.programId = hwalProgramId)
      (parsed : parseInstruction ix.accounts ix.data = some call)
      (accepted : attempt rt w (.invoke tx call) = .ok w')
  | precompile (program : ix.programId = Ed25519.programId) (same : w' = w)
  | other (notOwn : ix.programId ≠ hwalProgramId)
      (notPrecompile : ix.programId ≠ Ed25519.programId)
      (moved : (ix.moves.map fun move =>
        Action.transfer move.source move.destination move.amount).foldlM (attempt rt) w = .ok w')

/-- The instructions of a transaction from an index on take effect one after another. -/
inductive Transaction.Executes (rt : Runtime) (transaction : Transaction) :
    Nat → World → List MessageInstruction → World → Prop where
  | done {index : Nat} {w : World} : Transaction.Executes rt transaction index w [] w
  | next {index : Nat} {w middle w' : World} {ix : MessageInstruction}
      {rest : List MessageInstruction} (first : ix.Executes rt (transaction.tx index) w middle)
      (others : Transaction.Executes rt transaction (index + 1) middle rest w') :
      Transaction.Executes rt transaction index w (ix :: rest) w'

/-- A transaction goes through: signatures and precompiles hold, and every instruction
takes effect where it stands. -/
structure Transaction.Commits (rt : Runtime) (transaction : Transaction) (w w' : World) :
    Prop where
  authentic : (transaction.tx 0).authentic rt = true
  precompiles : (transaction.tx 0).precompilesPass rt = true
  executes : transaction.Executes rt 0 w transaction.instructions w'

theorem MessageInstruction.executes_iff {rt : Runtime} {tx : Tx} {ix : MessageInstruction}
    {w w' : World} :
    ix.Executes rt tx w w' ↔
      ∃ actions, ix.actions tx = some actions ∧ actions.foldlM (attempt rt) w = .ok w' := by
  have hdistinct : Ed25519.programId ≠ hwalProgramId := by decide
  constructor
  · intro h
    cases h with
    | own program parsed accepted =>
        refine ⟨_, by rw [MessageInstruction.actions, if_pos program, parsed]; rfl, ?_⟩
        simp only [List.foldlM_cons, accepted, ok_bind]
        rfl
    | precompile program same =>
        have hnot : ix.programId ≠ hwalProgramId := program ▸ hdistinct
        refine ⟨[], by rw [MessageInstruction.actions, if_neg hnot, if_pos program], ?_⟩
        rw [same]
        rfl
    | other notOwn notPrecompile moved =>
        exact ⟨_, by rw [MessageInstruction.actions, if_neg notOwn, if_neg notPrecompile], moved⟩
  · rintro ⟨actions, hactions, hrun⟩
    unfold MessageInstruction.actions at hactions
    split at hactions
    case isTrue program =>
      rcases Option.map_eq_some_iff.mp hactions with ⟨call, parsed, rfl⟩
      simp only [List.foldlM_cons, List.foldlM_nil, bind_eq_ok_iff, pure_eq_ok_iff] at hrun
      rcases hrun with ⟨middle, accepted, rfl⟩
      exact .own program parsed accepted
    case isFalse notOwn =>
      split at hactions
      case isTrue program =>
        obtain rfl := Option.some.inj hactions
        exact .precompile program (Except.ok.inj hrun).symm
      case isFalse notPrecompile =>
        obtain rfl := Option.some.inj hactions
        exact .other notOwn notPrecompile hrun

theorem Transaction.executes_iff {rt : Runtime} {transaction : Transaction} {index : Nat}
    {instructions : List MessageInstruction} {w w' : World} :
    transaction.Executes rt index w instructions w' ↔
      ∃ actions, transaction.actionsFrom index instructions = some actions ∧
        actions.foldlM (attempt rt) w = .ok w' := by
  induction instructions generalizing index w with
  | nil =>
      constructor
      · intro h
        cases h
        exact ⟨[], rfl, rfl⟩
      · rintro ⟨actions, hactions, hrun⟩
        obtain rfl := Option.some.inj hactions
        obtain rfl := Except.ok.inj hrun
        exact .done
  | cons ix rest ih =>
      simp only [Transaction.actionsFrom, Option.bind_eq_bind, Option.bind_eq_some_iff,
        Option.pure_def, Option.some.injEq]
      constructor
      · intro h
        cases h with
        | next first others =>
            rcases MessageInstruction.executes_iff.mp first with ⟨before, hbefore, hmiddle⟩
            rcases ih.mp others with ⟨after, hafter, hrun⟩
            refine ⟨_, ⟨before, hbefore, after, hafter, rfl⟩, ?_⟩
            rw [List.foldlM_append, hmiddle, ok_bind, hrun]
      · rintro ⟨_, ⟨before, hbefore, after, hafter, rfl⟩, hrun⟩
        rw [List.foldlM_append, bind_eq_ok_iff] at hrun
        rcases hrun with ⟨middle, hmiddle, hrun⟩
        exact .next (MessageInstruction.executes_iff.mpr ⟨before, hbefore, hmiddle⟩)
          (ih.mpr ⟨after, hafter, hrun⟩)

theorem Transaction.commits_iff {rt : Runtime} {transaction : Transaction} {w w' : World} :
    transaction.Commits rt w w' ↔
      Transition.attemptBatch (attempt rt) (Transaction.actions rt) w transaction =
        some w' := by
  rw [Transition.attemptBatch_eq_some_iff, Transaction.actions]
  constructor
  · rintro ⟨hauthentic, hprecompiles, hexecutes⟩
    rw [if_pos ⟨hauthentic, hprecompiles⟩]
    exact Transaction.executes_iff.mp hexecutes
  · rintro ⟨actions, hactions, hrun⟩
    split at hactions
    case isTrue hpass =>
      exact ⟨hpass.1, hpass.2, Transaction.executes_iff.mpr ⟨actions, hactions, hrun⟩⟩
    case isFalse => contradiction

section Committed

variable {rt : Runtime} {transaction : Transaction} {w w' : World}

theorem transactionStep_of_commits (h : transaction.Commits rt w w') :
    transactionStep rt w transaction = w' := by
  have hstep : transactionStep rt w transaction = _ := Transition.commit_eq_getD w transaction
  rw [Transaction.commits_iff.mp h] at hstep
  exact hstep

theorem attemptBatch_of_not_commits (h : ∀ after, ¬ transaction.Commits rt w after) :
    Transition.attemptBatch (attempt rt) (Transaction.actions rt) w transaction = none := by
  apply Option.eq_none_iff_forall_not_mem.mpr
  intro after hafter
  exact h after (Transaction.commits_iff.mpr hafter)

theorem transactionStep_of_not_commits (h : ∀ after, ¬ transaction.Commits rt w after) :
    transactionStep rt w transaction = w := by
  have hstep : transactionStep rt w transaction = _ := Transition.commit_eq_getD w transaction
  rw [attemptBatch_of_not_commits h] at hstep
  exact hstep

theorem committedOf_append (rt : Runtime) (w : World) (earlier later : List Transaction) :
    committedOf rt w (earlier ++ later) =
      committedOf rt w earlier ++
        committedOf rt (Transition.run (transactionStep rt) w earlier) later :=
  Transition.committed_append w earlier later

theorem committedOf_cons_of_commits (h : transaction.Commits rt w w')
    (later : List Transaction) :
    committedOf rt w (transaction :: later) = transaction :: committedOf rt w' later :=
  Transition.committed_cons_of_some (Transaction.commits_iff.mp h)

theorem committedOf_cons_of_not_commits (h : ∀ after, ¬ transaction.Commits rt w after)
    (later : List Transaction) :
    committedOf rt w (transaction :: later) = committedOf rt w later :=
  Transition.committed_cons_of_none (attemptBatch_of_not_commits h)

end Committed

/-! ### The clock -/

theorem time_of_mem_actionsFrom {transaction : Transaction} {index : Nat}
    {instructions : List MessageInstruction} {actions : List Action}
    (h : transaction.actionsFrom index instructions = some actions) {action : Action}
    (hmem : action ∈ actions) {time : Int64} (htime : action.time = some time) :
    time = transaction.unixTimestamp := by
  induction instructions generalizing index actions with
  | nil =>
      obtain rfl := Option.some.inj h
      contradiction
  | cons ix rest ih =>
      simp only [Transaction.actionsFrom, Option.bind_eq_bind, Option.bind_eq_some_iff,
        Option.pure_def, Option.some.injEq] at h
      rcases h with ⟨first, hfirst, others, hothers, rfl⟩
      rcases List.mem_append.mp hmem with hmem | hmem
      · unfold MessageInstruction.actions at hfirst
        split at hfirst
        · rcases Option.map_eq_some_iff.mp hfirst with ⟨call, -, rfl⟩
          obtain rfl := List.mem_singleton.mp hmem
          exact (Option.some.inj htime).symm
        · split at hfirst
          · obtain rfl := Option.some.inj hfirst
            contradiction
          · obtain rfl := Option.some.inj hfirst
            rcases List.mem_map.mp hmem with ⟨move, -, rfl⟩
            contradiction
      · exact ih hothers hmem

theorem time_of_mem_actions {rt : Runtime} {transaction : Transaction} {action : Action}
    (hmem : action ∈ (transaction.actions rt).getD []) {time : Int64}
    (htime : action.time = some time) : time = transaction.unixTimestamp := by
  unfold Transaction.actions at hmem
  split at hmem
  · cases hactions : transaction.actionsFrom 0 transaction.instructions with
    | none =>
        rw [hactions] at hmem
        contradiction
    | some actions =>
        rw [hactions] at hmem
        exact time_of_mem_actionsFrom hactions hmem htime
  · contradiction

/-- Transactions in the order of their clocks make actions in the order of theirs. -/
theorem clockMonotone_actionsOf (rt : Runtime) {transactions : List Transaction}
    (h : transactions.Pairwise fun earlier later =>
      earlier.unixTimestamp.toInt ≤ later.unixTimestamp.toInt) :
    ClockMonotone (actionsOf rt transactions) := by
  rw [ClockMonotone, List.pairwise_filterMap, actionsOf, List.pairwise_flatMap]
  constructor
  · intro transaction _
    apply List.pairwise_of_forall_mem_list
    intro action haction action' haction' time htime time' htime'
    rw [time_of_mem_actions haction htime, time_of_mem_actions haction' htime']
  · apply h.imp
    intro earlier later hle action haction action' haction' time htime time' htime'
    rw [time_of_mem_actions haction htime, time_of_mem_actions haction' htime']
    exact hle

/-- Whatever transactions arrive, however they mix this program's instructions with those
of others, the world goes where the single-instruction machine goes on the actions of the
committed ones, each of them taking effect, and keeps the program's invariant.  Committed
are exactly the transactions whose instructions all take effect where they stand; any
other changes nothing, whatever came before its failing instruction.  The clock of the run
is no more out of order than the transactions'. -/
theorem transactions_refine (rt : Runtime) (w : World) (transactions : List Transaction) :
    Transition.run (transactionStep rt) w transactions =
        runFrom rt w (actionsOf rt (committedOf rt w transactions)) ∧
      (∀ m ∈ historyFrom rt w (actionsOf rt (committedOf rt w transactions)),
        Succeeded rt m) ∧
      (Invariant rt w → Invariant rt (Transition.run (transactionStep rt) w transactions)) ∧
      (∀ earlier transaction later, transactions = earlier ++ transaction :: later →
        let before := Transition.run (transactionStep rt) w earlier
        (∃ after, transaction.Commits rt before after ∧
            transactionStep rt before transaction = after ∧
            committedOf rt w transactions =
              committedOf rt w earlier ++ transaction :: committedOf rt after later) ∨
          ((∀ after, ¬ transaction.Commits rt before after) ∧
            transactionStep rt before transaction = before ∧
            committedOf rt w transactions =
              committedOf rt w earlier ++ committedOf rt before later)) ∧
      ((transactions.Pairwise fun earlier later =>
          earlier.unixTimestamp.toInt ≤ later.unixTimestamp.toInt) →
        ClockMonotone (actionsOf rt (committedOf rt w transactions))) := by
  have hrun : Transition.run (transactionStep rt) w transactions =
        runFrom rt w (actionsOf rt (committedOf rt w transactions)) ∧ _ :=
    Transition.run_commit (fun w action w' => @step_of_ok rt w w' action) w transactions
  refine ⟨hrun.1, hrun.2, ?_, ?_, ?_⟩
  · intro hinv
    rw [hrun.1]
    exact Transition.run_invariant (step rt) hinv (fun t action ht => step_invariant ht action) _
  · rintro earlier transaction later rfl
    intro before
    rw [committedOf_append]
    by_cases hcommits : ∃ after, transaction.Commits rt before after
    · rcases hcommits with ⟨after, hcommits⟩
      left
      exact ⟨after, hcommits, transactionStep_of_commits hcommits,
        by rw [committedOf_cons_of_commits hcommits]⟩
    · right
      have hnot : ∀ after, ¬ transaction.Commits rt before after := not_exists.mp hcommits
      exact ⟨hnot, transactionStep_of_not_commits hnot,
        by rw [committedOf_cons_of_not_commits hnot]⟩
  · intro hclock
    exact clockMonotone_actionsOf rt (hclock.sublist (Transition.committed_sublist w _))

/-- Two instructions of this program that both go through. -/
theorem transactionStep_of_both_ok {rt : Runtime} {w middle final : World}
    {transaction : Transaction} {first second : Action}
    (hactions : transaction.actions rt = some [first, second])
    (hfirst : attempt rt w first = .ok middle) (hsecond : attempt rt middle second = .ok final) :
    transactionStep rt w transaction = final := by
  apply Transition.commit_of_ok hactions
  simp only [List.foldlM_cons, List.foldlM_nil, hfirst, hsecond, ok_bind]
  rfl

/-- If either fails, neither has happened. -/
theorem transactionStep_of_not_both_ok {rt : Runtime} {w : World}
    {transaction : Transaction} {first second : Action}
    (hactions : transaction.actions rt = some [first, second])
    (hrefused : ∀ middle final, attempt rt w first = .ok middle →
      attempt rt middle second ≠ .ok final) :
    transactionStep rt w transaction = w := by
  have hall : ∃ error, [first, second].foldlM (attempt rt) w = .error error := by
    rcases ok_or_error (attempt rt w first) with ⟨middle, hfirst⟩ | ⟨error, hfirst⟩
    · rcases ok_or_error (attempt rt middle second) with ⟨final, hsecond⟩ | ⟨error, hsecond⟩
      · exact absurd hsecond (hrefused middle final hfirst)
      · exact ⟨error, by simp only [List.foldlM_cons, hfirst, hsecond, ok_bind, error_bind]⟩
    · exact ⟨error, by simp only [List.foldlM_cons, hfirst, error_bind]⟩
  rcases hall with ⟨error, herror⟩
  exact Transition.commit_of_error hactions herror

/-! ### A price and the tick that uses it -/

/-- A signed price message, the instruction that posts it and a tick on the feed, in one
transaction of the keeper's. -/
def postAndTick (accs : TickPosition) (entry : Ed25519.SignatureEntry)
    (payload : { data : List UInt8 // data.length < 256 ^ 4 }) (now : Int64) :
    Transaction where
  signers := [accs.keeper]
  writable := [accs.keeper, accs.config, accs.feed, accs.position, accs.owner,
    accs.feeReceiver]
  unixTimestamp := now
  instructions := [
    ⟨Ed25519.programId, [], Ed25519.newInstructionData entry, []⟩,
    ⟨hwalProgramId,
      Method.updatePriceFeedFromLazer.accounts.encode
        ⟨accs.keeper, accs.feed, instructionsSysvarId⟩,
      Method.updatePriceFeedFromLazer.data payload, []⟩,
    ⟨hwalProgramId, Method.tickPosition.accounts.encode accs, Method.tickPosition.data (), []⟩]

section PostAndTick

variable {rt : Runtime} {accs : TickPosition} {entry : Ed25519.SignatureEntry}
  {payload : { data : List UInt8 // data.length < 256 ^ 4 }} {now : Int64}

theorem authentic_postAndTick (hkeeper : rt.canSign accs.keeper = true) (index : Nat) :
    ((postAndTick accs entry payload now).tx index).authentic rt = true := by
  simp [Tx.authentic, Transaction.tx, postAndTick, hkeeper]

theorem precompilesPass_postAndTick (hentry : ValidEntry rt entry) (index : Nat) :
    ((postAndTick accs entry payload now).tx index).precompilesPass rt = true := by
  have hverify (datas : List (List UInt8)) : Ed25519.verify rt.ed25519Verify
      (Ed25519.newInstructionData entry) datas = true := by
    have h : Ed25519.verify rt.ed25519Verify (Ed25519.newInstructionData entry ++ []) datas =
        rt.ed25519Verify entry.publicKey entry.signature entry.message :=
      Ed25519.verify_newInstructionData hentry.publicKey hentry.signature hentry.message []
        datas
    rw [List.append_nil] at h
    rw [h, hentry.verifies]
  have hother : hwalProgramId ≠ Ed25519.programId := by decide
  simp [Tx.precompilesPass, Transaction.tx, postAndTick, hverify, hother]

theorem actions_postAndTick (hkeeper : rt.canSign accs.keeper = true)
    (hentry : ValidEntry rt entry) :
    (postAndTick accs entry payload now).actions rt =
      some [.invoke ((postAndTick accs entry payload now).tx 1)
          (.updatePriceFeedFromLazer ⟨accs.keeper, accs.feed, instructionsSysvarId⟩
            payload.val),
        .invoke ((postAndTick accs entry payload now).tx 2) (.tickPosition accs)] := by
  have hother : Ed25519.programId ≠ hwalProgramId := by decide
  have hpost := parseInstruction_sent .updatePriceFeedFromLazer
    ⟨accs.keeper, accs.feed, instructionsSysvarId⟩ payload
  have htick := parseInstruction_sent .tickPosition accs ()
  rw [Transaction.actions, if_pos ⟨authentic_postAndTick hkeeper 0,
    precompilesPass_postAndTick hentry 0⟩]
  simp [postAndTick, Transaction.actionsFrom, MessageInstruction.actions, hother, hpost, htick,
    Method.instruction]

end PostAndTick

/-- The accounts a client names to tick a position. -/
def tickAccountsFor (rt : Runtime) (keeper key : Pubkey) (config : Config)
    (position : Position) : TickPosition :=
  ⟨keeper, rt.configAddress, position.feed, key, position.owner, config.feeReceiver⟩

section Composed

variable {rt : Runtime} {w : World} {keeper key : Pubkey} {config : Config}
  {feed : PriceFeed} {position : Position} {entry : Ed25519.SignatureEntry}
  {payload : { data : List UInt8 // data.length < 256 ^ 4 }} {now : Int64}

/-- Posting a price leaves a tick everything it needs. -/
theorem tickAccounts_after_post {posted : World} {message : LazerMessage}
    (hinv : Invariant rt posted) (hconfig : w.configs rt.configAddress = some config)
    (hposition : w.positions key = some position)
    (hpost : FeedVerified w
      ((postAndTick (tickAccountsFor rt keeper key config position) entry payload now).tx 1)
      ⟨keeper, position.feed, instructionsSysvarId⟩ payload.val feed message posted) :
    TickAccounts (tickAccountsFor rt keeper key config position) rt posted
      ((postAndTick (tickAccountsFor rt keeper key config position) entry payload now).tx 2)
      config (feed.record message.price now) position := by
  have hloaded : posted.positions key = some position := by rw [hpost.positions, hposition]
  have hconfig' : posted.configs rt.configAddress = some config := by
    rw [hpost.configs, hconfig]
  have hfeed : posted.feeds position.feed = some (feed.record message.price now) := by
    rw [hpost.feeds, Function.update_self]
    rfl
  apply (hinv.positions _ _ hloaded).tickAccounts hinv hloaded hconfig' hfeed
  · exact List.mem_singleton.mpr rfl
  · simp [Transaction.tx, postAndTick, tickAccountsFor]

theorem tickPrice_after_post {message : LazerMessage} (hprice : 0 < message.price)
    (hopen : position.status = statusOpen) :
    tickPrice position (feed.record message.price now) now = .ok message.price := by
  apply tickPrice_eq_ok_iff.mpr
  refine ⟨hopen, hprice, ?_, rfl⟩
  change now.toInt - now.toInt ≤ 120
  omega

/-- What a posting that took effect leaves. -/
theorem posted_of_ok {tx : Tx} {accs : UpdatePriceFeedFromLazer} {data : List UInt8}
    {posted : World} (hreach : ReachableWithSupply rt w) (hfeed : w.feeds accs.feed = some feed)
    (hok : attempt rt w (.invoke tx (.updatePriceFeedFromLazer accs data)) = .ok posted) :
    ReachableWithSupply rt posted ∧
      ∃ message, FeedVerified w tx accs data feed message posted := by
  have hposted := hreach.step (.invoke tx (.updatePriceFeedFromLazer accs data))
  rw [step_of_ok hok] at hposted
  rcases feedVerified_of_ok (attempt_invoke_eq_ok_iff.mp hok).2.2 with
    ⟨loaded, message, hverified⟩
  obtain rfl := Option.some.inj (hfeed.symm.trans hverified.loaded)
  exact ⟨hposted, message, hverified⟩

/-- The tick after a good message goes through and moves the position by its price. -/
theorem ticked_after_post {posted : World} {message : LazerMessage}
    (hposted : ReachableWithSupply rt posted) (hkeeper : rt.canSign keeper = true)
    (hentry : ValidEntry rt entry) (hconfig : w.configs rt.configAddress = some config)
    (hposition : w.positions key = some position)
    (hpost : FeedVerified w
      ((postAndTick (tickAccountsFor rt keeper key config position) entry payload now).tx 1)
      ⟨keeper, position.feed, instructionsSysvarId⟩ payload.val feed message posted)
    (hopen : position.status = statusOpen) (hfits : ¬ position.ThresholdOverflows message.price) :
    ∃ final, attempt rt posted (.invoke
        ((postAndTick (tickAccountsFor rt keeper key config position) entry payload now).tx 2)
        (.tickPosition (tickAccountsFor rt keeper key config position))) = .ok final ∧
      Rewritten posted key (position.ticked message.price now) final := by
  have hinv := reachable_invariant hposted.reachable
  have haccs := tickAccounts_after_post hinv hconfig hposition hpost
  have hprice : tickPrice position (feed.record message.price now) now = .ok message.price :=
    tickPrice_after_post hpost.accepted.price_pos hopen
  rcases exists_tickPosition haccs hprice hinv (reachable_supply hposted) hfits with
    ⟨final, hok⟩
  refine ⟨final, attempt_invoke_eq_ok_iff.mpr ⟨?_, ?_, hok⟩, rewritten_of_tick haccs hok⟩
  · apply authentic_postAndTick
    exact hkeeper
  · exact precompilesPass_postAndTick hentry 2

/-- A tick after the posting found the position open and its threshold in range. -/
theorem fits_of_ticked {posted final : World} {message : LazerMessage}
    (hposted : ReachableWithSupply rt posted)
    (hconfig : w.configs rt.configAddress = some config)
    (hposition : w.positions key = some position)
    (hpost : FeedVerified w
      ((postAndTick (tickAccountsFor rt keeper key config position) entry payload now).tx 1)
      ⟨keeper, position.feed, instructionsSysvarId⟩ payload.val feed message posted)
    (htick : attempt rt posted (.invoke
        ((postAndTick (tickAccountsFor rt keeper key config position) entry payload now).tx 2)
        (.tickPosition (tickAccountsFor rt keeper key config position))) = .ok final) :
    position.status = statusOpen ∧ ¬ position.ThresholdOverflows message.price := by
  have hinv := reachable_invariant hposted.reachable
  have haccs := tickAccounts_after_post hinv hconfig hposition hpost
  rcases tick_written_of_ok (attempt_invoke_eq_ok_iff.mp htick).2.2 with
    ⟨_, _, _, hevaluated, -⟩
  rcases haccs.unique hevaluated.accounts with ⟨rfl, rfl, rfl⟩
  have hsound := (hinv.positions _ _ haccs.position_loaded).shape
  refine ⟨(tickPrice_eq_ok_iff.mp hevaluated.guards).1, ?_⟩
  intro hover
  exact hevaluated.threshold ((observe_stuck_iff hsound hevaluated.price_pos now).mpr hover)

/-- A keeper who posts a signed price and ticks in one transaction: where the message is
good for the feed, the position open and its threshold in range, the position moves by
exactly the posted price, however old the feed's last one was; and where any of this fails
nothing at all happens, the posting included. -/
theorem postAndTick_outcome (hreach : ReachableWithSupply rt w)
    (hkeeper : rt.canSign keeper = true) (hentry : ValidEntry rt entry)
    (hconfig : w.configs rt.configAddress = some config)
    (hposition : w.positions key = some position)
    (hfeed : w.feeds position.feed = some feed) :
    let accs := tickAccountsFor rt keeper key config position
    let transaction := postAndTick accs entry payload now
    let w' := transactionStep rt w transaction
    (∀ message, LazerAccepted feed (transaction.tx 1) payload.val message →
      position.status = statusOpen → ¬ position.ThresholdOverflows message.price →
      w'.positions key = some (position.ticked message.price now) ∧
        w'.feeds position.feed = some (feed.record message.price now)) ∧
    ((∀ message, LazerAccepted feed (transaction.tx 1) payload.val message →
      position.status = statusOpen → position.ThresholdOverflows message.price) →
      w' = w) := by
  intro accs transaction w'
  have hactions : transaction.actions rt =
      some [.invoke (transaction.tx 1)
          (.updatePriceFeedFromLazer ⟨keeper, position.feed, instructionsSysvarId⟩ payload.val),
        .invoke (transaction.tx 2) (.tickPosition accs)] :=
    actions_postAndTick hkeeper hentry
  constructor
  · intro message hlazer hopen hfits
    have hguards : LazerGuards rt w (transaction.tx 1)
        ⟨keeper, position.feed, instructionsSysvarId⟩ payload.val feed message :=
      ⟨authentic_postAndTick hkeeper 1, precompilesPass_postAndTick hentry 1,
        List.mem_singleton.mpr rfl, hfeed,
        by simp [transaction, Transaction.tx, postAndTick, accs, tickAccountsFor], rfl, hlazer⟩
    rcases hguards.posts with ⟨posted, hpost, -⟩
    rcases posted_of_ok hreach hfeed hpost with ⟨hposted, decoded, hverified⟩
    obtain rfl := Except.ok.inj (hlazer.decoded.symm.trans hverified.accepted.decoded)
    rcases ticked_after_post hposted hkeeper hentry hconfig hposition hverified hopen hfits with
      ⟨final, htick, hrewritten⟩
    have hfinal : w' = final := transactionStep_of_both_ok hactions hpost htick
    rw [hfinal, hrewritten.positions, hrewritten.feeds, hverified.feeds]
    exact ⟨Function.update_self .., Function.update_self ..⟩
  · intro hrefused
    apply transactionStep_of_not_both_ok hactions
    intro posted final hpost htick
    rcases posted_of_ok hreach hfeed hpost with ⟨hposted, message, hverified⟩
    rcases fits_of_ticked hposted hconfig hposition hverified htick with ⟨hopen, hfits⟩
    exact hfits (hrefused message hverified.accepted hopen)

end Composed

section Posted

open Localnet

/-- The publisher's message and the keeper's tick: the position moves by the message. -/
theorem postAndTick_outcome_recent :
    ∃ config record,
      let w := runFrom cluster (World.genesis funds) (launch ++ [deposit])
      let accs := tickAccountsFor cluster keeper Localnet.position config record
      let transaction := postAndTick accs recentEntry ⟨recentEntry.message, by decide⟩ 1010
      w.positions Localnet.position = some record ∧
        (transactionStep cluster w transaction).positions Localnet.position =
          some (record.ticked 99000000 1010) := by
  have hreach : ReachableWithSupply cluster
      (runFrom cluster (World.genesis funds) (launch ++ [deposit])) :=
    ⟨funds, _, funds_supply, rfl⟩
  have hkeeper : cluster.canSign keeper = true := by decide
  have hrecordFields : ((runFrom cluster (World.genesis funds) (launch ++ [deposit])).positions
      Localnet.position).map (fun p => (p.feed, p.status, p.side)) =
        some (Localnet.feed, statusOpen, sideLong) := by decide +kernel
  have hfeedFields : ((runFrom cluster (World.genesis funds) (launch ++ [deposit])).feeds
      Localnet.feed).map (fun f => (f.source, f.lazerFeedId, f.lazerChannel)) =
        some (feedSourceLazer, 6, 1) := by decide +kernel
  rcases Option.map_eq_some_iff.mp hrecordFields with ⟨record, hrecord, hvalues⟩
  rcases Option.map_eq_some_iff.mp hfeedFields with ⟨feed, hfeed, hregistered⟩
  simp only [Prod.mk.injEq] at hvalues hregistered
  rcases (reachable_invariant hreach.reachable).positions _ _ hrecord with
    ⟨-, -, -, -, -, config, hconfig⟩
  rw [← hvalues.1] at hfeed
  have hlong : ¬ record.ThresholdOverflows 99000000 := by
    rintro ⟨hshort, -⟩
    rw [hvalues.2.2] at hshort
    exact absurd hshort (by decide)
  have hlazer : LazerAccepted feed ((postAndTick (tickAccountsFor cluster keeper
      Localnet.position config record) recentEntry ⟨recentEntry.message, by decide⟩ 1010).tx 1)
      recentEntry.message ⟨6, 1008, 99000000, 1⟩ := by
    have hcarried : recentEntry.message <:+: Ed25519.newInstructionData recentEntry :=
      (List.suffix_append _ _).isInfix
    have hpast : (1008 : Int64).toInt ≤ (1010 : Int64).toInt := by decide
    have hrecent : (1010 : Int64).toInt - (1008 : Int64).toInt ≤ 5 := by decide
    exact ⟨hregistered.1, decodeLazerPayload_encode _ [], by decide, hregistered.2.1,
      hregistered.2.2, hpast, hrecent, Nat.one_pos, _, rfl, rfl, hcarried⟩
  refine ⟨config, record, hrecord, ?_⟩
  exact ((postAndTick_outcome hreach hkeeper recentEntry_valid hconfig hrecord hfeed).1
    _ hlazer hvalues.2.1 hlong).1

end Posted

end Hwal
