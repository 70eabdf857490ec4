/-
The counters of the config against the positions: every position account has one
entry in a book, evidenced by the history, and the counters are the saturated
totals of the book, whatever the rates were at each settlement.
-/
import Hwal.Lifecycle
import Hwal.Support.Tally

namespace Hwal

open Guard

/-- What became of one deposit. -/
inductive DepositEntry where
  | held (deposit : Nat)
  | triggered (deposit feeBps keeperRewardBps : Nat)
  | cancelled (deposit : Nat)
deriving DecidableEq, Repr

namespace DepositEntry

def deposit : DepositEntry → Nat
  | .held deposit => deposit
  | .triggered deposit _ _ => deposit
  | .cancelled deposit => deposit

def collateral : DepositEntry → Nat
  | .held deposit => deposit
  | _ => 0

def fee : DepositEntry → Nat
  | .triggered deposit feeBps _ => deposit * feeBps / 10000
  | _ => 0

def keeperReward : DepositEntry → Nat
  | .triggered deposit _ keeperRewardBps => deposit * keeperRewardBps / 10000
  | _ => 0

def netToOwner : DepositEntry → Nat
  | .triggered deposit feeBps keeperRewardBps =>
      deposit - deposit * feeBps / 10000 - deposit * keeperRewardBps / 10000
  | _ => 0

def refund : DepositEntry → Nat
  | .cancelled deposit => deposit
  | _ => 0

def isTriggered : DepositEntry → Bool
  | .triggered _ _ _ => true
  | _ => false

def isCancelled : DepositEntry → Bool
  | .cancelled _ => true
  | _ => false

end DepositEntry

/-- A tick that settled the position at `key`, under the rates then in force. -/
def SettlesAt (rt : Runtime) (key : Pubkey) (deposit feeBps keeperRewardBps : Nat)
    (m : Moment) : Prop :=
  ∃ tx accs config feed position payout, m.action = .invoke tx (.tickPosition accs) ∧
    accs.position = key ∧ PositionSettled rt m.before tx accs config feed position payout m.after ∧
    position.collateral.toNat = deposit ∧ config.feeBps.toNat = feeBps ∧
    config.keeperRewardBps.toNat = keeperRewardBps

/-- A cancellation that refunded the position at `key`. -/
def RefundsAt (rt : Runtime) (key : Pubkey) (deposit : Nat) (m : Moment) : Prop :=
  ∃ tx accs config position, m.action = .invoke tx (.cancelPosition accs) ∧
    accs.position = key ∧ PositionCancelled rt m.before tx accs config position m.after ∧
    position.collateral.toNat = deposit

/-- The entry of a position account, with the moments of the history it stands for. -/
inductive Booked (rt : Runtime) (key : Pubkey) (history : List Moment) :
    Option DepositEntry → Option Position → Prop where
  | absent : Booked rt key history none none
  | held {position} (isOpen : position.status = statusOpen)
      (deposited : ∃ m ∈ history, OpensAt rt key position.collateral.toNat m) :
      Booked rt key history (some (.held position.collateral.toNat)) (some position)
  | triggered {position deposit feeBps keeperRewardBps}
      (closed : position.status = statusTriggered)
      (deposited : ∃ m ∈ history, OpensAt rt key deposit m)
      (settled : ∃ m ∈ history, SettlesAt rt key deposit feeBps keeperRewardBps m) :
      Booked rt key history (some (.triggered deposit feeBps keeperRewardBps)) (some position)
  | cancelled {position deposit} (closed : position.status = statusCancelled)
      (deposited : ∃ m ∈ history, OpensAt rt key deposit m)
      (refunded : ∃ m ∈ history, RefundsAt rt key deposit m) :
      Booked rt key history (some (.cancelled deposit)) (some position)

section Entry

variable {rt : Runtime} {key : Pubkey} {history : List Moment} {position : Position}
  {entry : DepositEntry}

theorem Booked.extend {entry : Option DepositEntry} {record : Option Position}
    (h : Booked rt key history entry record) (m : Moment) :
    Booked rt key (history ++ [m]) entry record := by
  cases h with
  | absent => exact .absent
  | held isOpen deposited => exact .held isOpen (exists_mem_snoc deposited m)
  | triggered closed deposited settled =>
      exact .triggered closed (exists_mem_snoc deposited m) (exists_mem_snoc settled m)
  | cancelled closed deposited refunded =>
      exact .cancelled closed (exists_mem_snoc deposited m) (exists_mem_snoc refunded m)

/-- Changes outside status and collateral do not concern the book. -/
theorem Booked.rewrite {entry : Option DepositEntry} {position' : Position}
    (h : Booked rt key history entry (some position))
    (hstatus : position'.status = position.status)
    (hcollateral : position'.collateral = position.collateral) :
    Booked rt key history entry (some position') := by
  cases h with
  | held isOpen deposited =>
      rw [← hcollateral] at deposited ⊢
      exact .held (hstatus.trans isOpen) deposited
  | triggered closed deposited settled =>
      exact .triggered (hstatus.trans closed) deposited settled
  | cancelled closed deposited refunded =>
      exact .cancelled (hstatus.trans closed) deposited refunded

/-- An open position is booked as held. -/
theorem Booked.of_open {entry : Option DepositEntry}
    (h : Booked rt key history entry (some position)) (hopen : position.status = statusOpen) :
    entry = some (.held position.collateral.toNat) ∧
      ∃ m ∈ history, OpensAt rt key position.collateral.toNat m := by
  cases h with
  | held isOpen deposited => exact ⟨rfl, deposited⟩
  | triggered closed =>
      rw [hopen] at closed
      exact absurd closed (by decide)
  | cancelled closed =>
      rw [hopen] at closed
      exact absurd closed (by decide)

/-- The amounts of a triggered entry are those paid at its settlement. -/
theorem SettlesAt.paid {deposit feeBps keeperRewardBps : Nat} {m : Moment}
    (h : SettlesAt rt key deposit feeBps keeperRewardBps m) :
    ∃ accs payout, accs.position = key ∧
      Ledger.Moved (settlementTransfers accs payout) m.before.lamports m.after.lamports ∧
      payout.fee.toNat = (DepositEntry.triggered deposit feeBps keeperRewardBps).fee ∧
      payout.keeperReward.toNat =
        (DepositEntry.triggered deposit feeBps keeperRewardBps).keeperReward ∧
      payout.netToOwner.toNat =
        (DepositEntry.triggered deposit feeBps keeperRewardBps).netToOwner ∧
      payout.fee.toNat + payout.keeperReward.toNat + payout.netToOwner.toNat = deposit := by
  rcases h with ⟨tx, accs, config, feed, before, payout, -, hkey, heff, rfl, rfl, rfl⟩
  have hfee := heff.payout_of.fee
  have hreward := heff.payout_of.keeperReward
  have htotal := heff.payout_of.total
  refine ⟨accs, payout, hkey, heff.paid, hfee, hreward, ?_, htotal⟩
  rw [DepositEntry.netToOwner]
  omega

/-- The parts of an entry add up to its deposit. -/
theorem Booked.deposit_eq {record : Option Position}
    (h : Booked rt key history (some entry) record) :
    entry.deposit = entry.collateral + entry.fee + entry.keeperReward + entry.netToOwner +
      entry.refund := by
  cases h with
  | held => simp [DepositEntry.deposit, DepositEntry.collateral, DepositEntry.fee,
      DepositEntry.keeperReward, DepositEntry.netToOwner, DepositEntry.refund]
  | cancelled => simp [DepositEntry.deposit, DepositEntry.collateral, DepositEntry.fee,
      DepositEntry.keeperReward, DepositEntry.netToOwner, DepositEntry.refund]
  | triggered closed deposited settled =>
      rcases settled with ⟨m, -, hsettles⟩
      rcases hsettles.paid with ⟨accs, payout, -, -, hfee, hreward, hnet, htotal⟩
      rw [← hfee, ← hreward, ← hnet]
      simp only [DepositEntry.deposit, DepositEntry.collateral, DepositEntry.refund]
      omega

end Entry

/-! ### The counters -/

/-- The saturated totals of a book. -/
structure CountersMatch (config : Config) (keys : Finset Pubkey)
    (book : Pubkey → Option DepositEntry) : Prop where
  opened : config.totalPositionsOpened.toNat =
    min (Tally.total keys (fun _ => 1) book) (2 ^ 64 - 1)
  triggered : config.totalPositionsTriggered.toNat =
    min (Tally.total keys (fun e => if e.isTriggered = true then 1 else 0) book) (2 ^ 64 - 1)
  cancelled : config.totalPositionsCancelled.toNat =
    min (Tally.total keys (fun e => if e.isCancelled = true then 1 else 0) book) (2 ^ 64 - 1)
  fees : config.totalFeesCollected.toNat =
    min (Tally.total keys DepositEntry.fee book) (2 ^ 64 - 1)
  rewards : config.totalKeeperRewardsPaid.toNat =
    min (Tally.total keys DepositEntry.keeperReward book) (2 ^ 64 - 1)

/-- A saturating counter follows a total that grows by the same amount. -/
theorem saturated_add {counter amount : UInt64} {before after : Nat}
    (h : counter.toNat = min before (2 ^ 64 - 1)) (hgrow : after = before + amount.toNat) :
    (counter.saturatingAdd amount).toNat = min after (2 ^ 64 - 1) := by
  rw [UInt64.toNat_saturatingAdd, h, hgrow]
  exact min_add_min_cap before amount.toNat _

section Counters

variable {config : Config} {keys : Finset Pubkey} {book : Pubkey → Option DepositEntry}
  {key : Pubkey}

theorem CountersMatch.opened_entry (h : CountersMatch config keys book) (hnew : key ∉ keys)
    (deposit : Nat) :
    CountersMatch config.countOpened (insert key keys)
      (Function.update book key (some (.held deposit))) := by
  constructor
  case opened => exact saturated_add h.opened (Tally.total_insert hnew _)
  case triggered => rw [Tally.total_insert hnew]; exact h.triggered
  case cancelled => rw [Tally.total_insert hnew]; exact h.cancelled
  case fees => rw [Tally.total_insert hnew]; exact h.fees
  case rewards => rw [Tally.total_insert hnew]; exact h.rewards

/-- What rewriting a held entry adds to a total it did not count towards. -/
theorem total_close {amount : DepositEntry → Nat} {deposit : Nat} (hkey : key ∈ keys)
    (hheld : book key = some (.held deposit)) (hzero : amount (.held deposit) = 0)
    (entry : DepositEntry) :
    Tally.total keys amount (Function.update book key (some entry)) =
      Tally.total keys amount book + amount entry := by
  have hupdate : Tally.total keys amount (Function.update book key (some entry)) +
      amount (.held deposit) = Tally.total keys amount book + amount entry :=
    Tally.total_update hkey hheld entry
  rw [hzero] at hupdate
  exact hupdate

theorem total_ones_update {deposit : Nat} (hkey : key ∈ keys)
    (hheld : book key = some (.held deposit)) (entry : DepositEntry) :
    Tally.total keys (fun _ => 1) (Function.update book key (some entry)) =
      Tally.total keys (fun _ => 1) book :=
  Nat.add_right_cancel (Tally.total_update hkey hheld entry)

theorem CountersMatch.triggered_entry (h : CountersMatch config keys book)
    (hkey : key ∈ keys) {collateral : UInt64} {payout : Payout}
    (hheld : book key = some (.held collateral.toNat))
    (hpayout : PayoutOf config collateral payout) :
    CountersMatch (config.countTriggered payout) keys (Function.update book key
      (some (.triggered collateral.toNat config.feeBps.toNat
        config.keeperRewardBps.toNat))) := by
  constructor
  case opened => rw [total_ones_update hkey hheld]; exact h.opened
  case triggered => exact saturated_add h.triggered (total_close hkey hheld rfl _)
  case cancelled => rw [total_close hkey hheld rfl]; exact h.cancelled
  case fees =>
    apply saturated_add h.fees
    rw [total_close hkey hheld rfl, hpayout.fee]
    rfl
  case rewards =>
    apply saturated_add h.rewards
    rw [total_close hkey hheld rfl, hpayout.keeperReward]
    rfl

theorem CountersMatch.cancelled_entry (h : CountersMatch config keys book)
    (hkey : key ∈ keys) {deposit : Nat} (hheld : book key = some (.held deposit)) :
    CountersMatch config.countCancelled keys
      (Function.update book key (some (.cancelled deposit))) := by
  constructor
  case opened => rw [total_ones_update hkey hheld]; exact h.opened
  case triggered => rw [total_close hkey hheld rfl]; exact h.triggered
  case cancelled => exact saturated_add h.cancelled (total_close hkey hheld rfl _)
  case fees => rw [total_close hkey hheld rfl]; exact h.fees
  case rewards => rw [total_close hkey hheld rfl]; exact h.rewards

/-- The counters are a matter of the five fields alone. -/
theorem CountersMatch.of_sameCounters {config' : Config} (h : CountersMatch config keys book)
    (hopened : config'.totalPositionsOpened = config.totalPositionsOpened)
    (htriggered : config'.totalPositionsTriggered = config.totalPositionsTriggered)
    (hcancelled : config'.totalPositionsCancelled = config.totalPositionsCancelled)
    (hfees : config'.totalFeesCollected = config.totalFeesCollected)
    (hrewards : config'.totalKeeperRewardsPaid = config.totalKeeperRewardsPaid) :
    CountersMatch config' keys book := by
  constructor
  case opened => rw [hopened]; exact h.opened
  case triggered => rw [htriggered]; exact h.triggered
  case cancelled => rw [hcancelled]; exact h.cancelled
  case fees => rw [hfees]; exact h.fees
  case rewards => rw [hrewards]; exact h.rewards

end Counters

/-! ### The book of a run -/

/-- A book of the world: its keys are the existing position accounts, every entry is
evidenced by the history, and the config counts what the book totals. -/
structure Reconciled (rt : Runtime) (history : List Moment) (w : World)
    (keys : Finset Pubkey) (book : Pubkey → Option DepositEntry) : Prop where
  existing : ∀ key, key ∈ keys ↔ ∃ position, w.positions key = some position
  booked : ∀ key, Booked rt key history (book key) (w.positions key)
  counters : ∀ config, w.configs rt.configAddress = some config →
    CountersMatch config keys book

theorem genesis_reconciled (rt : Runtime) (lamports : Lamports) :
    Reconciled rt [] (World.genesis lamports) ∅ (fun _ => none) := by
  constructor
  case existing => simp
  case booked => exact fun _ => .absent
  case counters => simp

section Step

variable {rt : Runtime} {w w' : World} {history : List Moment} {keys : Finset Pubkey}
  {book : Pubkey → Option DepositEntry}

/-- A step that leaves the positions alone and the counters as they are. -/
theorem Reconciled.kept (h : Reconciled rt history w keys book) (m : Moment)
    (hpositions : w'.positions = w.positions)
    (hcounters : ∀ config, w'.configs rt.configAddress = some config →
      CountersMatch config keys book) : Reconciled rt (history ++ [m]) w' keys book := by
  constructor
  case existing => rw [hpositions]; exact h.existing
  case booked =>
    intro key
    rw [hpositions]
    exact (h.booked key).extend m
  case counters => exact hcounters

/-- A step that rewrites one position outside status and collateral. -/
theorem Reconciled.rewritten (h : Reconciled rt history w keys book) (m : Moment)
    {key : Pubkey} {position position' : Position} (hloaded : w.positions key = some position)
    (hpositions : w'.positions = Function.update w.positions key (some position'))
    (hconfigs : w'.configs = w.configs) (hstatus : position'.status = position.status)
    (hcollateral : position'.collateral = position.collateral) :
    Reconciled rt (history ++ [m]) w' keys book := by
  constructor
  case existing =>
    intro k
    rw [hpositions, h.existing k]
    by_cases hk : k = key
    · subst hk
      rw [Function.update_self, hloaded]
      exact ⟨fun _ => ⟨_, rfl⟩, fun _ => ⟨_, rfl⟩⟩
    · rw [Function.update_of_ne hk]
  case booked =>
    intro k
    have hold := (h.booked k).extend m
    rw [hpositions]
    by_cases hk : k = key
    · subst hk
      rw [hloaded] at hold
      rw [Function.update_self]
      exact hold.rewrite hstatus hcollateral
    · rw [Function.update_of_ne hk]
      exact hold
  case counters => rw [hconfigs]; exact h.counters

/-- One account is booked anew, the others as before. -/
theorem Reconciled.booked_update (h : Reconciled rt history w keys book) (m : Moment)
    {key : Pubkey} {position' : Position} {entry : DepositEntry}
    (hpositions : w'.positions = Function.update w.positions key (some position'))
    (hbooked : Booked rt key (history ++ [m]) (some entry) (some position')) (k : Pubkey) :
    Booked rt k (history ++ [m]) (Function.update book key (some entry) k)
      (w'.positions k) := by
  rw [hpositions]
  by_cases hk : k = key
  · subst hk
    rw [Function.update_self, Function.update_self]
    exact hbooked
  · rw [Function.update_of_ne hk, Function.update_of_ne hk]
    exact (h.booked k).extend m

/-- A step that closes one held position. -/
theorem Reconciled.closed (h : Reconciled rt history w keys book) (m : Moment)
    {key : Pubkey} {position' : Position} {entry : DepositEntry} (hkey : key ∈ keys)
    (hpositions : w'.positions = Function.update w.positions key (some position'))
    (hbooked : Booked rt key (history ++ [m]) (some entry) (some position'))
    (hcounters : ∀ config, w'.configs rt.configAddress = some config →
      CountersMatch config keys (Function.update book key (some entry))) :
    Reconciled rt (history ++ [m]) w' keys (Function.update book key (some entry)) := by
  constructor
  case existing =>
    intro k
    rw [hpositions, h.existing k]
    by_cases hk : k = key
    · subst hk
      have hold := (h.existing k).mp hkey
      rw [Function.update_self]
      exact ⟨fun _ => ⟨_, rfl⟩, fun _ => hold⟩
    · rw [Function.update_of_ne hk]
  case booked => exact h.booked_update m hpositions hbooked
  case counters => exact hcounters

/-- A step that opens a position. -/
theorem Reconciled.opened (h : Reconciled rt history w keys book) (m : Moment)
    {key : Pubkey} {position' : Position} {entry : DepositEntry}
    (hunused : w.positions key = none)
    (hpositions : w'.positions = Function.update w.positions key (some position'))
    (hbooked : Booked rt key (history ++ [m]) (some entry) (some position'))
    (hcounters : ∀ config, w'.configs rt.configAddress = some config →
      CountersMatch config (insert key keys) (Function.update book key (some entry))) :
    Reconciled rt (history ++ [m]) w' (insert key keys)
      (Function.update book key (some entry)) := by
  constructor
  case existing =>
    intro k
    rw [hpositions, Finset.mem_insert, h.existing k]
    by_cases hk : k = key
    · subst hk
      rw [Function.update_self]
      exact ⟨fun _ => ⟨_, rfl⟩, fun _ => Or.inl rfl⟩
    · rw [Function.update_of_ne hk]
      exact ⟨fun hor => hor.resolve_left hk, Or.inr⟩
  case booked => exact h.booked_update m hpositions hbooked
  case counters => exact hcounters

/-- Without a config there are no positions, so a new one starts from an empty book. -/
theorem Reconciled.keys_empty (h : Reconciled rt history w keys book) (hinv : Invariant rt w)
    (hnone : w.configs rt.configAddress = none) : keys = ∅ := by
  rw [Finset.eq_empty_iff_forall_notMem]
  intro key hkey
  rcases (h.existing key).mp hkey with ⟨position, hposition⟩
  rcases (hinv.positions key position hposition).config with ⟨config, hconfig⟩
  rw [hnone] at hconfig
  contradiction

theorem countersMatch_empty (accs : InitializeConfig) (feeBps keeperRewardBps : UInt16)
    (bump : UInt8) :
    CountersMatch (newConfig accs feeBps keeperRewardBps bump) ∅ book := by
  constructor <;> rfl

/-- The counters after a step that rewrites the config it was given. -/
theorem Reconciled.recount (h : Reconciled rt history w keys book) (hinv : Invariant rt w)
    {key : Pubkey} {config config' : Config} (hloaded : w.configs key = some config)
    (hconfigs : w'.configs = Function.update w.configs key (some config'))
    {keys' : Finset Pubkey} {book' : Pubkey → Option DepositEntry}
    (hcount : CountersMatch config keys book → CountersMatch config' keys' book')
    (counted : Config) (hcounted : w'.configs rt.configAddress = some counted) :
    CountersMatch counted keys' book' := by
  have haddress := (hinv.configs _ _ hloaded).address
  subst haddress
  rw [hconfigs, Function.update_self] at hcounted
  rw [← Option.some.inj hcounted]
  exact hcount (h.counters config hloaded)

/-- An open position is one of the keys, with its deposit in the book. -/
theorem Reconciled.held (h : Reconciled rt history w keys book) {key : Pubkey}
    {position : Position} (hrecord : w.positions key = some position)
    (hopen : position.status = statusOpen) :
    key ∈ keys ∧ book key = some (.held position.collateral.toNat) ∧
      ∃ m ∈ history, OpensAt rt key position.collateral.toNat m := by
  have hbooked := h.booked key
  rw [hrecord] at hbooked
  exact ⟨(h.existing key).mpr ⟨position, hrecord⟩, hbooked.of_open hopen⟩

/-- One successful step, whatever it does, keeps the book. -/
theorem Reconciled.step (h : Reconciled rt history w keys book) (hinv : Invariant rt w)
    {action : Action} (hok : attempt rt w action = .ok w') :
    ∃ keys' book', Reconciled rt (history ++ [⟨w, action, w'⟩]) w' keys' book' := by
  have hmoment : Succeeded rt ⟨w, action, w'⟩ := hok
  have hsame (hpositions : w'.positions = w.positions) (hconfigs : w'.configs = w.configs) :
      ∃ keys' book', Reconciled rt (history ++ [⟨w, action, w'⟩]) w' keys' book' :=
    ⟨keys, book, h.kept _ hpositions (by rw [hconfigs]; exact h.counters)⟩
  cases attempt_effect hok with
  | @configCreated tx accs feeBps keeperRewardBps bump _ heff =>
      have haddress : accs.config = rt.configAddress := heff.init.address
      have hnone := (World.views_of_unused heff.init.unused).1
      rw [haddress] at hnone
      have hkeys := h.keys_empty hinv hnone
      refine ⟨keys, book, h.kept _ heff.positions ?_⟩
      intro config hconfig
      rw [heff.configs, ← haddress, Function.update_self] at hconfig
      rw [← Option.some.inj hconfig, hkeys]
      exact countersMatch_empty ..
  | @configChanged tx accs newAdmin newFeeReceiver newFeeBps newRewardBps config config' _ heff =>
      refine ⟨keys, book, h.kept _ heff.positions (h.recount hinv heff.loaded heff.configs ?_)⟩
      intro hcounts
      rw [(updateConfigHandler_eq_ok heff.handled).1]
      exact hcounts.of_sameCounters rfl rfl rfl rfl rfl
  | feedCreated heff => exact hsame heff.positions heff.configs
  | feedPushed heff => exact hsame heff.positions heff.configs
  | feedRegistered heff => exact hsame heff.positions heff.configs
  | feedVerified heff => exact hsame heff.positions heff.configs
  | lamportsSent heff => exact hsame heff.positions heff.configs
  | @triggersChanged tx accs stopPrice takeProfitPrice trailingOffset position _ heff =>
      refine ⟨keys, book, h.rewritten _ heff.loaded heff.positions heff.configs ?_ ?_⟩
      · rw [retarget_frame]
      · rw [retarget_frame]
  | tickRecorded heff =>
      exact ⟨keys, book, h.rewritten _ heff.accounts.position_loaded heff.positions
        heff.configs rfl rfl⟩
  | delegated heff =>
      exact ⟨keys, book, h.rewritten _ heff.loaded heff.positions heff.configs rfl rfl⟩
  | undelegated heff =>
      exact ⟨keys, book, h.rewritten _ heff.loaded heff.positions heff.configs rfl rfl⟩
  | @positionOpened tx accs args config feed rent bump _ heff =>
      have hunused := (World.views_of_unused heff.init.unused).2.2
      have hnew : accs.position ∉ keys := by
        intro hmem
        rcases (h.existing _).mp hmem with ⟨position, hposition⟩
        rw [hunused] at hposition
        contradiction
      refine ⟨_, _, h.opened _ hunused heff.positions (.held rfl ?_)
        (h.recount hinv heff.config_loaded heff.configs ?_)⟩
      · exact ⟨_, List.mem_append_right _ List.mem_cons_self, hmoment, tx, accs, args, rfl,
          rfl, rfl⟩
      · intro hcounts
        exact hcounts.opened_entry hnew _
  | @positionSettled tx accs config feed position payout _ heff =>
      have hopen := (tickPrice_eq_ok_iff.mp heff.guards).1
      rcases h.held heff.accounts.position_loaded hopen with ⟨hkey, hheld, hdeposited⟩
      have hsettles : SettlesAt rt accs.position position.collateral.toNat
          config.feeBps.toNat config.keeperRewardBps.toNat
          ⟨w, .invoke tx (.tickPosition accs), w'⟩ :=
        ⟨tx, accs, config, feed, position, payout, rfl, rfl, heff, rfl, rfl, rfl⟩
      have hentry := Booked.triggered (fired_status position feed.price
        tx.unixTimestamp) (exists_mem_snoc hdeposited _)
        ⟨_, List.mem_append_right history List.mem_cons_self, hsettles⟩
      refine ⟨_, _, h.closed _ hkey heff.positions hentry
        (h.recount hinv heff.accounts.config_loaded heff.configs ?_)⟩
      intro hcounts
      exact hcounts.triggered_entry hkey hheld heff.payout_of
  | @positionCancelled tx accs config position _ heff =>
      rcases h.held heff.accounts.position_loaded heff.status with
        ⟨hkey, hheld, hdeposited⟩
      refine ⟨_, _, h.closed _ hkey heff.positions
        (.cancelled rfl (exists_mem_snoc hdeposited _) ?_)
        (h.recount hinv heff.accounts.config_loaded heff.configs ?_)⟩
      · exact ⟨_, List.mem_append_right _ List.mem_cons_self, tx, accs, config, position,
          rfl, rfl, heff, rfl⟩
      · intro hcounts
        exact hcounts.cancelled_entry hkey hheld

end Step

/-! ### Whole runs -/

section Runs

variable (rt : Runtime) (lamports : Lamports) (actions : List Action)

theorem reconciled_of_run :
    ∃ keys book, Reconciled rt (historyFrom rt (World.genesis lamports) actions)
      (runFrom rt (World.genesis lamports) actions) keys book := by
  induction actions using List.reverseRecOn with
  | nil => exact ⟨∅, _, genesis_reconciled rt lamports⟩
  | append_singleton earlier action ih =>
      rcases ih with ⟨keys, book, hreconciled⟩
      have hinv := reachable_invariant
        (⟨lamports, earlier, rfl⟩ : Reachable rt (runFrom rt (World.genesis lamports) earlier))
      rw [historyFrom_snoc, runFrom_snoc]
      rcases ok_or_error (attempt rt (runFrom rt (World.genesis lamports) earlier) action)
        with ⟨w', hok⟩ | ⟨error, herror⟩
      · rw [step_of_ok hok]
        exact hreconciled.step hinv hok
      · rw [step_of_error herror]
        exact ⟨keys, book, hreconciled.kept _ rfl hreconciled.counters⟩

end Runs

section Totals

variable {rt : Runtime} {history : List Moment} {w : World} {keys : Finset Pubkey}
  {book : Pubkey → Option DepositEntry}

theorem Booked.any_triggered {key : Pubkey} {entry : Option DepositEntry}
    {record : Option Position} (h : Booked rt key history entry record) :
    record.any (fun p => p.status = statusTriggered) = entry.any DepositEntry.isTriggered := by
  cases h with
  | absent => rfl
  | held isOpen => simp [DepositEntry.isTriggered, isOpen, statusOpen, statusTriggered]
  | triggered closed => simp [DepositEntry.isTriggered, closed]
  | cancelled closed =>
      simp [DepositEntry.isTriggered, closed, statusCancelled, statusTriggered]

theorem Booked.any_cancelled {key : Pubkey} {entry : Option DepositEntry}
    {record : Option Position} (h : Booked rt key history entry record) :
    record.any (fun p => p.status = statusCancelled) = entry.any DepositEntry.isCancelled := by
  cases h with
  | absent => rfl
  | held isOpen => simp [DepositEntry.isCancelled, isOpen, statusOpen, statusCancelled]
  | triggered closed =>
      simp [DepositEntry.isCancelled, closed, statusCancelled, statusTriggered]
  | cancelled closed => simp [DepositEntry.isCancelled, closed]

theorem Booked.collateral_eq {key : Pubkey} {entry : Option DepositEntry}
    {record : Option Position} (h : Booked rt key history entry record) :
    entry.elim 0 DepositEntry.collateral = record.elim 0 fun p =>
      if p.status = statusOpen then p.collateral.toNat else 0 := by
  cases h with
  | absent => rfl
  | held isOpen => simp [DepositEntry.collateral, isOpen]
  | triggered closed =>
      simp [DepositEntry.collateral, closed, statusOpen, statusTriggered]
  | cancelled closed =>
      simp [DepositEntry.collateral, closed, statusOpen, statusCancelled]

/-- The positions with a given status, among the existing ones. -/
def World.countWithStatus (w : World) (keys : Finset Pubkey) (status : UInt8) : Nat :=
  (keys.filter fun key => (w.positions key).any (fun p => p.status = status) = true).card

theorem Reconciled.count_existing (h : Reconciled rt history w keys book) :
    Tally.total keys (fun _ => 1) book = keys.card := by
  symm
  apply Tally.card_eq_total
  intro key hkey
  have hbooked := h.booked key
  rcases (h.existing key).mp hkey with ⟨position, hposition⟩
  rw [hposition] at hbooked
  generalize book key = entry at hbooked ⊢
  cases hbooked with
  | held => exact ⟨_, rfl⟩
  | triggered => exact ⟨_, rfl⟩
  | cancelled => exact ⟨_, rfl⟩

theorem Reconciled.count_triggered (h : Reconciled rt history w keys book) :
    Tally.total keys (fun e => if e.isTriggered = true then 1 else 0) book =
      w.countWithStatus keys statusTriggered := by
  rw [World.countWithStatus, ← Tally.card_filter_eq_total]
  congr 1
  apply Finset.filter_congr
  intro key _
  rw [(h.booked key).any_triggered]

theorem Reconciled.count_cancelled (h : Reconciled rt history w keys book) :
    Tally.total keys (fun e => if e.isCancelled = true then 1 else 0) book =
      w.countWithStatus keys statusCancelled := by
  rw [World.countWithStatus, ← Tally.card_filter_eq_total]
  congr 1
  apply Finset.filter_congr
  intro key _
  rw [(h.booked key).any_cancelled]

/-- Every deposit is still held, or was paid out in full. -/
theorem Reconciled.conserved (h : Reconciled rt history w keys book) :
    Tally.total keys DepositEntry.deposit book =
      Tally.total keys (fun p => if p.status = statusOpen then p.collateral.toNat else 0)
          w.positions +
        Tally.total keys DepositEntry.fee book +
        Tally.total keys DepositEntry.keeperReward book +
        Tally.total keys DepositEntry.netToOwner book +
        Tally.total keys DepositEntry.refund book := by
  have hparts : Tally.total keys DepositEntry.deposit book =
      Tally.total keys (fun e => e.collateral + e.fee + e.keeperReward + e.netToOwner +
        e.refund) book := by
    apply Tally.total_congr
    intro key _
    cases hentry : book key with
    | none => rfl
    | some entry =>
        have hbooked := h.booked key
        rw [hentry] at hbooked
        exact hbooked.deposit_eq
  have hheld : Tally.total keys DepositEntry.collateral book =
      Tally.total keys (fun p : Position =>
        if p.status = statusOpen then p.collateral.toNat else 0) w.positions := by
    apply Tally.total_congr
    intro key _
    exact (h.booked key).collateral_eq
  rw [hparts, ← hheld, Tally.total_add, Tally.total_add, Tally.total_add, Tally.total_add]

end Totals

/-- In every reachable state the config agrees with the position accounts: each has one
entry, evidenced by the history, the five counters are the saturated totals, and every
deposit is held, paid as fee, reward and net, or refunded. -/
theorem config_reconciles (rt : Runtime) (lamports : Lamports) (actions : List Action) :
    ∃ (keys : Finset Pubkey) (book : Pubkey → Option DepositEntry),
      (∀ key, key ∈ keys ↔ ∃ position,
        (runFrom rt (World.genesis lamports) actions).positions key = some position) ∧
      (∀ key, Booked rt key (historyFrom rt (World.genesis lamports) actions) (book key)
        ((runFrom rt (World.genesis lamports) actions).positions key)) ∧
      (∀ configKey config,
        (runFrom rt (World.genesis lamports) actions).configs configKey = some config →
        config.totalPositionsOpened.toNat = min keys.card (2 ^ 64 - 1) ∧
        config.totalPositionsTriggered.toNat =
          min ((runFrom rt (World.genesis lamports) actions).countWithStatus keys
            statusTriggered) (2 ^ 64 - 1) ∧
        config.totalPositionsCancelled.toNat =
          min ((runFrom rt (World.genesis lamports) actions).countWithStatus keys
            statusCancelled) (2 ^ 64 - 1) ∧
        config.totalFeesCollected.toNat =
          min (Tally.total keys DepositEntry.fee book) (2 ^ 64 - 1) ∧
        config.totalKeeperRewardsPaid.toNat =
          min (Tally.total keys DepositEntry.keeperReward book) (2 ^ 64 - 1)) ∧
      Tally.total keys DepositEntry.deposit book =
        Tally.total keys (fun p => if p.status = statusOpen then p.collateral.toNat else 0)
            (runFrom rt (World.genesis lamports) actions).positions +
          Tally.total keys DepositEntry.fee book +
          Tally.total keys DepositEntry.keeperReward book +
          Tally.total keys DepositEntry.netToOwner book +
          Tally.total keys DepositEntry.refund book := by
  rcases reconciled_of_run rt lamports actions with ⟨keys, book, h⟩
  refine ⟨keys, book, h.existing, h.booked, ?_, h.conserved⟩
  intro configKey config hconfig
  have hinv := reachable_invariant
    (⟨lamports, actions, rfl⟩ : Reachable rt (runFrom rt (World.genesis lamports) actions))
  rw [(hinv.configs configKey config hconfig).address] at hconfig
  have hcounters := h.counters config hconfig
  refine ⟨?_, ?_, ?_, hcounters.fees, hcounters.rewards⟩
  · rw [← h.count_existing]
    exact hcounters.opened
  · rw [← h.count_triggered]
    exact hcounters.triggered
  · rw [← h.count_cancelled]
    exact hcounters.cancelled

end Hwal
