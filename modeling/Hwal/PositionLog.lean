/-
What the log says of one position: nothing before it is opened, then its opening, then
ticks, new triggers and delegations while it stays open, and one last event when it
closes, whose amounts add up to the deposit.
-/
import Hwal.EventLog
import Hwal.Invariants

namespace Hwal

/-- The position an event speaks of. -/
def Event.position? : Event → Option Pubkey
  | .positionOpened position .. => some position
  | .triggersUpdated position .. => some position
  | .positionTicked position .. => some position
  | .positionTriggered position .. => some position
  | .positionCancelled position .. => some position
  | .positionDelegated position .. => some position
  | .positionUndelegated position .. => some position
  | _ => none

/-- The part of a log that speaks of one position. -/
def story (key : Pubkey) (log : List Event) : List Event :=
  log.filter fun event => event.position? = some key

/-- Events of a position that stays open. -/
def Event.Ongoing : Event → Prop
  | .triggersUpdated .. | .positionTicked .. | .positionDelegated ..
  | .positionUndelegated .. => True
  | _ => False

/-- Ticks an event stands for; the tick that settles is announced by the settlement. -/
def Event.ticks : Event → Nat
  | .positionTicked .. | .positionTriggered .. => 1
  | _ => 0

/-- The fields the opening event announces and nothing changes afterwards. -/
structure Carried (position position' : Position) : Prop where
  owner : position'.owner = position.owner
  feed : position'.feed = position.feed
  side : position'.side = position.side
  entryPrice : position'.entryPrice = position.entryPrice
  openedAt : position'.openedAt = position.openedAt

theorem Carried.trans {p p' p'' : Position} (h : Carried p p') (h' : Carried p' p'') :
    Carried p p'' :=
  ⟨h'.owner.trans h.owner, h'.feed.trans h.feed, h'.side.trans h.side,
    h'.entryPrice.trans h.entryPrice, h'.openedAt.trans h.openedAt⟩

/-- How the last event accounts for the deposit. -/
inductive Ending (key : Pubkey) (deposit : UInt64) (position : Position) :
    List Event → Prop where
  | held (status : position.status = statusOpen) (amount : position.collateral = deposit) :
      Ending key deposit position []
  | triggered (price net fee reward : UInt64) (keeper : Pubkey)
      (status : position.status = statusTriggered) (emptied : position.collateral = 0)
      (total : fee.toNat + reward.toNat + net.toNat = deposit.toNat) :
      Ending key deposit position [.positionTriggered key position.owner
        position.triggerReason price net fee reward keeper position.settledAt]
  | cancelled (status : position.status = statusCancelled) (emptied : position.collateral = 0) :
      Ending key deposit position [.positionCancelled key position.owner deposit
        position.settledAt]

/-- The whole story of a position, from its opening to where it stands. -/
inductive Story (key : Pubkey) (position : Position) : List Event → Prop where
  | told (deposit stopPrice takeProfitPrice trailingOffset : UInt64)
      (middle ending : List Event) (ongoing : ∀ event ∈ middle, event.Ongoing)
      (ends : Ending key deposit position ending)
      (ticks : position.tickCount.toNat =
        min ((middle ++ ending).map Event.ticks).sum (2 ^ 64 - 1)) :
      Story key position (.positionOpened key position.owner position.feed position.side
        deposit position.entryPrice stopPrice takeProfitPrice trailingOffset
        position.openedAt :: (middle ++ ending))

/-- What one action adds to a story, and what it does to the record meanwhile. -/
inductive Told (key : Pubkey) : Option Position → List Event → Option Position → Prop where
  | silent (record : Option Position) : Told key record [] record
  | opened (position : Position) (status : position.status = statusOpen)
      (ticks : position.tickCount = 0) :
      Told key none [.positionOpened key position.owner position.feed position.side
        position.collateral position.entryPrice position.stopPrice position.takeProfitPrice
        position.trailingOffset position.openedAt] (some position)
  | ongoing {position position' : Position} {event : Event} (kind : event.Ongoing)
      (carried : Carried position position') (status : position.status = statusOpen)
      (status' : position'.status = statusOpen)
      (held : position'.collateral = position.collateral)
      (ticks : position'.tickCount.toNat =
        min (position.tickCount.toNat + event.ticks) (2 ^ 64 - 1)) :
      Told key (some position) [event] (some position')
  | closed {position position' : Position} {event : Event}
      (carried : Carried position position') (status : position.status = statusOpen)
      (ends : Ending key position.collateral position' [event])
      (ticks : position'.tickCount.toNat =
        min (position.tickCount.toNat + event.ticks) (2 ^ 64 - 1)) :
      Told key (some position) [event] (some position')

section Step

variable {rt : Runtime} {w w' : World} {action : Action} {events : List Event}

theorem story_other {key : Pubkey} {event : Event} (h : event.position? ≠ some key) :
    story key [event] = [] := by
  simp [story, h]

theorem story_self {key : Pubkey} {event : Event} (h : event.position? = some key) :
    story key [event] = [event] := by
  simp [story, h]

/-- An event about one address leaves the story of every other address alone. -/
theorem told_at {address : Pubkey} {record : Position} {event : Event}
    {view : Pubkey → Option Position} (habout : event.position? = some address)
    (hat : Told address (view address) [event] (some record)) (key : Pubkey) :
    Told key (view key) (story key [event])
      (Function.update view address (some record) key) := by
  by_cases hkey : address = key
  · subst hkey
    rw [Function.update_self, story_self habout]
    exact hat
  · have hother : event.position? ≠ some key := by
      rw [habout]
      exact fun h => hkey (Option.some.inj h)
    rw [Function.update_of_ne (Ne.symm hkey), story_other hother]
    exact .silent _

theorem toNat_observe_tickCount (position : Position) (price : UInt64) (now : Int64) :
    (position.observe price now).tickCount.toNat =
      min (position.tickCount.toNat + 1) (2 ^ 64 - 1) :=
  UInt64.toNat_saturatingAdd ..

theorem min_tickCount (position : Position) :
    position.tickCount.toNat = min (position.tickCount.toNat + 0) (2 ^ 64 - 1) := by
  have hlt := position.tickCount.toNat_lt
  omega

theorem Logged.told (h : Logged rt w action w' events) (key : Pubkey) :
    Told key (w.positions key) (story key events) (w'.positions key) := by
  cases h with
  | configCreated heff => rw [heff.positions]; exact .silent _
  | configChanged heff => rw [heff.positions]; exact .silent _
  | feedCreated heff => rw [heff.positions]; exact .silent _
  | feedPushed heff => rw [heff.positions]; exact .silent _
  | feedRegistered heff => rw [heff.positions]; exact .silent _
  | feedVerified heff => rw [heff.positions]; exact .silent _
  | lamportsSent heff => rw [heff.positions]; exact .silent _
  | positionOpened heff =>
      rw [heff.positions]
      refine told_at rfl ?_ key
      rw [(World.views_of_unused heff.init.unused).2.2]
      exact .opened (newPosition ..) rfl rfl
  | triggersChanged heff =>
      rw [heff.positions]
      refine told_at rfl ?_ key
      rw [heff.loaded]
      rw [retarget_frame]
      exact .ongoing trivial ⟨rfl, rfl, rfl, rfl, rfl⟩ heff.status heff.status rfl
        (min_tickCount _)
  | tickRecorded heff =>
      rw [heff.positions]
      refine told_at rfl ?_ key
      rw [heff.accounts.position_loaded]
      have hopen := (tickPrice_eq_ok_iff.mp heff.guards).1
      exact .ongoing trivial ⟨rfl, rfl, rfl, rfl, rfl⟩ hopen hopen rfl
        (toNat_observe_tickCount ..)
  | @positionSettled tx accs config feed position payout w' heff =>
      rw [heff.positions]
      refine told_at rfl ?_ key
      rw [heff.accounts.position_loaded]
      have hopen := (tickPrice_eq_ok_iff.mp heff.guards).1
      exact .closed ⟨rfl, rfl, rfl, rfl, rfl⟩ hopen
        (.triggered feed.price payout.netToOwner payout.fee payout.keeperReward accs.keeper
          rfl rfl heff.payout_of.total)
        (toNat_observe_tickCount position feed.price tx.unixTimestamp)
  | positionCancelled heff =>
      rw [heff.positions]
      refine told_at rfl ?_ key
      rw [heff.accounts.position_loaded]
      exact .closed ⟨rfl, rfl, rfl, rfl, rfl⟩ heff.status (.cancelled rfl rfl)
        (min_tickCount _)
  | delegated heff =>
      rw [heff.positions]
      refine told_at rfl ?_ key
      rw [heff.loaded]
      exact .ongoing trivial ⟨rfl, rfl, rfl, rfl, rfl⟩ heff.status heff.status rfl
        (min_tickCount _)
  | undelegated heff =>
      rw [heff.positions]
      refine told_at rfl ?_ key
      rw [heff.loaded]
      exact .ongoing trivial ⟨rfl, rfl, rfl, rfl, rfl⟩ heff.status heff.status rfl
        (min_tickCount _)

end Step

/-! ### Along a run -/

/-- An address without a position has no story; a position has the whole of its own. -/
def Tells (key : Pubkey) (told : List Event) : Option Position → Prop
  | none => told = []
  | some position => Story key position told

theorem Ending.eq_nil_of_open {key : Pubkey} {deposit : UInt64} {position : Position}
    {ending : List Event} (h : Ending key deposit position ending)
    (hopen : position.status = statusOpen) : ending = [] ∧ position.collateral = deposit := by
  cases h with
  | held status amount => exact ⟨rfl, amount⟩
  | triggered price net fee reward keeper status emptied total =>
      rw [hopen] at status
      exact absurd status (by decide)
  | cancelled status emptied =>
      rw [hopen] at status
      exact absurd status (by decide)

/-- An open position's story ends with nothing but its middle. -/
theorem Story.of_open {key : Pubkey} {position : Position} {told : List Event}
    (h : Story key position told) (hopen : position.status = statusOpen) :
    ∃ stopPrice takeProfitPrice trailingOffset middle,
      told = .positionOpened key position.owner position.feed position.side
        position.collateral position.entryPrice stopPrice takeProfitPrice trailingOffset
        position.openedAt :: middle ∧
      (∀ event ∈ middle, event.Ongoing) ∧
      position.tickCount.toNat = min (middle.map Event.ticks).sum (2 ^ 64 - 1) := by
  rcases h with ⟨deposit, stopPrice, takeProfitPrice, trailingOffset, middle, ending, ongoing,
    ends, ticks⟩
  obtain ⟨rfl, rfl⟩ := ends.eq_nil_of_open hopen
  rw [List.append_nil] at ticks ⊢
  exact ⟨stopPrice, takeProfitPrice, trailingOffset, middle, rfl, ongoing, ticks⟩

theorem sum_ticks_snoc {count : UInt64} {middle : List Event} {event : Event} {n : Nat}
    (h : n = min ((middle.map Event.ticks).sum) (2 ^ 64 - 1))
    (hcount : count.toNat = min (n + event.ticks) (2 ^ 64 - 1)) :
    count.toNat = min (((middle ++ [event]).map Event.ticks).sum) (2 ^ 64 - 1) := by
  rw [List.map_append, List.sum_append, hcount, h]
  simp only [List.map_cons, List.map_nil, List.sum_cons, List.sum_nil]
  omega

theorem Told.extend {key : Pubkey} {record record' : Option Position}
    {told events : List Event} (h : Told key record events record')
    (hstory : Tells key told record) : Tells key (told ++ events) record' := by
  cases h with
  | silent => rwa [List.append_nil]
  | opened position status ticks =>
      obtain rfl : told = [] := hstory
      exact .told position.collateral position.stopPrice position.takeProfitPrice
        position.trailingOffset [] [] (by simp) (.held status rfl) (by simp [ticks])
  | @ongoing position position' event kind carried status status' held ticks =>
      rcases Story.of_open hstory status with ⟨stopPrice, takeProfitPrice, trailingOffset,
        middle, rfl, hongoing, hticks⟩
      have hmiddle : ∀ e ∈ middle ++ [event], e.Ongoing := by
        intro e he
        rcases List.mem_append.mp he with he | he
        · exact hongoing e he
        · obtain rfl := List.mem_singleton.mp he
          exact kind
      have hsum := sum_ticks_snoc hticks ticks
      have hdone : Story key position' _ := .told position.collateral stopPrice
        takeProfitPrice trailingOffset (middle ++ [event]) [] hmiddle (.held status' held)
        (by rwa [List.append_nil])
      rw [carried.owner, carried.feed, carried.side, carried.entryPrice, carried.openedAt,
        List.append_nil] at hdone
      exact hdone
  | @closed position position' event carried status ends ticks =>
      rcases Story.of_open hstory status with ⟨stopPrice, takeProfitPrice, trailingOffset,
        middle, rfl, hongoing, hticks⟩
      have hdone : Story key position' _ := .told position.collateral stopPrice
        takeProfitPrice trailingOffset middle [event] hongoing ends
        (sum_ticks_snoc hticks ticks)
      rw [carried.owner, carried.feed, carried.side, carried.entryPrice,
        carried.openedAt] at hdone
      exact hdone

theorem story_append (key : Pubkey) (first second : List Event) :
    story key (first ++ second) = story key first ++ story key second :=
  List.filter_append ..

/-- The log tells the story of every address. -/
def LogTells (w : World) : Prop :=
  ∀ key, Tells key (story key w.log) (w.positions key)

theorem step_tells {rt : Runtime} {w : World} (action : Action) (h : LogTells w) :
    LogTells (step rt w action) := by
  intro key
  rcases step_cases rt w action with hok | hsame
  · rcases attempt_logged hok with ⟨events, hlogged, hlog⟩
    rw [hlog, story_append]
    exact (hlogged.told key).extend (h key)
  · rw [hsame]
    exact h key

/-- In every run, whoever acts and in whatever order: what the log says of an address that
holds no position is nothing, and what it says of a position is its opening, with the
owner, feed, side, entry price and time the record still has, then ticks, new triggers and
delegations, and nothing after that while it is open.  A triggered position's story ends
with one settlement whose fee, reward and net amount are together the deposit, a cancelled
one's with one refund of the deposit, and nothing follows either; the tick count is the
number of ticks told, or `2 ^ 64 - 1` once there are more. -/
theorem position_story (rt : Runtime) (lamports : Lamports) (actions : List Action)
    (key : Pubkey) :
    let w := runFrom rt (World.genesis lamports) actions
    Tells key (story key w.log) (w.positions key) := by
  have hrun : LogTells (runFrom rt (World.genesis lamports) actions) := by
    apply Transition.run_invariant (step rt) (fun _ => rfl)
    intro w action hw
    exact step_tells action hw
  exact hrun key

end Hwal
