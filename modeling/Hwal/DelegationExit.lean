/-
The way out of the rollup: a delegated position can be taken back by its owner as
long as it is open.  What closes a position does not look at the delegation, and
exactly those steps leave positions that nobody can take back.
-/
import Hwal.Lifecycle

namespace Hwal

open Guard

/-- The accounts of an `undelegate_position` by the owner. -/
def Position.exitAccounts (position : Position) (key record metadata : Pubkey) :
    UndelegatePosition :=
  { owner := position.owner
    position := key
    delegationProgram := magicblockDelegationProgramId
    delegationRecord := record
    delegationMetadata := metadata
    systemProgram := systemProgramId }

/-- Whenever the delegation program goes along, the owner gets the position back. -/
def CanBeTakenBack (rt : Runtime) (w : World) (key : Pubkey) (position : Position) : Prop :=
  ∀ (tx : Tx) (record metadata : Pubkey), position.owner ∈ tx.signers →
    [key, record, metadata] ⊆ tx.writable →
    (∃ lamports, rt.invokeDelegation
      (undelegateIx (position.exitAccounts key record metadata)) tx w.lamports =
        some lamports) →
    ∃ w', undelegatePosition rt w tx (position.exitAccounts key record metadata) = .ok w'

/-- No position is stuck in the delegated state. -/
def NoneStuck (rt : Runtime) (w : World) : Prop :=
  ∀ key position, w.positions key = some position → position.erDelegated = 1 →
    position.status = statusOpen ∧ CanBeTakenBack rt w key position

/-- Every delegated position is open. -/
def DelegatedOpen (w : World) : Prop :=
  ∀ key position, w.positions key = some position → position.erDelegated = 1 →
    position.status = statusOpen

/-- A settlement or a cancellation of a position that is still delegated. -/
def ClosesDelegated (rt : Runtime) (m : Moment) : Prop :=
  Succeeded rt m ∧
    ((∃ tx accs config feed position, m.action = .invoke tx (.tickPosition accs) ∧
        TickEvaluated rt m.before tx accs config feed position ∧
        (position.observe feed.price tx.unixTimestamp).firstHit feed.price ≠ triggerNone ∧
        position.erDelegated = 1) ∨
      ∃ tx accs position, m.action = .invoke tx (.cancelPosition accs) ∧
        m.before.positions accs.position = some position ∧ position.erDelegated = 1)

section Step

variable {rt : Runtime} {w w' : World} {key : Pubkey} {position : Position}

/-- An open delegated position passes every check of `undelegate_position`. -/
theorem canBeTakenBack (hinv : Invariant rt w) (hposition : w.positions key = some position)
    (hopen : position.status = statusOpen) (hflag : position.erDelegated = 1) :
    CanBeTakenBack rt w key position := by
  intro tx record metadata hsigned hwritable hcpi
  rcases hcpi with ⟨lamports, hcpi⟩
  have hsound := hinv.positions key position hposition
  simp only [List.cons_subset, List.nil_subset, and_true] at hwritable
  rcases hwritable with ⟨hkey, hrecord, hmetadata⟩
  have haccs : UndelegateAccounts (position.exitAccounts key record metadata) rt w tx
      position := by
    constructor
    case owner_signs => exact hsigned
    case position_loaded => exact hposition
    case systemProgram => rfl
    case owner_matches => rfl
    case position_mut => exact hkey
    case position_seeds =>
      rw [hsound.bump, rt.create_find, ← Runtime.positionAddress, ← hsound.address]
      rfl
    case delegationProgram => rfl
    case delegationRecord_mut => exact hrecord
    case delegationMetadata_mut => exact hmetadata
  exact ⟨_, undelegatePosition_eq_ok_iff.mpr
    ⟨position, lamports, haccs, hopen, hflag, hcpi, rfl⟩⟩

theorem noneStuck_iff_delegatedOpen (hinv : Invariant rt w) :
    NoneStuck rt w ↔ DelegatedOpen w := by
  constructor
  · intro h key position hposition hflag
    exact (h key position hposition hflag).1
  · intro h key position hposition hflag
    have hopen := h key position hposition hflag
    exact ⟨hopen, canBeTakenBack hinv hposition hopen hflag⟩

/-- Any other step keeps the delegated positions open. -/
theorem DelegatedOpen.step {action : Action} (h : DelegatedOpen w)
    (hok : attempt rt w action = .ok w') (hclose : ¬ ClosesDelegated rt ⟨w, action, w'⟩) :
    DelegatedOpen w' := by
  intro key position hposition hflag
  have hmoment : Succeeded rt ⟨w, action, w'⟩ := hok
  have hat := (attempt_effect hok).atPosition key
  generalize hbefore : w.positions key = before at hat
  rw [hposition] at hat
  cases hat with
  | kept pays => exact h key position hbefore hflag
  | opened account heff => rfl
  | @retargeted tx accs stopPrice takeProfitPrice trailingOffset before _ account heff =>
      rw [retarget_frame]
      exact heff.status
  | ticked account heff => exact (tickPrice_eq_ok_iff.mp heff.guards).1
  | settled account heff =>
      exact absurd ⟨hmoment, Or.inl ⟨_, _, _, _, _, rfl, heff.toTickEvaluated, heff.fires,
        hflag⟩⟩ hclose
  | cancelled account heff =>
      exact absurd ⟨hmoment, Or.inr ⟨_, _, _, rfl, heff.accounts.position_loaded, hflag⟩⟩
        hclose
  | delegated account heff => exact heff.status
  | undelegated account heff => exact heff.status

/-- Such a step leaves a delegated position closed. -/
theorem ClosesDelegated.not_delegatedOpen {m : Moment} (h : ClosesDelegated rt m) :
    ¬ DelegatedOpen m.after := by
  rcases m with ⟨before, action, after⟩
  rcases h with ⟨hok, ⟨tx, accs, config, feed, position, haction, heval, hfires, hflag⟩ |
    ⟨tx, accs, position, haction, hposition, hflag⟩⟩
  · dsimp only at haction
    subst haction
    rcases attempt_invoke_eq_ok_iff.mp hok with ⟨-, -, hexec⟩
    rcases heval.settled_of_ok hfires hexec with ⟨payout, hsettled⟩
    intro hopen
    have hafter : after.positions accs.position =
        some (position.fired feed.price tx.unixTimestamp) := by
      rw [hsettled.positions, Function.update_self]
    have hstatus := hopen _ _ hafter hflag
    rw [fired_status] at hstatus
    exact absurd hstatus (by decide)
  · dsimp only at haction hposition
    subst haction
    have heffect := attempt_effect hok
    cases heffect with
    | @positionCancelled _ _ config loaded _ heff =>
        have hsame : loaded = position :=
          Option.some.inj (heff.accounts.position_loaded.symm.trans hposition)
        subst hsame
        intro hopen
        have hafter : after.positions accs.position =
            some (loaded.cancelled tx.unixTimestamp) := by
          rw [heff.positions, Function.update_self]
        have hstatus := hopen _ _ hafter hflag
        rw [cancelled_status] at hstatus
        exact absurd hstatus (by decide)

end Step

/-! ### Whole runs -/

section Runs

variable (rt : Runtime) (lamports : Lamports) (actions : List Action)

theorem delegatedOpen_of_run
    (h : ∀ m ∈ historyFrom rt (World.genesis lamports) actions, ¬ ClosesDelegated rt m) :
    DelegatedOpen (runFrom rt (World.genesis lamports) actions) := by
  induction actions using List.reverseRecOn with
  | nil =>
      intro key position hposition
      contradiction
  | append_singleton earlier action ih =>
      rw [historyFrom_snoc] at h
      have hearlier := ih fun m hm => h m (List.mem_append_left _ hm)
      have hlast := h _ (List.mem_append_right _ List.mem_cons_self)
      rw [runFrom_snoc]
      rcases ok_or_error (attempt rt (runFrom rt (World.genesis lamports) earlier) action)
        with ⟨w', hok⟩ | ⟨error, herror⟩
      · rw [step_of_ok hok] at hlast ⊢
        exact hearlier.step hok hlast
      · rw [step_of_error herror]
        exact hearlier

/-- No state of a run has a stuck position exactly when no step of the run settles or
cancels a position that is still delegated. -/
theorem none_stuck_iff :
    (∀ earlier later, actions = earlier ++ later →
        NoneStuck rt (runFrom rt (World.genesis lamports) earlier)) ↔
      ∀ m ∈ historyFrom rt (World.genesis lamports) actions, ¬ ClosesDelegated rt m := by
  constructor
  · intro h m hm hclose
    rcases (Transition.mem_trace_iff (step rt)).mp hm with
      ⟨earlier, later, hactions, hbefore, hafter⟩
    have hstuck := h (earlier ++ [m.action]) later (by rw [hactions]; simp)
    rw [runFrom_snoc, runFrom, ← hbefore, ← hafter] at hstuck
    apply hclose.not_delegatedOpen
    intro key position hposition hflag
    exact (hstuck key position hposition hflag).1
  · intro h earlier later hactions
    have hreach : Reachable rt (runFrom rt (World.genesis lamports) earlier) :=
      ⟨lamports, earlier, rfl⟩
    apply (noneStuck_iff_delegatedOpen (reachable_invariant hreach)).mpr
    apply delegatedOpen_of_run
    exact Transition.forall_mem_earlier (step rt) h hactions

end Runs

section Stranded

open Localnet

def delegate (now : Int64) : Action :=
  .invoke (tx alice now) (.delegatePosition ⟨alice, position, magicblockDelegationProgramId,
    keeper, poster, feedAuthority, systemProgramId⟩)

/-- A delegated position whose stop fires. -/
def stranded : List Action :=
  launch ++ [deposit, delegate 1004, push 80000000 1005, tick feeReceiver 1006]

/-- It is triggered with the flag still set, and no `undelegate_position` gets it back. -/
theorem stranded_is_stuck :
    ¬ (∀ earlier later, stranded = earlier ++ later →
        NoneStuck cluster (runFrom cluster (World.genesis funds) earlier)) ∧
      ∀ tx accs w', accs.position = position →
        undelegatePosition cluster (runFrom cluster (World.genesis funds) stranded) tx accs ≠
          .ok w' := by
  have hfields : ((runFrom cluster (World.genesis funds) stranded).positions position).map
      (fun p => (p.erDelegated, p.status)) = some (1, statusTriggered) := by decide +kernel
  rcases Option.map_eq_some_iff.mp hfields with ⟨closed, hclosed, hvalues⟩
  simp only [Prod.mk.injEq] at hvalues
  constructor
  · intro h
    have hopen := (h stranded [] (by simp) position closed hclosed hvalues.1).1
    rw [hvalues.2] at hopen
    exact absurd hopen (by decide)
  · intro tx accs w' haccount hok
    rcases undelegatePosition_eq_ok_iff.mp hok with ⟨loaded, lamports, haccs, hopen, -⟩
    have hloaded := haccs.position_loaded
    rw [haccount, hclosed] at hloaded
    rw [← Option.some.inj hloaded, hvalues.2] at hopen
    exact absurd hopen (by decide)

end Stranded

end Hwal
