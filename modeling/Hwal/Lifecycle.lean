/-
The life of a position account over whole runs: unopened, open with its deposit
inside, or paid out in one step.  Opening happens once, and nothing but that one
step takes lamports away.
-/
import Hwal.Invariants

namespace Hwal

open Guard

/-- Lamports that left `key` in one step. -/
def outflow (key : Pubkey) (m : Moment) : Nat :=
  (m.before.lamports key).toNat - (m.after.lamports key).toNat

/-- An `open_position` that created the account at `key`. -/
def OpensAt (rt : Runtime) (key : Pubkey) (amount : Nat) (m : Moment) : Prop :=
  Succeeded rt m ∧ ∃ tx accs args, m.action = .invoke tx (.openPosition accs args) ∧
    accs.position = key ∧ args.collateral.toNat = amount

/-- An `open_position` by this owner under this nonce. -/
def Opens (rt : Runtime) (owner : Pubkey) (nonce : UInt64) (m : Moment) : Prop :=
  Succeeded rt m ∧ ∃ tx accs args, m.action = .invoke tx (.openPosition accs args) ∧
    accs.owner = owner ∧ args.nonce = nonce

/-- Nothing leaves `key`: its balance does not fall, and the instructions that
could pay from it move nothing at all. -/
def Quiet (key : Pubkey) (m : Moment) : Prop :=
  (m.before.lamports key).toNat ≤ (m.after.lamports key).toNat ∧
    (m.action.PaysFrom key → m.after.lamports = m.before.lamports)

/-- The one step that pays a deposit out of the account at `key`, with the
record it leaves there. -/
inductive Payment (rt : Runtime) (key : Pubkey) (deposit : Nat) (position : Position) :
    Moment → Prop where
  | settled {w tx accs config feed before payout w'} (account : accs.position = key)
      (ok : attempt rt w (.invoke tx (.tickPosition accs)) = .ok w')
      (h : PositionSettled rt w tx accs config feed before payout w')
      (amount : before.collateral.toNat = deposit)
      (record : position = before.fired feed.price tx.unixTimestamp) :
      Payment rt key deposit position ⟨w, .invoke tx (.tickPosition accs), w'⟩
  | refunded {w tx accs config before w'} (account : accs.position = key)
      (ok : attempt rt w (.invoke tx (.cancelPosition accs)) = .ok w')
      (h : PositionCancelled rt w tx accs config before w')
      (amount : before.collateral.toNat = deposit)
      (record : position = before.cancelled tx.unixTimestamp) :
      Payment rt key deposit position ⟨w, .invoke tx (.cancelPosition accs), w'⟩

/-- Where the account at `key` stands, given everything that happened. -/
inductive Lifecycle (rt : Runtime) (key : Pubkey) (history : List Moment) :
    Option Position → Prop where
  | unopened (quiet : ∀ m ∈ history, Quiet key m) : Lifecycle rt key history none
  | held {position} (isOpen : position.status = statusOpen)
      (deposited : ∃ m ∈ history, OpensAt rt key position.collateral.toNat m)
      (quiet : ∀ m ∈ history, Quiet key m) : Lifecycle rt key history (some position)
  | paid {position deposit} (closed : position.status ≠ statusOpen)
      (deposited : ∃ m ∈ history, OpensAt rt key deposit m)
      {earlier m later} (split : history = earlier ++ m :: later)
      (payment : Payment rt key deposit position m)
      (quiet : ∀ m' ∈ earlier ++ later, Quiet key m') :
      Lifecycle rt key history (some position)

section Step

variable {rt : Runtime} {key : Pubkey} {history : List Moment}

theorem quiet_of_not_paysFrom {m : Moment} (h : Succeeded rt m) (hkey : rt.IsDerived key)
    (hpays : ¬ m.action.PaysFrom key) : Quiet key m :=
  ⟨lamports_le_of_not_paysFrom h hkey hpays, fun hp => absurd hp hpays⟩

theorem quiet_of_lamports_eq {m : Moment} (h : m.after.lamports = m.before.lamports) :
    Quiet key m :=
  ⟨by rw [h], fun _ => h⟩

theorem forall_mem_snoc {α : Type} {p : α → Prop} {history : List α} {m : α}
    (h : ∀ m' ∈ history, p m') (hm : p m) : ∀ m' ∈ history ++ [m], p m' := by
  intro m' hm'
  rcases List.mem_append.mp hm' with hold | hnew
  · exact h m' hold
  · rw [List.mem_singleton.mp hnew]
    exact hm

theorem exists_mem_snoc {p : Moment → Prop} (h : ∃ m' ∈ history, p m') (m : Moment) :
    ∃ m' ∈ history ++ [m], p m' := by
  rcases h with ⟨m', hm', hp⟩
  exact ⟨m', List.mem_append_left _ hm', hp⟩

/-- A quiet step that keeps the status and the collateral keeps the stage. -/
theorem Lifecycle.quiet_step {position position' : Position} {m : Moment}
    (h : Lifecycle rt key history (some position)) (hquiet : Quiet key m)
    (hopen : position.status = statusOpen) (hstatus : position'.status = statusOpen)
    (hcollateral : position'.collateral = position.collateral) :
    Lifecycle rt key (history ++ [m]) (some position') := by
  cases h with
  | held isOpen deposited quiet =>
      rw [← hcollateral] at deposited
      exact .held hstatus (exists_mem_snoc deposited m) (forall_mem_snoc quiet hquiet)
  | paid closed => exact absurd hopen closed

/-- A quiet step that leaves the record alone keeps the stage. -/
theorem Lifecycle.kept_step {record : Option Position} {m : Moment}
    (h : Lifecycle rt key history record) (hquiet : Quiet key m) :
    Lifecycle rt key (history ++ [m]) record := by
  cases h with
  | unopened quiet => exact .unopened (forall_mem_snoc quiet hquiet)
  | held isOpen deposited quiet =>
      exact .held isOpen (exists_mem_snoc deposited m) (forall_mem_snoc quiet hquiet)
  | @paid position deposit closed deposited earlier payer later split payment quiet =>
      have hsplit : history ++ [m] = earlier ++ payer :: (later ++ [m]) := by
        rw [split]
        simp
      apply Lifecycle.paid closed (exists_mem_snoc deposited m) hsplit payment
      rw [← List.append_assoc]
      exact forall_mem_snoc quiet hquiet

/-- The step that pays ends the open stage. -/
theorem Lifecycle.pay_step {position position' : Position} {m : Moment}
    (h : Lifecycle rt key history (some position)) (hopen : position.status = statusOpen)
    (hclosed : position'.status ≠ statusOpen)
    (hpayment : Payment rt key position.collateral.toNat position' m) :
    Lifecycle rt key (history ++ [m]) (some position') := by
  cases h with
  | held isOpen deposited quiet =>
      apply Lifecycle.paid hclosed (exists_mem_snoc deposited m) rfl hpayment
      simpa using quiet
  | paid closed => exact absurd hopen closed

/-- One successful step moves the account along its life cycle. -/
theorem Lifecycle.step {w w' : World} {action : Action} (hkey : rt.IsDerived key)
    (h : Lifecycle rt key history (w.positions key)) (hok : attempt rt w action = .ok w') :
    Lifecycle rt key (history ++ [⟨w, action, w'⟩]) (w'.positions key) := by
  have hmoment : Succeeded rt ⟨w, action, w'⟩ := hok
  have hat := (attempt_effect hok).atPosition key
  generalize w.positions key = before at hat h
  generalize w'.positions key = after at hat ⊢
  cases hat with
  | kept pays => exact h.kept_step (quiet_of_not_paysFrom hmoment hkey pays)
  | @opened tx accs args config feed rent bump _ account heff =>
      have hquiet : Quiet key ⟨w, .invoke tx (.openPosition accs args), w'⟩ :=
        quiet_of_not_paysFrom hmoment hkey id
      cases h with
      | unopened quiet =>
          apply Lifecycle.held rfl _ (forall_mem_snoc quiet hquiet)
          exact ⟨_, List.mem_append_right _ (List.mem_singleton.mpr rfl), hmoment, tx, accs,
            args, rfl, account, rfl⟩
  | retargeted account heff =>
      apply h.quiet_step (quiet_of_lamports_eq heff.lamports) heff.status
      · rw [retarget_frame]
        exact heff.status
      · rw [retarget_frame]
  | ticked account heff =>
      have hopen := (tickPrice_eq_ok_iff.mp heff.guards).1
      exact h.quiet_step (quiet_of_lamports_eq heff.lamports) hopen hopen rfl
  | settled account heff =>
      have hopen := (tickPrice_eq_ok_iff.mp heff.guards).1
      apply h.pay_step hopen
      · rw [fired_status]
        decide
      · exact .settled account hok heff rfl rfl
  | cancelled account heff =>
      apply h.pay_step heff.status
      · rw [cancelled_status]
        decide
      · exact .refunded account hok heff rfl rfl
  | delegated account heff =>
      exact h.quiet_step (quiet_of_not_paysFrom hmoment hkey id) heff.status heff.status rfl
  | undelegated account heff =>
      exact h.quiet_step (quiet_of_not_paysFrom hmoment hkey id) heff.status heff.status rfl

end Step

/-! ### Runs -/

section Runs

variable (rt : Runtime) (lamports : Lamports) (actions : List Action)

theorem lifecycle_of_run {key : Pubkey} (hkey : rt.IsDerived key) :
    Lifecycle rt key (historyFrom rt (World.genesis lamports) actions)
      ((runFrom rt (World.genesis lamports) actions).positions key) := by
  induction actions using List.reverseRecOn with
  | nil => exact .unopened (by simp)
  | append_singleton earlier action ih =>
      rw [historyFrom_snoc, runFrom_snoc]
      rcases ok_or_error (attempt rt (runFrom rt (World.genesis lamports) earlier) action)
        with ⟨w', hok⟩ | ⟨error, herror⟩
      · rw [step_of_ok hok]
        exact ih.step hkey hok
      · rw [step_of_error herror]
        exact ih.kept_step (quiet_of_lamports_eq rfl)

theorem sum_outflow_quiet {key : Pubkey} {history : List Moment}
    (h : ∀ m ∈ history, Quiet key m) : (history.map (outflow key)).sum = 0 := by
  induction history with
  | nil => rfl
  | cons m rest ih =>
      have hhead := (h m List.mem_cons_self).1
      have htail := ih fun m' hm' => h m' (List.mem_cons_of_mem m hm')
      simp only [List.map_cons, List.sum_cons, outflow, htail]
      omega

/-- When only one moment is not quiet, the total is what left in that moment. -/
theorem sum_outflow_split {key : Pubkey} {earlier later : List Moment} {m : Moment}
    (h : ∀ m' ∈ earlier ++ later, Quiet key m') :
    ((earlier ++ m :: later).map (outflow key)).sum = outflow key m := by
  have hearlier := sum_outflow_quiet fun m' hm' => h m' (List.mem_append_left later hm')
  have hlater := sum_outflow_quiet fun m' hm' => h m' (List.mem_append_right earlier hm')
  simp [hearlier, hlater]

/-- A position account is opened once and stays. -/
theorem positions_persist {w : World} {key : Pubkey} {position : Position}
    (h : w.positions key = some position) (action : Action) :
    ∃ position', (step rt w action).positions key = some position' := by
  rcases step_effect rt w action with heffect | hsame
  · have hat := heffect.atPosition key
    rw [h] at hat
    generalize (step rt w action).positions key = after at hat ⊢
    cases hat with
    | kept pays => exact ⟨position, rfl⟩
    | retargeted account heff => exact ⟨_, rfl⟩
    | ticked account heff => exact ⟨_, rfl⟩
    | settled account heff => exact ⟨_, rfl⟩
    | cancelled account heff => exact ⟨_, rfl⟩
    | delegated account heff => exact ⟨_, rfl⟩
    | undelegated account heff => exact ⟨_, rfl⟩
  · exact ⟨position, by rw [hsame, h]⟩

/-- What a position never changes after it is opened. -/
structure SameTerms (position position' : Position) : Prop where
  owner : position'.owner = position.owner
  feed : position'.feed = position.feed
  nonce : position'.nonce = position.nonce
  side : position'.side = position.side
  entryPrice : position'.entryPrice = position.entryPrice
  openedAt : position'.openedAt = position.openedAt

theorem SameTerms.refl (position : Position) : SameTerms position position :=
  ⟨rfl, rfl, rfl, rfl, rfl, rfl⟩

theorem SameTerms.trans {p q r : Position} (h : SameTerms p q) (h' : SameTerms q r) :
    SameTerms p r :=
  ⟨h'.owner.trans h.owner, h'.feed.trans h.feed, h'.nonce.trans h.nonce,
    h'.side.trans h.side, h'.entryPrice.trans h.entryPrice, h'.openedAt.trans h.openedAt⟩

theorem SameTerms.retarget (position : Position)
    (stopPrice takeProfitPrice trailingOffset : UInt64) :
    SameTerms position (position.retarget stopPrice takeProfitPrice trailingOffset) := by
  rw [retarget_frame]
  exact ⟨rfl, rfl, rfl, rfl, rfl, rfl⟩

/-- No step changes the terms of an existing position. -/
theorem step_sameTerms {w : World} {action : Action} {key : Pubkey}
    {position position' : Position} (h : w.positions key = some position)
    (h' : (step rt w action).positions key = some position') :
    SameTerms position position' := by
  rcases step_effect rt w action with heffect | hsame
  · have hat := heffect.atPosition key
    rw [h, h'] at hat
    cases hat with
    | kept pays => exact .refl position
    | retargeted account heff => exact .retarget position _ _ _
    | ticked account heff => exact ⟨rfl, rfl, rfl, rfl, rfl, rfl⟩
    | settled account heff => exact ⟨rfl, rfl, rfl, rfl, rfl, rfl⟩
    | cancelled account heff => exact ⟨rfl, rfl, rfl, rfl, rfl, rfl⟩
    | delegated account heff => exact ⟨rfl, rfl, rfl, rfl, rfl, rfl⟩
    | undelegated account heff => exact ⟨rfl, rfl, rfl, rfl, rfl, rfl⟩
  · rw [hsame, h] at h'
    rw [← Option.some.inj h']
    exact .refl position

/-- The `open_position` that created a position, and the terms it fixed. -/
def OpenedAs (rt : Runtime) (key : Pubkey) (position : Position) (m : Moment) : Prop :=
  Succeeded rt m ∧ ∃ (tx : Tx) (accs : OpenPosition) (args : OpenPositionArgs)
    (feed : PriceFeed), m.action = .invoke tx (.openPosition accs args) ∧
    accs.position = key ∧ m.before.feeds accs.feed = some feed ∧
    position.owner = accs.owner ∧ position.nonce = args.nonce ∧
    position.feed = accs.feed ∧ position.side = args.side ∧
    position.entryPrice = feed.price ∧ position.openedAt = tx.unixTimestamp

theorem OpenedAs.sameTerms {rt : Runtime} {key : Pubkey} {position position' : Position}
    {m : Moment} (h : OpenedAs rt key position m) (hterms : SameTerms position position') :
    OpenedAs rt key position' m := by
  rcases h with ⟨hok, tx, accs, args, feed, haction, hkey, hfeed, howner, hnonce, hfeedKey,
    hside, hentry, hopened⟩
  exact ⟨hok, tx, accs, args, feed, haction, hkey, hfeed, hterms.owner.trans howner,
    hterms.nonce.trans hnonce, hterms.feed.trans hfeedKey, hterms.side.trans hside,
    hterms.entryPrice.trans hentry, hterms.openedAt.trans hopened⟩

/-- A step that brings a position into being opens it. -/
theorem openedAs_of_step {w : World} {action : Action} {key : Pubkey} {position : Position}
    (h : w.positions key = none)
    (h' : (step rt w action).positions key = some position) :
    OpenedAs rt key position ⟨w, action, step rt w action⟩ := by
  rcases step_cases rt w action with hok | hsame
  · have hat := (attempt_effect hok).atPosition key
    have hmoment : Succeeded rt ⟨w, action, step rt w action⟩ := hok
    rw [h, h'] at hat
    generalize step rt w action = w' at hat hmoment ⊢
    cases hat with
    | @opened tx accs args config feed rent bump _ account heff =>
        exact ⟨hmoment, tx, accs, args, feed, rfl, account, heff.feed_loaded, rfl, rfl, rfl,
          rfl, rfl, rfl⟩
  · rw [hsame, h] at h'
    contradiction

/-- Every position of a run was opened in it, on the terms it still has. -/
theorem openedAs_of_run {key : Pubkey} {position : Position}
    (h : (runFrom rt (World.genesis lamports) actions).positions key = some position) :
    ∃ m ∈ historyFrom rt (World.genesis lamports) actions, OpenedAs rt key position m := by
  induction actions using List.reverseRecOn generalizing position with
  | nil => contradiction
  | append_singleton earlier action ih =>
      rw [runFrom_snoc] at h
      rw [historyFrom_snoc]
      cases hbefore : (runFrom rt (World.genesis lamports) earlier).positions key with
      | none =>
          refine ⟨_, List.mem_append_right _ List.mem_cons_self, ?_⟩
          exact openedAs_of_step rt hbefore h
      | some before =>
          rcases ih hbefore with ⟨m, hm, hopened⟩
          have hterms := step_sameTerms rt hbefore h
          exact ⟨m, List.mem_append_left _ hm, hopened.sameTerms hterms⟩

theorem positions_persist_run {w : World} {key : Pubkey} {position : Position}
    (h : w.positions key = some position) (later : List Action) :
    ∃ position', (runFrom rt w later).positions key = some position' := by
  induction later generalizing w position with
  | nil => exact ⟨position, h⟩
  | cons action rest ih =>
      rcases positions_persist rt h action with ⟨position', hposition'⟩
      exact ih hposition'

theorem positions_persist_of_mem_history {w : World} {actions : List Action} {m : Moment}
    (hm : m ∈ historyFrom rt w actions) {key : Pubkey} {position : Position}
    (h : m.before.positions key = some position) :
    ∃ position', (runFrom rt w actions).positions key = some position' := by
  rcases (Transition.mem_trace_iff (step rt)).mp hm with
    ⟨earlier, later, hactions, hbefore, -⟩
  rw [hbefore] at h
  rw [hactions, runFrom, Transition.run_append]
  exact positions_persist_run rt h (m.action :: later)

/-- Opening needs an unused address and uses it. -/
theorem OpensAt.before_after {rt : Runtime} {key : Pubkey} {amount : Nat} {m : Moment}
    (h : OpensAt rt key amount m) :
    m.before.positions key = none ∧ ∃ position, m.after.positions key = some position := by
  rcases h with ⟨hok, tx, accs, args, haction, hkey, -⟩
  rw [Succeeded, haction] at hok
  subst hkey
  rcases attempt_effect hok with
    _ | _ | _ | _ | _ | _ | heff | _ | _ | _ | _ | _ | _ | _
  constructor
  · exact (World.views_of_unused heff.init.unused).2.2
  · exact ⟨_, by rw [heff.positions, Function.update_self]⟩

theorem Opens.opensAt {rt : Runtime} {owner : Pubkey} {nonce : UInt64} {m : Moment}
    (h : Opens rt owner nonce m) :
    ∃ amount, OpensAt rt (rt.positionAddress owner nonce) amount m := by
  rcases h with ⟨hok, tx, accs, args, haction, howner, hnonce⟩
  have heffect := hok
  rw [Succeeded, haction] at heffect
  rcases attempt_effect heffect with
    _ | _ | _ | _ | _ | _ | heff | _ | _ | _ | _ | _ | _ | _
  refine ⟨_, hok, tx, accs, args, haction, ?_, rfl⟩
  rw [← howner, ← hnonce]
  exact heff.init.address

/-- An address is opened at most once in a run. -/
theorem opensAt_once (key : Pubkey) :
    (historyFrom rt (World.genesis lamports) actions).Pairwise fun m m' =>
      ¬ ((∃ amount, OpensAt rt key amount m) ∧ ∃ amount, OpensAt rt key amount m') := by
  apply @Transition.trace_pairwise_once _ _ (step rt) (fun _ => True)
    (fun w => ∃ position, w.positions key = some position)
    (fun m => ∃ amount, OpensAt rt key amount m)
  · intro w action _
    trivial
  · rintro w action - ⟨position, hposition⟩
    exact positions_persist rt hposition action
  · rintro w action - ⟨amount, hopens⟩ ⟨position, hposition⟩
    have hunused := hopens.before_after.1
    rw [hposition] at hunused
    contradiction
  · rintro w action - ⟨amount, hopens⟩
    exact hopens.before_after.2
  · trivial

end Runs

end Hwal
