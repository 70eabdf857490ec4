/-
Transactions in another order.  A transaction names every account it touches and which of
them it may write, so that whoever schedules a block may reorder all transactions that do
not write what another one lists.  For this program's instructions that is safe: nothing
but the order of the event log tells such schedules apart.
-/
import Hwal.Locality
import Hwal.Transactions

namespace Hwal

open Guard Footprint

/-! ### What a transaction names -/

/-- The two accounts of every move another program makes. -/
def MessageInstruction.moved (ix : MessageInstruction) : List Pubkey :=
  ix.moves.flatMap fun move => [move.source, move.destination]

/-- Every account of the message. -/
def Transaction.accounts (transaction : Transaction) : List Pubkey :=
  transaction.instructions.flatMap fun ix => ix.accounts ++ ix.moved

/-- The accounts of the message that may be written. -/
def Transaction.written (transaction : Transaction) : List Pubkey :=
  transaction.instructions.flatMap fun ix =>
    ix.accounts.filter transaction.writable.contains ++ ix.moved

/-- One of them may write what the other one lists. -/
def Transaction.Conflicts (transaction other : Transaction) : Prop :=
  (∃ key ∈ transaction.written, key ∈ other.accounts) ∨
    ∃ key ∈ other.written, key ∈ transaction.accounts

instance (transaction other : Transaction) : Decidable (transaction.Conflicts other) :=
  decidable_of_iff (transaction.written.any other.accounts.contains ∨
    other.written.any transaction.accounts.contains) (by simp [Transaction.Conflicts])

theorem Transaction.written_listed {transaction : Transaction} {key : Pubkey}
    (h : key ∈ transaction.written) : key ∈ transaction.accounts := by
  rcases List.mem_flatMap.mp h with ⟨ix, hix, hkey⟩
  apply List.mem_flatMap.mpr
  refine ⟨ix, hix, ?_⟩
  rcases List.mem_append.mp hkey with hlisted | hmoved
  · exact List.mem_append_left _ (List.mem_filter.mp hlisted).1
  · exact List.mem_append_right _ hmoved

def Transaction.cells (transaction : Transaction) : Cells Pubkey where
  reads := {key | key ∈ transaction.accounts}
  writes := {key | key ∈ transaction.written}
  writes_read := fun _ h => Transaction.written_listed h

theorem Transaction.conflicts_of_not_apart {transaction other : Transaction}
    (h : ¬ transaction.cells.Apart other.cells) : transaction.Conflicts other := by
  by_contra hnone
  simp only [Transaction.Conflicts, not_or, not_exists, not_and] at hnone
  exact h hnone

/-! ### Its actions touch nothing else -/

/-- The accounts of a parsed call stand in front of those that came with it. -/
theorem accounts_of_parse {accounts : List Pubkey} {data : List UInt8} {ix : Instruction}
    (h : parseInstruction accounts data = some ix) :
    ∃ extra, accounts = ix.accounts ++ extra := by
  rcases parseInstruction_eq_some_iff.mp h with ⟨method, accs, args, rfl, ⟨extra, rfl⟩, -⟩
  refine ⟨extra, ?_⟩
  cases method <;> rfl

theorem listed_of_mem_actions {ix : MessageInstruction} {tx : Tx} {actions : List Action}
    (h : ix.actions tx = some actions) {action : Action} (haction : action ∈ actions)
    (key : Pubkey) :
    (key ∈ action.accounts → key ∈ ix.accounts ++ ix.moved) ∧
      (key ∈ action.writable → key ∈ ix.accounts.filter tx.writable.contains ++ ix.moved) := by
  unfold MessageInstruction.actions at h
  split at h
  · rcases Option.map_eq_some_iff.mp h with ⟨call, hparse, rfl⟩
    obtain rfl := List.mem_singleton.mp haction
    rcases accounts_of_parse hparse with ⟨extra, hextra⟩
    have hsub : call.accounts ⊆ ix.accounts := by
      rw [hextra]
      exact List.subset_append_left _ _
    constructor
    · intro hkey
      exact List.mem_append_left _ (hsub hkey)
    · intro hkey
      rcases List.mem_filter.mp hkey with ⟨hlisted, hwritable⟩
      exact List.mem_append_left _ (List.mem_filter.mpr ⟨hsub hlisted, hwritable⟩)
  · split at h
    · obtain rfl := Option.some.inj h
      contradiction
    · obtain rfl := Option.some.inj h
      rcases List.mem_map.mp haction with ⟨move, hmove, rfl⟩
      have hmoved : key ∈ [move.source, move.destination] → key ∈ ix.moved := by
        intro hkey
        exact List.mem_flatMap.mpr ⟨move, hmove, hkey⟩
      exact ⟨fun hkey => List.mem_append_right _ (hmoved hkey),
        fun hkey => List.mem_append_right _ (hmoved hkey)⟩

theorem listed_of_mem_actionsFrom {transaction : Transaction} {index : Nat}
    {instructions : List MessageInstruction} {actions : List Action}
    (h : transaction.actionsFrom index instructions = some actions) {action : Action}
    (haction : action ∈ actions) {key : Pubkey} :
    (key ∈ action.accounts → key ∈ instructions.flatMap fun ix => ix.accounts ++ ix.moved) ∧
      (key ∈ action.writable → key ∈ instructions.flatMap fun ix =>
        ix.accounts.filter transaction.writable.contains ++ ix.moved) := by
  induction instructions generalizing index actions with
  | nil =>
      obtain rfl := Option.some.inj h
      contradiction
  | cons ix rest ih =>
      simp only [Transaction.actionsFrom, Option.bind_eq_bind, Option.bind_eq_some_iff,
        Option.pure_def, Option.some.injEq] at h
      rcases h with ⟨first, hfirst, others, hothers, rfl⟩
      simp only [List.flatMap_cons]
      rcases List.mem_append.mp haction with hmem | hmem
      · have hlisted := listed_of_mem_actions hfirst hmem key
        exact ⟨fun hkey => List.mem_append_left _ (hlisted.1 hkey),
          fun hkey => List.mem_append_left _ (hlisted.2 hkey)⟩
      · have hlisted := ih hothers hmem
        exact ⟨fun hkey => List.mem_append_right _ (hlisted.1 hkey),
          fun hkey => List.mem_append_right _ (hlisted.2 hkey)⟩

/-- A transaction with its verdict: nothing to say where it does not read as actions or may
not run at all, else the first error. -/
def attemptTransaction (rt : Runtime) (w : World) (transaction : Transaction) :
    Except (Option ProgramError) World :=
  match transaction.actions rt with
  | none => .error none
  | some actions => (actions.foldlM (attempt rt) w).mapError some

theorem after_attemptTransaction (rt : Runtime) (w : World) (transaction : Transaction) :
    after (attemptTransaction rt) w transaction = transactionStep rt w transaction := by
  unfold after attemptTransaction transactionStep Transition.commit
  cases transaction.actions rt with
  | none => rfl
  | some actions =>
      dsimp only
      cases actions.foldlM (attempt rt) w with
      | ok w' => rfl
      | error error => rfl

theorem attemptTransaction_local {rt : Runtime} (hcpi : DelegationLocal rt)
    (transaction : Transaction) :
    Local worldView (fun w => attemptTransaction rt w transaction) transaction.cells := by
  unfold attemptTransaction
  cases hactions : transaction.actions rt with
  | none => exact ⟨fun _ => .error none, fun h => nomatch h⟩
  | some actions =>
      have hread : transaction.actionsFrom 0 transaction.instructions = some actions := by
        unfold Transaction.actions at hactions
        split at hactions
        · exact hactions
        · contradiction
      apply Local.mapError
      apply Local.foldlM
      intro action haction
      apply (attempt_local hcpi action).mono
      · exact fun key hkey => (listed_of_mem_actionsFrom hread haction).1 hkey
      · exact fun key hkey => (listed_of_mem_actionsFrom hread haction).2 hkey

/-! ### Schedules -/

section Schedules

variable {ι : Type}

/-- What became of each transaction, run in this order. -/
def results (rt : Runtime) (transaction : ι → Transaction) (w : World) (order : List ι) :
    List (ι × Option (Option ProgramError)) :=
  verdicts (fun w i => attemptTransaction rt w (transaction i)) w order

theorem foldl_after (rt : Runtime) (transaction : ι → Transaction) (w : World)
    (order : List ι) :
    order.foldl (after fun w i => attemptTransaction rt w (transaction i)) w =
      Transition.run (transactionStep rt) w (order.map transaction) := by
  rw [Transition.run, List.foldl_map]
  congr 1
  funext v i
  exact after_attemptTransaction rt v (transaction i)

/-- Any transactions, this program's instructions mixed with those of others, scheduled in
two orders that agree on every pair of which one may write what the other one lists: both
leave every account with the same lamports and the same data, every transaction ends with
the same result down to the error, and the same events are emitted. -/
theorem schedules_agree {rt : Runtime} (hcpi : DelegationLocal rt) (w : World)
    (transaction : ι → Transaction) {order order' : List ι} (hperm : order.Perm order')
    (hnodup : order.Nodup)
    (hkeeps : ∀ i j, (transaction i).Conflicts (transaction j) →
      [i, j].Sublist order → [i, j].Sublist order') :
    let w' := Transition.run (transactionStep rt) w (order.map transaction)
    let w'' := Transition.run (transactionStep rt) w (order'.map transaction)
    w'.lamports = w''.lamports ∧ w'.accounts = w''.accounts ∧
      (results rt transaction w order).Perm (results rt transaction w order') ∧
      ∃ events events', w'.log = w.log ++ events ∧ w''.log = w.log ++ events' ∧
        events.Perm events' := by
  intro w' w''
  have hlocal (i : ι) : Local worldView
      (fun w => attemptTransaction rt w (transaction i)) (transaction i).cells :=
    attemptTransaction_local hcpi (transaction i)
  have hsame := sameRun_of_keeps hlocal hperm hnodup
    (fun i j hconflict => hkeeps i j (Transaction.conflicts_of_not_apart hconflict)) w
  rcases hsame with ⟨hcell, hverdicts, houtput⟩
  simp only [foldl_after] at hcell houtput
  refine ⟨?_, ?_, hverdicts, houtput⟩
  · funext key
    exact (Prod.mk.inj (hcell key)).1
  · funext key
    exact (Prod.mk.inj (hcell key)).2

section Concurrent

open Localnet

theorem delegationLocal_cluster : DelegationLocal cluster where
  depends _ _ _ _ h := .some h
  keeps hcall key hchanged := absurd (congrFun (Option.some.inj hcall).symm key) hchanged

/-- A new price, other triggers and a tick, each from its own wallet. -/
def concurrent : Fin 3 → Transaction
  | 0 => ⟨[feedAuthority], [feedAuthority, Localnet.feed], 1004,
      [⟨hwalProgramId, [feedAuthority, Localnet.feed],
        Method.updatePriceFeed.data (80000000 : UInt64), []⟩]⟩
  | 1 => ⟨[alice], [alice, Localnet.position], 1004,
      [⟨hwalProgramId, [alice, Localnet.position],
        Method.updateTriggers.data (95000000, 0, 0), []⟩]⟩
  | 2 => ⟨[keeper], [keeper, Localnet.config, Localnet.position, alice, feeReceiver], 1005,
      [⟨hwalProgramId,
        [keeper, Localnet.config, Localnet.feed, Localnet.position, alice, feeReceiver],
        Method.tickPosition.data (), []⟩]⟩

/-- The price and the triggers may change places, the tick has to wait for both. -/
theorem schedules_agree_concurrent :
    let w := runFrom cluster (World.genesis funds) (launch ++ [deposit])
    let w' := Transition.run (transactionStep cluster) w ([0, 1, 2].map concurrent)
    let w'' := Transition.run (transactionStep cluster) w ([1, 0, 2].map concurrent)
    (results cluster concurrent w [0, 1, 2]).map Prod.snd = [none, none, none] ∧
      w'.lamports = w''.lamports ∧ w'.accounts = w''.accounts ∧
      (results cluster concurrent w [0, 1, 2]).Perm
        (results cluster concurrent w [1, 0, 2]) ∧
      ∃ events events', w'.log = w.log ++ events ∧ w''.log = w.log ++ events' ∧
        events.Perm events' := by
  have hdone : (results cluster concurrent
      (runFrom cluster (World.genesis funds) (launch ++ [deposit])) [0, 1, 2]).map Prod.snd =
        [none, none, none] := by decide +kernel
  have hapart : ¬ (concurrent 0).Conflicts (concurrent 1) := by decide +kernel
  have hkeeps : ∀ i j : Fin 3, [i, j].Sublist [0, 1, 2] →
      i = 0 ∧ j = 1 ∨ [i, j].Sublist [1, 0, 2] := by decide
  refine ⟨hdone, schedules_agree delegationLocal_cluster _ concurrent (.swap _ _ _)
    (by decide) ?_⟩
  intro i j hconflict hbefore
  rcases hkeeps i j hbefore with ⟨rfl, rfl⟩ | hafter
  · exact absurd hconflict hapart
  · exact hafter

end Concurrent

/-- Over any transactions, an account that none of them passes as writable keeps its
lamports and its data. -/
theorem only_writable_change {rt : Runtime} (hcpi : DelegationLocal rt) (w : World)
    {transactions : List Transaction} {key : Pubkey}
    (hkey : ∀ transaction ∈ transactions, key ∉ transaction.written) :
    let w' := Transition.run (transactionStep rt) w transactions
    w'.lamports key = w.lamports key ∧ w'.accounts key = w.accounts key := by
  intro w'
  have hframe := run_frame (attemptTransaction_local hcpi) (s := w) hkey
  have hrun := foldl_after rt id w transactions
  simp only [id, List.map_id] at hrun
  rw [hrun] at hframe
  exact Prod.mk.inj hframe

/-- A price and new triggers leave the config alone. -/
theorem only_writable_change_concurrent :
    let w := runFrom Localnet.cluster (World.genesis Localnet.funds)
      (Localnet.launch ++ [Localnet.deposit])
    let w' := Transition.run (transactionStep Localnet.cluster) w [concurrent 0, concurrent 1]
    w'.lamports Localnet.config = w.lamports Localnet.config ∧
      w'.accounts Localnet.config = w.accounts Localnet.config :=
  only_writable_change delegationLocal_cluster _ (by decide +kernel)

end Schedules

end Hwal
