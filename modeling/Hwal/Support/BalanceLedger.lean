/-
Balances over an arbitrary type of accounts.  A list of transfers has an exact
pointwise effect over the integers, whatever accounts coincide, and therefore
keeps the total.  The executable move below is the checked read-modify-write
of two balances, and its effect is that of the one transfer.
-/
import Mathlib.Algebra.BigOperators.Group.Finset.Basic
import Mathlib.Algebra.BigOperators.Group.Finset.Piecewise
import Mathlib.Algebra.BigOperators.Ring.Finset
import Mathlib.Algebra.Order.BigOperators.Group.Finset
import Hwal.Support.CheckedArithmetic

namespace Ledger

universe u

variable {K : Type u}

/-- One movement of `amount` between two accounts, possibly the same one. -/
structure Transfer (K : Type u) where
  src : K
  dst : K
  amount : Nat
deriving Repr

section Effect

variable [DecidableEq K]

/-- What one transfer adds to the balance of `k`. -/
def Transfer.delta (t : Transfer K) (k : K) : Int :=
  (if k = t.dst then (t.amount : Int) else 0) - (if k = t.src then (t.amount : Int) else 0)

/-- What a list of transfers adds to the balance of `k`. -/
def netDelta (ts : List (Transfer K)) (k : K) : Int :=
  (ts.map fun t => t.delta k).sum

@[simp] theorem netDelta_nil (k : K) : netDelta ([] : List (Transfer K)) k = 0 := rfl

@[simp] theorem netDelta_cons (t : Transfer K) (ts : List (Transfer K)) (k : K) :
    netDelta (t :: ts) k = t.delta k + netDelta ts k := by
  simp [netDelta]

theorem netDelta_append (ts us : List (Transfer K)) (k : K) :
    netDelta (ts ++ us) k = netDelta ts k + netDelta us k := by
  simp [netDelta]

theorem Transfer.delta_dst {t : Transfer K} (h : t.dst ≠ t.src) :
    t.delta t.dst = t.amount := by
  simp [Transfer.delta, h]

theorem Transfer.delta_nonneg {t : Transfer K} {k : K} (h : k ≠ t.src) : 0 ≤ t.delta k := by
  simp only [Transfer.delta, h, ↓reduceIte, Int.sub_zero]
  split <;> omega

/-- An account that is the source of no transfer loses nothing. -/
theorem netDelta_nonneg {ts : List (Transfer K)} {k : K} (h : ∀ t ∈ ts, k ≠ t.src) :
    0 ≤ netDelta ts k := by
  induction ts with
  | nil => simp
  | cons t ts ih =>
      have hhead := Transfer.delta_nonneg (h t List.mem_cons_self)
      have htail := ih fun u hu => h u (List.mem_cons_of_mem t hu)
      rw [netDelta_cons]
      omega

/-- `B'` is `B` after exactly these transfers. -/
def Moved (ts : List (Transfer K)) (B B' : K → UInt64) : Prop :=
  ∀ k, ((B' k).toNat : Int) = (B k).toNat + netDelta ts k

theorem Moved.nil (B : K → UInt64) : Moved [] B B := by
  intro k
  simp

theorem Moved.append {ts us : List (Transfer K)} {B B' B'' : K → UInt64}
    (h : Moved ts B B') (h' : Moved us B' B'') : Moved (ts ++ us) B B'' := by
  intro k
  rw [netDelta_append, h' k, h k]
  omega

theorem Moved.cons {t : Transfer K} {us : List (Transfer K)} {B B' B'' : K → UInt64}
    (h : Moved [t] B B') (h' : Moved us B' B'') : Moved (t :: us) B B'' :=
  h.append h'

/-- The balances after given transfers are determined. -/
theorem Moved.unique {ts : List (Transfer K)} {B B' B'' : K → UInt64}
    (h : Moved ts B B') (h' : Moved ts B B'') : B' = B'' := by
  funext k
  have hk : ((B' k).toNat : Int) = (B'' k).toNat := by rw [h k, h' k]
  exact UInt64.toNat_inj.mp (by omega)

/-- Balances only grow where no transfer starts. -/
theorem Moved.le_of_not_src {ts : List (Transfer K)} {B B' : K → UInt64} {k : K}
    (h : Moved ts B B') (hsrc : ∀ t ∈ ts, k ≠ t.src) : (B k).toNat ≤ (B' k).toNat := by
  have hdelta := netDelta_nonneg hsrc
  have hk := h k
  omega

/-- Balances no transfer mentions stay as they are. -/
theorem Moved.eq_of_untouched {ts : List (Transfer K)} {B B' : K → UInt64} {k : K}
    (h : Moved ts B B') (hk : ∀ t ∈ ts, k ≠ t.src ∧ k ≠ t.dst) : B' k = B k := by
  have hzero : netDelta ts k = 0 := by
    apply List.sum_eq_zero
    intro delta hdelta
    rcases List.mem_map.mp hdelta with ⟨t, ht, rfl⟩
    simp [Transfer.delta, hk t ht]
  have hbalance := h k
  rw [hzero, Int.add_zero] at hbalance
  exact UInt64.toNat_inj.mp (by exact_mod_cast hbalance)

end Effect

/-! ### The total -/

/-- No finite set of accounts holds more than `cap` together. -/
def SupplyAtMost (cap : Nat) (B : K → UInt64) : Prop :=
  ∀ S : Finset K, ∑ k ∈ S, (B k).toNat ≤ cap

theorem SupplyAtMost.pair_le [DecidableEq K] {cap : Nat} {B : K → UInt64}
    (h : SupplyAtMost cap B) {a b : K} (hne : a ≠ b) :
    (B a).toNat + (B b).toNat ≤ cap := by
  have hpair := h {a, b}
  rwa [Finset.sum_pair hne] at hpair

theorem Transfer.sum_delta [DecidableEq K] {t : Transfer K} {S : Finset K}
    (hsrc : t.src ∈ S) (hdst : t.dst ∈ S) : ∑ k ∈ S, t.delta k = 0 := by
  simp only [Transfer.delta, Finset.sum_sub_distrib, Finset.sum_ite_eq', hsrc, hdst,
    ↓reduceIte, Int.sub_self]

theorem sum_netDelta [DecidableEq K] {ts : List (Transfer K)} {S : Finset K}
    (h : ∀ t ∈ ts, t.src ∈ S ∧ t.dst ∈ S) : ∑ k ∈ S, netDelta ts k = 0 := by
  induction ts with
  | nil => simp
  | cons t ts ih =>
      have hhead := h t List.mem_cons_self
      have htail := ih fun u hu => h u (List.mem_cons_of_mem t hu)
      simp only [netDelta_cons, Finset.sum_add_distrib, htail, Int.add_zero]
      exact Transfer.sum_delta hhead.1 hhead.2

/-- The accounts a list of transfers touches. -/
def touched [DecidableEq K] (ts : List (Transfer K)) : Finset K :=
  (ts.map Transfer.src ++ ts.map Transfer.dst).toFinset

theorem mem_touched [DecidableEq K] {ts : List (Transfer K)} {t : Transfer K} (h : t ∈ ts) :
    t.src ∈ touched ts ∧ t.dst ∈ touched ts := by
  simp only [touched, List.mem_toFinset, List.mem_append, List.mem_map]
  exact ⟨Or.inl ⟨t, h, rfl⟩, Or.inr ⟨t, h, rfl⟩⟩

/-- Transfers keep the total over every set that contains the accounts they touch. -/
theorem Moved.sum_eq [DecidableEq K] {ts : List (Transfer K)} {B B' : K → UInt64}
    (h : Moved ts B B') {S : Finset K} (hS : touched ts ⊆ S) :
    ∑ k ∈ S, (B' k).toNat = ∑ k ∈ S, (B k).toNat := by
  have hint : ∑ k ∈ S, ((B' k).toNat : Int) = ∑ k ∈ S, ((B k).toNat : Int) := by
    have hzero : ∑ k ∈ S, netDelta ts k = 0 :=
      sum_netDelta fun t ht => ⟨hS (mem_touched ht).1, hS (mem_touched ht).2⟩
    simp only [h _, Finset.sum_add_distrib, hzero, Int.add_zero]
  exact_mod_cast hint

/-- A supply bound survives every list of transfers. -/
theorem SupplyAtMost.moved [DecidableEq K] {cap : Nat} {ts : List (Transfer K)}
    {B B' : K → UInt64} (h : SupplyAtMost cap B) (hmoved : Moved ts B B') :
    SupplyAtMost cap B' := by
  intro S
  calc ∑ k ∈ S, (B' k).toNat
      ≤ ∑ k ∈ S ∪ touched ts, (B' k).toNat :=
        Finset.sum_le_sum_of_subset Finset.subset_union_left
    _ = ∑ k ∈ S ∪ touched ts, (B k).toNat := hmoved.sum_eq Finset.subset_union_right
    _ ≤ cap := h _

/-! ### The checked move -/

/-- Debit, then credit what the debit left: the order matters only when the two
accounts are one. -/
def move? [DecidableEq K] (B : K → UInt64) (src dst : K) (amount : UInt64) :
    Option (K → UInt64) :=
  match (B src).checkedSub amount with
  | none => none
  | some debited =>
      match (Function.update B src debited dst).checkedAdd amount with
      | none => none
      | some credited => some (Function.update (Function.update B src debited) dst credited)

theorem move?_eq_some [DecidableEq K] {B B' : K → UInt64} {src dst : K} {amount : UInt64}
    (h : move? B src dst amount = some B') :
    amount.toNat ≤ (B src).toNat ∧ Moved [⟨src, dst, amount.toNat⟩] B B' := by
  unfold move? at h
  split at h
  · contradiction
  · rename_i debited hdebit
    split at h
    · contradiction
    · rename_i credited hcredit
      have hsub := UInt64.checkedSub_eq_some_iff.mp hdebit
      have hadd := UInt64.checkedAdd_eq_some_iff.mp hcredit
      obtain rfl := Option.some.inj h
      refine ⟨by omega, fun k => ?_⟩
      simp only [netDelta_cons, netDelta_nil, Transfer.delta, Int.add_zero]
      by_cases hdst : k = dst
      · subst hdst
        by_cases hsrc : k = src
        · subst hsrc
          simp only [Function.update_self, ↓reduceIte] at hadd ⊢
          omega
        · simp only [Function.update_self, Function.update_of_ne hsrc, hsrc,
            ↓reduceIte] at hadd ⊢
          omega
      · by_cases hsrc : k = src
        · subst hsrc
          simp only [Function.update_of_ne hdst, Function.update_self, hdst, ↓reduceIte]
          omega
        · simp only [Function.update_of_ne hdst, Function.update_of_ne hsrc, hdst, hsrc,
            ↓reduceIte]
          omega

/-- The move looks at two balances only. -/
theorem move?_eqOn [DecidableEq K] {keys : Set K} {B B' : K → UInt64} {src dst : K}
    (hsrc : src ∈ keys) (hdst : dst ∈ keys) (amount : UInt64) (h : Set.EqOn B B' keys) :
    Option.Rel (fun C C' => Set.EqOn C C' keys) (move? B src dst amount)
      (move? B' src dst amount) := by
  have hupdate {C C' : K → UInt64} (hC : Set.EqOn C C' keys) (key : K) (value : UInt64) :
      Set.EqOn (Function.update C key value) (Function.update C' key value) keys := by
    intro k hk
    by_cases hkey : k = key
    · subst hkey
      rw [Function.update_self, Function.update_self]
    · rw [Function.update_of_ne hkey, Function.update_of_ne hkey, hC hk]
  unfold move?
  rw [h hsrc]
  cases (B' src).checkedSub amount with
  | none => exact .none
  | some debited =>
      have hdebited := hupdate h src debited
      simp only [hdebited hdst]
      cases (Function.update B' src debited dst).checkedAdd amount with
      | none => exact .none
      | some credited => exact .some (hupdate hdebited dst credited)

/-- Under a supply bound that fits the balance type no credit can overflow, so a
covered move always goes through. -/
theorem exists_move? [DecidableEq K] {B : K → UInt64} {src : K} (dst : K) {amount : UInt64}
    (hsupply : SupplyAtMost (2 ^ 64 - 1) B) (hcover : amount.toNat ≤ (B src).toNat) :
    ∃ B', move? B src dst amount = some B' := by
  obtain ⟨debited, hdebit⟩ : ∃ d, (B src).checkedSub amount = some d := by
    refine Option.ne_none_iff_exists'.mp fun hnone => ?_
    have := UInt64.checkedSub_eq_none_iff.mp hnone
    omega
  have hsub := UInt64.checkedSub_eq_some_iff.mp hdebit
  obtain ⟨credited, hcredit⟩ :
      ∃ c, (Function.update B src debited dst).checkedAdd amount = some c := by
    refine Option.ne_none_iff_exists'.mp fun hnone => ?_
    have hover := UInt64.checkedAdd_eq_none_iff.mp hnone
    by_cases hdst : dst = src
    · subst hdst
      have hlt := (B dst).toNat_lt
      simp only [Function.update_self] at hover
      omega
    · have hpair := hsupply.pair_le hdst
      simp only [Function.update_of_ne hdst] at hover
      omega
  exact ⟨_, by simp only [move?, hdebit, hcredit]; rfl⟩

end Ledger
