/-
Totals over a book: a finite set of keys, each with at most one entry.  Opening
an entry adds its amount to a total, and rewriting one exchanges the amounts.
-/
import Mathlib.Algebra.BigOperators.Group.Finset.Basic
import Mathlib.Algebra.BigOperators.Group.Finset.Piecewise

namespace Tally

universe u v

variable {K : Type u} {V : Type v}

/-- The total of an amount over the entries of a book. -/
def total (keys : Finset K) (amount : V → Nat) (book : K → Option V) : Nat :=
  ∑ k ∈ keys, (book k).elim 0 amount

section Books

variable {keys : Finset K} {amount : V → Nat} {book : K → Option V}

/-- Two books with the same amount at every key have the same total. -/
theorem total_congr {W : Type _} {amount' : W → Nat} {book' : K → Option W}
    (h : ∀ k ∈ keys, (book k).elim 0 amount = (book' k).elim 0 amount') :
    total keys amount book = total keys amount' book' :=
  Finset.sum_congr rfl h

/-- Amounts add up key by key. -/
theorem total_add (amount' : V → Nat) :
    total keys (fun v => amount v + amount' v) book =
      total keys amount book + total keys amount' book := by
  rw [total, total, total, ← Finset.sum_add_distrib]
  apply Finset.sum_congr rfl
  intro k _
  cases book k with
  | none => rfl
  | some v => rfl

variable [DecidableEq K]

/-- A new entry adds its amount. -/
theorem total_insert {k : K} (hnew : k ∉ keys) (v : V) :
    total (insert k keys) amount (Function.update book k (some v)) =
      total keys amount book + amount v := by
  have hrest : ∑ x ∈ keys, (Function.update book k (some v) x).elim 0 amount =
      ∑ x ∈ keys, (book x).elim 0 amount := by
    apply Finset.sum_congr rfl
    intro x hx
    have hne : x ≠ k := fun heq => hnew (heq ▸ hx)
    rw [Function.update_of_ne hne]
  rw [total, Finset.sum_insert hnew, hrest, Function.update_self, total, Option.elim_some,
    Nat.add_comm]

/-- Rewriting an entry exchanges its amount. -/
theorem total_update {k : K} (hk : k ∈ keys) {v : V} (hv : book k = some v) (v' : V) :
    total keys amount (Function.update book k (some v')) + amount v =
      total keys amount book + amount v' := by
  have hrest : ∑ x ∈ keys.erase k, (Function.update book k (some v') x).elim 0 amount =
      ∑ x ∈ keys.erase k, (book x).elim 0 amount := by
    apply Finset.sum_congr rfl
    intro x hx
    rw [Function.update_of_ne (Finset.ne_of_mem_erase hx)]
  have hbefore := Finset.sum_erase_add keys (fun x => (book x).elim 0 amount) hk
  have hafter := Finset.sum_erase_add keys
    (fun x => (Function.update book k (some v') x).elim 0 amount) hk
  simp only [Function.update_self, hv, Option.elim_some] at hbefore hafter
  rw [total, total, ← hbefore, ← hafter, hrest]
  omega

end Books

/-- Counting entries is totalling ones. -/
theorem card_filter_eq_total (keys : Finset K) (p : V → Bool) (book : K → Option V) :
    (keys.filter fun k => (book k).any p = true).card =
      total keys (fun v => if p v = true then 1 else 0) book := by
  rw [Finset.card_filter, total]
  apply Finset.sum_congr rfl
  intro k _
  cases book k with
  | none => rfl
  | some v => rfl

/-- When every key has an entry, the entries are as many as the keys. -/
theorem card_eq_total {keys : Finset K} {book : K → Option V}
    (h : ∀ k ∈ keys, ∃ v, book k = some v) : keys.card = total keys (fun _ => 1) book := by
  rw [Finset.card_eq_sum_ones, total]
  apply Finset.sum_congr rfl
  intro k hk
  rcases h k hk with ⟨v, hv⟩
  rw [hv]
  rfl

end Tally
