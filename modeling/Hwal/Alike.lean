/-
Two worlds that differ in one position record at most.  Every instruction that is not
given this position does the same in both, and they still differ in nothing else.
-/
import Hwal.InstructionCoupling

namespace Hwal

open Guard

/-! ### Alike but for one record -/

/-- The same account, or two positions related by `R`. -/
inductive AlikeAt (R : Position → Position → Prop) :
    Option ProgramAccount → Option ProgramAccount → Prop where
  | same (account) : AlikeAt R account account
  | positions {p q} (h : R p q) : AlikeAt R (some (.position p)) (some (.position q))

structure AlikeBut (R : Position → Position → Prop) (key : Pubkey) (w v : World) : Prop where
  lamports : v.lamports = w.lamports
  elsewhere : ∀ k, k ≠ key → v.accounts k = w.accounts k
  at_key : AlikeAt R (w.accounts key) (v.accounts key)

namespace AlikeBut

variable {R : Position → Position → Prop} {key : Pubkey} {w v : World}

theorem refl (R : Position → Position → Prop) (key : Pubkey) (w : World) :
    AlikeBut R key w w :=
  ⟨rfl, fun _ _ => rfl, .same _⟩

/-! #### The same writes keep two worlds alike -/

theorem withLamports (h : AlikeBut R key w v) (lamports : Lamports) :
    AlikeBut R key (w.withLamports lamports) (v.withLamports lamports) :=
  ⟨rfl, h.elsewhere, h.at_key⟩

theorem emit (h : AlikeBut R key w v) (event event' : Event) :
    AlikeBut R key (w.emit event) (v.emit event') :=
  ⟨h.lamports, h.elsewhere, h.at_key⟩

theorem store (h : AlikeBut R key w v) (k : Pubkey) (account : ProgramAccount) :
    AlikeBut R key (w.store k account) (v.store k account) := by
  constructor
  case lamports => exact h.lamports
  case elsewhere =>
    intro other hother
    by_cases hk : other = k
    · simp [World.store, hk]
    · simp [World.store, hk, h.elsewhere other hother]
  case at_key =>
    by_cases hk : key = k
    · subst hk
      simp only [World.store, Function.update_self]
      exact .same _
    · simp only [World.store, Function.update_of_ne hk]
      exact h.at_key

theorem store_position (h : AlikeBut R key w v) {p q : Position} (hpq : R p q) :
    AlikeBut R key (w.store key (.position p)) (v.store key (.position q)) := by
  constructor
  case lamports => exact h.lamports
  case elsewhere =>
    intro other hother
    simp [World.store, hother, h.elsewhere other hother]
  case at_key =>
    simp only [World.store, Function.update_self]
    exact .positions hpq

/-! #### A write to the one record on one side only -/

theorem store_left (h : AlikeBut R key w v) {p q : Position}
    (hq : v.accounts key = some (.position q)) (hpq : R p q) :
    AlikeBut R key (w.store key (.position p)) v := by
  constructor
  case lamports => exact h.lamports
  case elsewhere =>
    intro other hother
    simp [World.store, hother, h.elsewhere other hother]
  case at_key =>
    rw [hq]
    simp only [World.store, Function.update_self]
    exact .positions hpq

theorem store_right (h : AlikeBut R key w v) {p q : Position}
    (hp : w.accounts key = some (.position p)) (hpq : R p q) :
    AlikeBut R key w (v.store key (.position q)) := by
  constructor
  case lamports => exact h.lamports
  case elsewhere =>
    intro other hother
    simp [World.store, hother, h.elsewhere other hother]
  case at_key =>
    rw [hp]
    simp only [World.store, Function.update_self]
    exact .positions hpq

theorem emit_left (h : AlikeBut R key w v) (event : Event) : AlikeBut R key (w.emit event) v :=
  ⟨h.lamports, h.elsewhere, h.at_key⟩

theorem emit_right (h : AlikeBut R key w v) (event : Event) :
    AlikeBut R key w (v.emit event) :=
  ⟨h.lamports, h.elsewhere, h.at_key⟩

/-! #### The same reads -/

theorem at_cases (h : AlikeBut R key w v) : v.accounts key = w.accounts key ∨
    ∃ p q, w.accounts key = some (.position p) ∧ v.accounts key = some (.position q) ∧
      R p q := by
  have hat := h.at_key
  generalize w.accounts key = account at hat ⊢
  generalize v.accounts key = account' at hat ⊢
  cases hat with
  | same => exact Or.inl rfl
  | positions hpq => exact Or.inr ⟨_, _, rfl, rfl, hpq⟩

theorem notOwned (h : AlikeBut R key w v) (k : Pubkey) : v.notOwned k = w.notOwned k := by
  rw [World.notOwned, World.notOwned, h.lamports]

theorem loadConfig (h : AlikeBut R key w v) (k : Pubkey) : v.loadConfig k = w.loadConfig k := by
  unfold World.loadConfig
  rw [h.notOwned]
  by_cases hk : k = key
  · rw [hk]
    rcases h.at_cases with hsame | ⟨p, q, hw, hv, -⟩
    · rw [hsame]
    · rw [hw, hv]
  · rw [h.elsewhere k hk]

theorem loadPriceFeed (h : AlikeBut R key w v) (k : Pubkey) :
    v.loadPriceFeed k = w.loadPriceFeed k := by
  unfold World.loadPriceFeed
  rw [h.notOwned]
  by_cases hk : k = key
  · rw [hk]
    rcases h.at_cases with hsame | ⟨p, q, hw, hv, -⟩
    · rw [hsame]
    · rw [hw, hv]
  · rw [h.elsewhere k hk]

theorem loadPosition_of_ne (h : AlikeBut R key w v) {k : Pubkey} (hk : k ≠ key) :
    v.loadPosition k = w.loadPosition k := by
  unfold World.loadPosition
  rw [h.notOwned, h.elsewhere k hk]

theorem loadPosition (h : AlikeBut R key w v) (hrefl : ∀ p, R p p) :
    Coupled R (w.loadPosition key) (v.loadPosition key) := by
  unfold World.loadPosition
  rw [h.notOwned]
  rcases h.at_cases with hsame | ⟨p, q, hw, hv, hpq⟩
  · rw [hsame]
    exact Coupled.refl hrefl _
  · rw [hw, hv]
    exact .ok hpq

theorem unused_iff (h : AlikeBut R key w v) (k : Pubkey) :
    v.accounts k = none ↔ w.accounts k = none := by
  by_cases hk : k = key
  · rw [hk]
    rcases h.at_cases with hsame | ⟨p, q, hw, hv, -⟩
    · rw [hsame]
    · simp [hw, hv]
  · rw [h.elsewhere k hk]

theorem sameReads (h : AlikeBut R key w v) {ix : Instruction} (hix : ¬ ix.ActsOn key) :
    SameReads ix w v := by
  constructor
  case config => exact fun k _ => h.loadConfig k
  case feed => exact fun k _ => h.loadPriceFeed k
  case position =>
    intro k hk
    apply h.loadPosition_of_ne
    rintro rfl
    exact hix hk
  case unused => exact fun k _ => h.unused_iff k

theorem keptByWrites (R : Position → Position → Prop) (key : Pubkey) :
    KeptByWrites Eq (AlikeBut R key) where
  withLamports := by
    rintro w v lamports _ h rfl
    exact h.withLamports lamports
  store h k account := h.store k account
  emit h event := h.emit event event

end AlikeBut

section Actions

variable {R : Position → Position → Prop} {key : Pubkey} {w v : World} {rt : Runtime} {tx : Tx}

/-- A deposit goes through alike even at the address itself: there it needs an account that
is unused in both. -/
theorem execute_alike (h : AlikeBut R key w v) {ix : Instruction} (hix : ¬ ix.ActsOn key) :
    Coupled (AlikeBut R key) (execute rt w tx ix) (execute rt v tx ix) :=
  execute_coupled (AlikeBut.keptByWrites R key) h h.lamports.symm (.eq rt tx ix.accounts)
    (h.sameReads hix)

theorem transfer_alike (h : AlikeBut R key w v) (src dst : Pubkey) (amount : UInt64) :
    Coupled (AlikeBut R key) (attempt rt w (.transfer src dst amount))
      (attempt rt v (.transfer src dst amount)) := by
  apply transfer_coupled (coupled_eq (by rw [h.lamports]))
  rintro lamports _ rfl
  exact h.withLamports lamports

end Actions

end Hwal
