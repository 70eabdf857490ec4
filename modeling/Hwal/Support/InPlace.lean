/-
Calls that change a state in place and may end early, with an error they name or by a
panic.  An early end keeps whatever was written before it; a call that makes all its
writes after its last check is one that checks first and then writes.
-/
import Hwal.Support.ByteStrings
import Hwal.Support.Guards

namespace InPlace

open Guard

/-- How a call ends early. -/
inductive Abort (ε : Type) where
  | raised (error : ε)
  | panicked
deriving DecidableEq, Repr

abbrev Call (σ ε α : Type) := ExceptT (Abort ε) (StateM σ) α

variable {σ ε α β γ : Type}

/-- The outcome of a call, and the state it leaves. -/
def Call.exec (call : Call σ ε α) (s : σ) : Except (Abort ε) α × σ :=
  StateT.run (ExceptT.run call) s

/-- A computation that cannot panic, as one that could. -/
def raise (x : Except ε α) : Except (Abort ε) α :=
  x.mapError .raised

/-! ### Operations that panic -/

/-- `data[start..stop]`. -/
def slice (data : List α) (start stop : Nat) : Except (Abort ε) (List α) :=
  if start ≤ stop ∧ stop ≤ data.length then .ok ((data.drop start).take (stop - start))
  else .error .panicked

/-- `data[i]`. -/
def index (data : List α) (i : Nat) : Except (Abort ε) α :=
  okOr data[i]? .panicked

/-- `a - b` on an unsigned type, with overflow checks on. -/
def subtract (a b : Nat) : Except (Abort ε) Nat :=
  if b ≤ a then .ok (a - b) else .error .panicked

/-- `data.windows(size)`, which panics when `size` is zero. -/
def windows (data : List α) (size : Nat) : Except (Abort ε) (List (List α)) :=
  if 0 < size then .ok (Bytes.windows data size) else .error .panicked

theorem slice_of_le {data : List α} {start stop : Nat} (hle : start ≤ stop)
    (hfits : stop ≤ data.length) :
    slice (ε := ε) data start stop = .ok ((data.drop start).take (stop - start)) :=
  if_pos ⟨hle, hfits⟩

theorem index_of_lt {data : List α} {i : Nat} (default : α) (h : i < data.length) :
    index (ε := ε) data i = .ok ((data.drop i).headD default) := by
  rw [index, List.getElem?_eq_getElem h, okOr_some, List.drop_eq_getElem_cons h]
  rfl

theorem subtract_of_le {a b : Nat} (h : b ≤ a) : subtract (ε := ε) a b = .ok (a - b) :=
  if_pos h

theorem windows_of_pos {size : Nat} (data : List α) (h : 0 < size) :
    windows (ε := ε) data size = .ok (Bytes.windows data size) :=
  if_pos h

/-! ### Computations that cannot panic -/

@[simp] theorem raise_ok (a : α) : raise (.ok a : Except ε α) = .ok a := rfl

@[simp] theorem raise_error (e : ε) : raise (.error e : Except ε α) = .error (.raised e) := rfl

theorem raise_bind (x : Except ε α) (f : α → Except ε β) :
    raise (x >>= f) = raise x >>= fun a => raise (f a) := by
  cases x <;> rfl

theorem raise_require (condition : Prop) [Decidable condition] (error : ε) :
    raise (require condition error) = require condition (.raised error) := by
  by_cases h : condition <;> simp [require, h]

theorem raise_okOr (value : Option α) (error : ε) :
    raise (okOr value error) = okOr value (.raised error) := by
  cases value <;> rfl

/-! ### Checking first, then writing -/

/-- From `s` the call does what `checks` says: it ends as they end, and if they go
through it leaves `after` of their result, otherwise `s`. -/
def ChecksThenWrites (call : Call σ ε Unit) (s : σ) (checks : Except ε γ) (after : γ → σ) :
    Prop :=
  call.exec s = match checks with
    | .ok c => (.ok (), after c)
    | .error e => (.error (.raised e), s)

section Rules

variable {call : Call σ ε Unit} {s : σ} {checks : Except ε γ} {after : γ → σ}

/-- Reading the state. -/
theorem ChecksThenWrites.get {f : σ → Call σ ε Unit}
    (h : ChecksThenWrites (f s) s checks after) :
    ChecksThenWrites (MonadState.get >>= f) s checks after :=
  h

/-- A check in the call that is the next of the checks. -/
theorem ChecksThenWrites.check {x : Except (Abort ε) α} {y : Except ε α}
    {f : α → Call σ ε Unit} {g : α → Except ε γ} (hsame : x = raise y)
    (h : ∀ a, y = .ok a → ChecksThenWrites (f a) s (g a) after) :
    ChecksThenWrites (liftM x >>= f) s (y >>= g) after := by
  subst hsame
  cases y with
  | ok a => exact h a rfl
  | error e => rfl

theorem ChecksThenWrites.require {condition : Prop} [Decidable condition] {error : ε}
    {f : Unit → Call σ ε Unit} {g : Unit → Except ε γ}
    (h : condition → ChecksThenWrites (f ()) s (g ()) after) :
    ChecksThenWrites (liftM (require condition (Abort.raised error)) >>= f) s
      (require condition error >>= g) after := by
  apply ChecksThenWrites.check (raise_require condition error).symm
  intro _ hholds
  exact h (require_eq_ok_iff.mp hholds)

/-- Past the last check the call only writes. -/
theorem ChecksThenWrites.write {c : γ} (h : call.exec s = (.ok (), after c)) :
    ChecksThenWrites call s (pure c) after :=
  h

theorem ChecksThenWrites.not_panicked (h : ChecksThenWrites call s checks after) :
    (call.exec s).1 ≠ .error .panicked := by
  rw [h]
  cases checks <;> simp

theorem ChecksThenWrites.ok_iff (h : ChecksThenWrites call s checks after) :
    (call.exec s).1 = .ok () ↔ ∃ c, checks = .ok c := by
  rw [h]
  cases checks <;> simp

theorem ChecksThenWrites.written {c : γ} (h : ChecksThenWrites call s checks after)
    (hok : checks = .ok c) : (call.exec s).2 = after c := by
  rw [h, hok]

theorem ChecksThenWrites.unchanged (h : ChecksThenWrites call s checks after)
    (hfailed : (call.exec s).1 ≠ .ok ()) : (call.exec s).2 = s := by
  cases hchecks : checks with
  | ok c => exact absurd (h.ok_iff.mpr ⟨c, hchecks⟩) hfailed
  | error e => rw [h, hchecks]

end Rules

end InPlace
