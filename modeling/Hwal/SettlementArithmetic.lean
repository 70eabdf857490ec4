/-
The arithmetic of a settlement under every config a run can leave behind: the exact
shares, what is sure to be left for the owner, and what splitting a position would change.
-/
import Hwal.Invariants
import Hwal.Support.FloorDivision

namespace Hwal

open Guard

section Shares

variable {config : Config} {collateral share : UInt64} {bps : UInt16} {payout : Payout}

/-- A share of at least the smallest collateral is rounded down, but never to nothing. -/
theorem share_pos (hmin : minCollateralLamports ≤ collateral)
    (h : bpsOf collateral bps = .ok share) (hbps : 0 < bps) : 0 < share := by
  have hvalue := bpsOf_eq_ok_iff.mp h
  have hlarge : 1000000 ≤ collateral.toNat := UInt64.le_iff_toNat_le.mp hmin
  have hrate : 1 ≤ bps.toNat := UInt16.lt_iff_toNat_lt.mp hbps
  have hproduct : 1000000 * 1 ≤ collateral.toNat * bps.toNat := Nat.mul_le_mul hlarge hrate
  apply UInt64.lt_iff_toNat_lt.mpr
  rw [hvalue, UInt64.toNat_zero]
  omega

/-- The handler's own four steps, in their order. -/
theorem PayoutOf.steps (h : PayoutOf config collateral payout) :
    bpsOf collateral config.feeBps = .ok payout.fee ∧
      bpsOf collateral config.keeperRewardBps = .ok payout.keeperReward ∧
      ∃ afterFee, checkedSub collateral payout.fee = .ok afterFee ∧
        checkedSub afterFee payout.keeperReward = .ok payout.netToOwner := by
  have hcompute := computePayout_eq_ok_iff.mpr h
  simp only [computePayout, bind_eq_ok_iff, pure_eq_ok_iff] at hcompute
  rcases hcompute with ⟨fee, hfee, reward, hreward, afterFee, hafter, net, hnet, rfl⟩
  exact ⟨hfee, hreward, afterFee, hafter, hnet⟩

/-- At the highest rates the owner still gets 93 percent, the quotient rounded up. -/
theorem PayoutOf.ceil_le_net (h : PayoutOf config collateral payout)
    (hcapped : config.RatesCapped) :
    (93 * collateral.toNat + 99) / 100 ≤ payout.netToOwner.toNat := by
  have htotal := h.total
  rcases h.shares_le hcapped with ⟨hfee, hreward⟩
  omega

/-- Shares taken of the pieces never exceed the share of the whole, and fall short of it
by less than one lamport a piece. -/
theorem split_shares (hrate : bps.toNat ≤ 10000) {pieces : List UInt64} (hne : pieces ≠ [])
    {whole : UInt64} (hwhole : whole.toNat = (pieces.map UInt64.toNat).sum) :
    ∃ shares total, pieces.mapM (fun piece => bpsOf piece bps) = .ok shares ∧
      bpsOf whole bps = .ok total ∧ (shares.map UInt64.toNat).sum ≤ total.toNat ∧
      total.toNat < (shares.map UInt64.toNat).sum + pieces.length := by
  have hexact (piece : UInt64) : ∃ share, bpsOf piece bps = .ok share ∧
      share.toNat = piece.toNat * bps.toNat / 10000 := by
    rcases exists_bpsOf piece bps hrate with ⟨share, hshare⟩
    exact ⟨share, hshare, bpsOf_eq_ok_iff.mp hshare⟩
  rcases exists_mapM_ok hexact pieces with ⟨shares, hshares, hvalues⟩
  rcases hexact whole with ⟨total, htotal, hvalue⟩
  -- the products whose quotients are the shares
  have hproducts : (pieces.map fun piece => piece.toNat * bps.toNat).sum =
      whole.toNat * bps.toNat := by
    rw [hwhole, ← List.sum_map_mul_right]
  have hfloors : shares.map UInt64.toNat =
      (pieces.map fun piece => piece.toNat * bps.toNat).map (· / 10000) := by
    rw [hvalues, List.map_map]
    rfl
  have hproductsNe : (pieces.map fun piece => piece.toNat * bps.toNat) ≠ [] := by
    simpa using hne
  have hle := FloorDivision.sum_div_le (d := 10000) (by decide)
    (pieces.map fun piece => piece.toNat * bps.toNat)
  have hlt := FloorDivision.div_lt_sum_div_add_length (d := 10000) (by decide) hproductsNe
  rw [List.length_map] at hlt
  rw [hproducts, ← hfloors, ← hvalue] at hle hlt
  exact ⟨shares, total, hshares, htotal, hle, hlt⟩

end Shares

/-- Under every config of a run, for every collateral: both shares are the exact floors
and positive where their rate is, every step of the split goes through, the parts add up
and the owner's is at least 93 percent; and splitting the collateral into pieces never
raises a share and saves less than one lamport a piece. -/
theorem settlement_arithmetic {rt : Runtime} {w : World} (h : Reachable rt w) {key : Pubkey}
    {config : Config} (hconfig : w.configs key = some config) :
    (∀ bps ∈ [config.feeBps, config.keeperRewardBps], ∀ collateral : UInt64,
      ∃ share, bpsOf collateral bps = .ok share ∧
        share.toNat = collateral.toNat * bps.toNat / 10000 ∧
        (minCollateralLamports ≤ collateral → 0 < bps → 0 < share)) ∧
    (∀ collateral : UInt64, ∃ fee keeperReward afterFee netToOwner,
      bpsOf collateral config.feeBps = .ok fee ∧
        bpsOf collateral config.keeperRewardBps = .ok keeperReward ∧
        checkedSub collateral fee = .ok afterFee ∧
        checkedSub afterFee keeperReward = .ok netToOwner ∧
        computePayout config collateral = .ok ⟨fee, keeperReward, netToOwner⟩ ∧
        fee.toNat + keeperReward.toNat + netToOwner.toNat = collateral.toNat ∧
        (93 * collateral.toNat + 99) / 100 ≤ netToOwner.toNat) ∧
    ∀ bps ∈ [config.feeBps, config.keeperRewardBps], ∀ pieces : List UInt64, pieces ≠ [] →
      ∀ whole : UInt64, whole.toNat = (pieces.map UInt64.toNat).sum →
        ∃ shares total, pieces.mapM (fun piece => bpsOf piece bps) = .ok shares ∧
          bpsOf whole bps = .ok total ∧ (shares.map UInt64.toNat).sum ≤ total.toNat ∧
          total.toNat < (shares.map UInt64.toNat).sum + pieces.length := by
  have hcapped : config.RatesCapped := ((reachable_invariant h).configs key config hconfig).capped
  have hrates : ∀ bps ∈ [config.feeBps, config.keeperRewardBps], bps.toNat ≤ 10000 := by
    rcases rates_le hcapped with ⟨hfee, hreward⟩
    intro bps hbps
    rcases List.mem_pair.mp hbps with rfl | rfl
    · omega
    · omega
  refine ⟨?_, ?_, ?_⟩
  · intro bps hbps collateral
    rcases exists_bpsOf collateral bps (hrates bps hbps) with ⟨share, hshare⟩
    exact ⟨share, hshare, bpsOf_eq_ok_iff.mp hshare, fun hmin => share_pos hmin hshare⟩
  · intro collateral
    rcases exists_payoutOf collateral hcapped with ⟨payout, hpayout⟩
    rcases hpayout.steps with ⟨hfee, hreward, afterFee, hafter, hnet⟩
    exact ⟨payout.fee, payout.keeperReward, afterFee, payout.netToOwner, hfee, hreward, hafter,
      hnet, computePayout_eq_ok_iff.mpr hpayout, hpayout.total, hpayout.ceil_le_net hcapped⟩
  · intro bps hbps pieces hne whole hwhole
    exact split_shares (hrates bps hbps) hne hwhole

section Launched

open Localnet

/-- Three million lamports at the launch fee, in one position and in two. -/
theorem settlement_arithmetic_launched :
    ∃ launched shares total,
      (runFrom cluster (World.genesis funds) launch).configs Localnet.config = some launched ∧
      [1000001, 1999999].mapM (fun piece => bpsOf piece launched.feeBps) = .ok shares ∧
      bpsOf 3000000 launched.feeBps = .ok total ∧
      (shares.map UInt64.toNat).sum ≤ total.toNat ∧
      total.toNat < (shares.map UInt64.toNat).sum + 2 := by
  have hsome : ((runFrom cluster (World.genesis funds) launch).configs
      Localnet.config).isSome = true := by decide +kernel
  rcases Option.isSome_iff_exists.mp hsome with ⟨launched, hlaunched⟩
  have hreach : Reachable cluster (runFrom cluster (World.genesis funds) launch) :=
    ⟨funds, launch, rfl⟩
  rcases (settlement_arithmetic hreach hlaunched).2.2 launched.feeBps List.mem_cons_self
    [1000001, 1999999] (by simp) 3000000 rfl with ⟨shares, total, hshares, htotal, hle, hlt⟩
  exact ⟨launched, shares, total, hlaunched, hshares, htotal, hle, hlt⟩

end Launched

end Hwal
