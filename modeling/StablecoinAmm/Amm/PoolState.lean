import StablecoinAmm.Amm.Quotes

/-!
# Amm — a pool as a machine

What a pool is for, in six numbers: two reserves, the LP supply, the LP tokens locked for good,
and what the vaults hold.  `PoolState.Step` lists everything that can happen to them — a deposit,
a withdrawal or a trade priced by its quote, and what outsiders do without the pool's
signature.  `System/Refinement.lean` shows that every step of the chain is one of these.

* `Step.valid`: a pool is empty or in order, forever, and once in order it stays so
  (`Step.seeded`).
* `Step.ratios`, `Step.product`: nothing but a trade lowers a reserve per LP token, and a trade
  does not lower the product of the reserves.
* `Step.surplus`: what a vault holds beyond the reserve comes from outside.
* `Step.worth_le`: so the worth of an LP token never falls, and `Steps.worth_le` over any run.
-/

namespace StablecoinAmm
open Support Amm

structure PoolState where
  reserveA : ℕ
  reserveB : ℕ
  lpSupply : ℕ
  lockedLp : ℕ
  vaultA : ℕ
  vaultB : ℕ

namespace PoolState

/-- No deposit yet. -/
structure Unseeded (s : PoolState) : Prop where
  reserveA : s.reserveA = 0
  reserveB : s.reserveB = 0
  lpSupply : s.lpSupply = 0
  lockedLp : s.lockedLp = 0

/-- In order. -/
structure Seeded (s : PoolState) : Prop where
  reserveA_pos : 0 < s.reserveA
  reserveB_pos : 0 < s.reserveB
  locked : minimumLiquidity ≤ s.lockedLp
  lockedLp_le : s.lockedLp ≤ s.lpSupply
  reserveA_le : s.reserveA ≤ maxSupplyCap
  reserveB_le : s.reserveB ≤ maxSupplyCap
  vaultA : s.reserveA ≤ s.vaultA
  vaultB : s.reserveB ≤ s.vaultB
  /-- The LP supply started as the floor root of the product. -/
  sq_le : s.lpSupply ^ 2 ≤ s.reserveA * s.reserveB

def Valid (s : PoolState) : Prop := s.Unseeded ∨ s.Seeded

variable {s s' : PoolState}

theorem Unseeded.not_seeded (h : s.Unseeded) : ¬ s.Seeded := fun hs =>
  hs.reserveA_pos.ne' h.reserveA

theorem Seeded.lpSupply_pos (h : s.Seeded) : 0 < s.lpSupply :=
  (by decide : 0 < minimumLiquidity).trans_le (h.locked.trans h.lockedLp_le)

theorem Seeded.lpSupply_le (h : s.Seeded) : s.lpSupply ≤ maxSupplyCap := by
  refine (Nat.pow_le_pow_iff_left two_ne_zero).mp (h.sq_le.trans ?_)
  rw [pow_two]
  exact Nat.mul_le_mul h.reserveA_le h.reserveB_le

theorem Valid.vaults (h : s.Valid) : s.reserveA ≤ s.vaultA ∧ s.reserveB ≤ s.vaultB := by
  rcases h with h | h
  · rw [h.reserveA, h.reserveB]; exact ⟨Nat.zero_le _, Nat.zero_le _⟩
  · exact ⟨h.vaultA, h.vaultB⟩

theorem Valid.sq_le (h : s.Valid) : s.lpSupply ^ 2 ≤ s.reserveA * s.reserveB := by
  rcases h with h | h
  · rw [h.lpSupply]; exact Nat.zero_le _
  · exact h.sq_le

/-- The reserves as stocks, the LP tokens as shares. -/
def Seeded.toSharePool (h : s.Seeded) : SharePool ℕ :=
  ⟨s.reserveA, s.reserveB, s.lpSupply, h.reserveA_pos, h.reserveB_pos, h.lpSupply_pos⟩

/-- The pool with its sides exchanged. -/
def mirror (s : PoolState) : PoolState :=
  ⟨s.reserveB, s.reserveA, s.lpSupply, s.lockedLp, s.vaultB, s.vaultA⟩

theorem Seeded.mirror (h : s.Seeded) : s.mirror.Seeded where
  reserveA_pos := h.reserveB_pos
  reserveB_pos := h.reserveA_pos
  locked := h.locked
  lockedLp_le := h.lockedLp_le
  reserveA_le := h.reserveB_le
  reserveB_le := h.reserveA_le
  vaultA := h.vaultB
  vaultB := h.vaultA
  sq_le := (Nat.mul_comm s.reserveA _) ▸ h.sq_le

/-! ### What a quote makes of a pool in order -/

theorem Seeded.deposit (hs : s.Seeded) {a b : ℕ} {q : AddLiquidityQuote}
    (hq : q.Sound a b s.reserveA s.reserveB s.lpSupply)
    (hsq : q.newLpSupply ^ 2 ≤ q.newReserveA * q.newReserveB) :
    (⟨q.newReserveA, q.newReserveB, q.newLpSupply, s.lockedLp, s.vaultA + q.amountA,
      s.vaultB + q.amountB⟩ : PoolState).Seeded where
  reserveA_pos := hq.newReserveA ▸ Nat.add_pos_left hs.reserveA_pos _
  reserveB_pos := hq.newReserveB ▸ Nat.add_pos_left hs.reserveB_pos _
  locked := hs.locked
  lockedLp_le := hq.newLpSupply ▸ hs.lockedLp_le.trans (Nat.le_add_right _ _)
  reserveA_le := hq.newReserveA_le
  reserveB_le := hq.newReserveB_le
  vaultA := hq.newReserveA ▸ Nat.add_le_add_right hs.vaultA _
  vaultB := hq.newReserveB ▸ Nat.add_le_add_right hs.vaultB _
  sq_le := hsq

theorem Seeded.withdraw (hs : s.Seeded) {n : ℕ} {q : RemoveLiquidityQuote}
    (hq : q.Sound n s.reserveA s.reserveB s.lpSupply) (hl : s.lockedLp ≤ q.newLpSupply)
    (hsq : q.newLpSupply ^ 2 ≤ q.newReserveA * q.newReserveB) :
    (⟨q.newReserveA, q.newReserveB, q.newLpSupply, s.lockedLp, s.vaultA - q.amountA,
      s.vaultB - q.amountB⟩ : PoolState).Seeded where
  reserveA_pos := hq.newReserveA_pos
  reserveB_pos := hq.newReserveB_pos
  locked := hs.locked
  lockedLp_le := hl
  reserveA_le := (Nat.le_of_add_right_le hq.newReserveA.le).trans hs.reserveA_le
  reserveB_le := (Nat.le_of_add_right_le hq.newReserveB.le).trans hs.reserveB_le
  vaultA := Nat.le_sub_of_add_le (hq.newReserveA.le.trans hs.vaultA)
  vaultB := Nat.le_sub_of_add_le (hq.newReserveB.le.trans hs.vaultB)
  sq_le := hsq

theorem Seeded.trade (hs : s.Seeded) {x : ℕ} {q : SwapQuote}
    (hq : q.Sound x s.reserveA s.reserveB)
    (hsq : s.lpSupply ^ 2 ≤ q.newReserveIn * q.newReserveOut) :
    (⟨q.newReserveIn, q.newReserveOut, s.lpSupply, s.lockedLp, s.vaultA + x,
      s.vaultB - q.amountOut⟩ : PoolState).Seeded where
  reserveA_pos := hq.newReserveIn ▸ Nat.add_pos_left hs.reserveA_pos _
  reserveB_pos := hq.newReserveOut_pos
  locked := hs.locked
  lockedLp_le := hs.lockedLp_le
  reserveA_le := hq.newReserveIn_le
  reserveB_le := (Nat.le_of_add_right_le hq.newReserveOut.le).trans hs.reserveB_le
  vaultA := hq.newReserveIn ▸ Nat.add_le_add_right hs.vaultA _
  vaultB := Nat.le_sub_of_add_le (hq.newReserveOut.le.trans hs.vaultB)
  sq_le := hsq

/-! ### Steps -/

inductive Event where
  | deposit
  | withdraw
  | trade
  | outside
  deriving DecidableEq

/-- **What can happen to a pool.** -/
inductive Step : Event → PoolState → PoolState → Prop where
  /-- The first deposit, taken in full. -/
  | seed {s : PoolState} (hs : s.Unseeded) {a b : ℕ} {q : InitialLiquidityQuote}
      (hq : q.Sound a b) :
      Step .deposit s ⟨a, b, q.lpToUser + q.lpToLock, q.lpToLock, s.vaultA + a, s.vaultB + b⟩
  | deposit {s : PoolState} (hs : s.Seeded) {a b : ℕ} {q : AddLiquidityQuote}
      (hq : q.Sound a b s.reserveA s.reserveB s.lpSupply) :
      Step .deposit s ⟨q.newReserveA, q.newReserveB, q.newLpSupply, s.lockedLp,
        s.vaultA + q.amountA, s.vaultB + q.amountB⟩
  /-- What is burned is not locked. -/
  | withdraw {s : PoolState} (hs : s.Seeded) {n : ℕ} {q : RemoveLiquidityQuote}
      (hq : q.Sound n s.reserveA s.reserveB s.lpSupply) (hl : s.lockedLp ≤ q.newLpSupply) :
      Step .withdraw s ⟨q.newReserveA, q.newReserveB, q.newLpSupply, s.lockedLp,
        s.vaultA - q.amountA, s.vaultB - q.amountB⟩
  | tradeAB {s : PoolState} (hs : s.Seeded) {x : ℕ} {q : SwapQuote}
      (hq : q.Sound x s.reserveA s.reserveB) :
      Step .trade s ⟨q.newReserveIn, q.newReserveOut, s.lpSupply, s.lockedLp, s.vaultA + x,
        s.vaultB - q.amountOut⟩
  | tradeBA {s : PoolState} (hs : s.Seeded) {x : ℕ} {q : SwapQuote}
      (hq : q.Sound x s.reserveB s.reserveA) :
      Step .trade s ⟨q.newReserveOut, q.newReserveIn, s.lpSupply, s.lockedLp,
        s.vaultA - q.amountOut, s.vaultB + x⟩
  /-- Donations, LP transfers and LP burns. -/
  | outside {s s' : PoolState} (ha : s'.reserveA = s.reserveA) (hb : s'.reserveB = s.reserveB)
      (hl : s'.lpSupply ≤ s.lpSupply) (hk : s.lockedLp ≤ s'.lockedLp)
      (hle : s'.lockedLp ≤ s'.lpSupply) (hva : s.vaultA ≤ s'.vaultA)
      (hvb : s.vaultB ≤ s'.vaultB) : Step .outside s s'

namespace Step

variable {e : Event}

/-- **Nothing but a trade lowers a reserve per LP token.** -/
theorem ratios (h : Step e s s') (he : e ≠ .trade) :
    s.reserveA * s'.lpSupply ≤ s'.reserveA * s.lpSupply ∧
      s.reserveB * s'.lpSupply ≤ s'.reserveB * s.lpSupply := by
  cases h with
  | seed hs =>
      rw [hs.reserveA, hs.reserveB, Nat.zero_mul]
      exact ⟨Nat.zero_le _, Nat.zero_le _⟩
  | deposit _ hq => exact hq.ratios
  | withdraw _ hq _ => exact hq.ratios
  | tradeAB | tradeBA => exact absurd rfl he
  | outside ha hb hl =>
      rw [ha, hb]
      exact ⟨Nat.mul_le_mul_left _ hl, Nat.mul_le_mul_left _ hl⟩

/-- **A trade does not lower the product of the reserves**, and leaves the LP tokens alone. -/
theorem product (h : Step .trade s s') :
    s.reserveA * s.reserveB ≤ s'.reserveA * s'.reserveB ∧ s'.lpSupply = s.lpSupply := by
  cases h with
  | tradeAB _ hq => exact ⟨hq.product, rfl⟩
  | tradeBA _ hq =>
      refine ⟨?_, rfl⟩
      rw [Nat.mul_comm, Nat.mul_comm _ (SwapQuote.newReserveIn _)]
      exact hq.product

/-- The two together: `k' · L² ≥ k · L'²`. -/
theorem value_le (h : Step e s s') :
    s.reserveA * s.reserveB * s'.lpSupply ^ 2 ≤ s'.reserveA * s'.reserveB * s.lpSupply ^ 2 := by
  by_cases he : e = .trade
  · subst he
    obtain ⟨hk, hl⟩ := h.product
    exact SharePool.worth_of_product hk hl (Nat.zero_le _)
  · obtain ⟨ha, hb⟩ := h.ratios he
    exact SharePool.worth_of_ratios ha hb (Nat.zero_le _) (Nat.zero_le _)

/-- The LP supply keeps covered by the product. -/
theorem sq_le (h : Step e s s') (hs : s.Seeded) :
    s'.lpSupply ^ 2 ≤ s'.reserveA * s'.reserveB :=
  SharePool.sq_le_of_worth hs.sq_le h.value_le hs.lpSupply_pos (Nat.zero_le _)

/-- **A pool in order stays in order.** -/
theorem seeded (h : Step e s s') (hs : s.Seeded) : s'.Seeded := by
  have hsq := h.sq_le hs
  cases h with
  | seed hu => exact absurd hs hu.not_seeded
  | deposit _ hq => exact hs.deposit hq hsq
  | withdraw _ hq hl => exact hs.withdraw hq hl hsq
  | tradeAB _ hq => exact hs.trade hq hsq
  | tradeBA _ hq =>
      rw [Nat.mul_comm] at hsq
      exact (hs.mirror.trade hq hsq).mirror
  | outside ha hb hl hk hle hva hvb =>
      exact
        { reserveA_pos := ha ▸ hs.reserveA_pos
          reserveB_pos := hb ▸ hs.reserveB_pos
          locked := hs.locked.trans hk
          lockedLp_le := hle
          reserveA_le := ha ▸ hs.reserveA_le
          reserveB_le := hb ▸ hs.reserveB_le
          vaultA := ha ▸ hs.vaultA.trans hva
          vaultB := hb ▸ hs.vaultB.trans hvb
          sq_le := hsq }

/-- An empty pool is seeded, or stays empty. -/
theorem unseeded (h : Step e s s') (hs : s.Unseeded) : s'.Valid := by
  cases h with
  | seed _ hq =>
      have hlock := hq.lpToLock
      refine .inr ?_
      exact
        { reserveA_pos := hq.amountA_pos
          reserveB_pos := hq.amountB_pos
          locked := hlock.ge
          lockedLp_le := Nat.le_add_left _ _
          reserveA_le := hq.amountA_le
          reserveB_le := hq.amountB_le
          vaultA := Nat.le_add_left _ _
          vaultB := Nat.le_add_left _ _
          sq_le := hq.sq_le }
  | deposit hs' | withdraw hs' | tradeAB hs' | tradeBA hs' => exact absurd hs' hs.not_seeded
  | outside ha hb hl hk hle =>
      have hl0 := hs.lpSupply
      have hk0 := hs.lockedLp
      exact .inl ⟨ha.trans hs.reserveA, hb.trans hs.reserveB, by omega, by omega⟩

/-- **A pool is empty or in order.** -/
theorem valid (h : Step e s s') (hs : s.Valid) : s'.Valid := by
  rcases hs with hs | hs
  · exact h.unseeded hs
  · exact .inr (h.seeded hs)

/-- What is locked stays locked. -/
theorem lockedLp_le (h : Step e s s') : s.lockedLp ≤ s'.lockedLp := by
  cases h with
  | seed hs => rw [hs.lockedLp]; exact Nat.zero_le _
  | deposit | withdraw | tradeAB | tradeBA => exact le_rfl
  | outside _ _ _ hk => exact hk

/-- **What the pool does itself moves reserves and vaults alike.** -/
theorem surplus (h : Step e s s') (hs : s.Valid) (he : e ≠ .outside) :
    s'.vaultA + s.reserveA = s.vaultA + s'.reserveA ∧
      s'.vaultB + s.reserveB = s.vaultB + s'.reserveB := by
  obtain ⟨hA, hB⟩ := hs.vaults
  cases h with
  | seed hu => rw [hu.reserveA, hu.reserveB]; exact ⟨rfl, rfl⟩
  | deposit _ hq =>
      have := hq.newReserveA
      have := hq.newReserveB
      constructor <;> dsimp only <;> omega
  | withdraw _ hq =>
      have := hq.newReserveA
      have := hq.newReserveB
      constructor <;> dsimp only <;> omega
  | tradeAB _ hq =>
      have := hq.newReserveIn
      have := hq.newReserveOut
      constructor <;> dsimp only <;> omega
  | tradeBA _ hq =>
      have := hq.newReserveIn
      have := hq.newReserveOut
      constructor <;> dsimp only <;> omega
  | outside => exact absurd rfl he

/-- **The worth of an LP token never falls.** -/
theorem worth_le (h : Step e s s') (hs : s.Seeded) : hs.toSharePool ≤ (h.seeded hs).toSharePool :=
  SharePool.le_def.mpr h.value_le

end Step

/-! ### Runs -/

/-- Events one after another. -/
inductive Steps : List Event → PoolState → PoolState → Prop where
  | refl (s : PoolState) : Steps [] s s
  | more {e : Event} {es : List Event} {s s₁ s' : PoolState} (h : Step e s s₁)
      (t : Steps es s₁ s') : Steps (e :: es) s s'

namespace Steps

variable {es : List Event}

theorem seeded (h : Steps es s s') (hs : s.Seeded) : s'.Seeded := by
  induction h with
  | refl => exact hs
  | more h _ ih => exact ih (h.seeded hs)

theorem lockedLp_le (h : Steps es s s') : s.lockedLp ≤ s'.lockedLp := by
  induction h with
  | refl => exact le_rfl
  | more h _ ih => exact h.lockedLp_le.trans ih

/-- **The worth of an LP token never falls**, over any run. -/
theorem worth_le (h : Steps es s s') (hs : s.Seeded) :
    hs.toSharePool ≤ (h.seeded hs).toSharePool := by
  induction h with
  | refl => exact le_rfl
  | more h _ ih => exact (h.worth_le hs).trans (ih (h.seeded hs))

/-- Before the first deposit there is no value, so it need not be excluded. -/
theorem value_le (h : Steps es s s') (hs : s.Valid) :
    s.reserveA * s.reserveB * s'.lpSupply ^ 2 ≤ s'.reserveA * s'.reserveB * s.lpSupply ^ 2 := by
  rcases hs with hs | hs
  · rw [hs.reserveA, Nat.zero_mul, Nat.zero_mul]
    exact Nat.zero_le _
  · exact SharePool.le_def.mp (h.worth_le hs)

end Steps

end PoolState

end StablecoinAmm
