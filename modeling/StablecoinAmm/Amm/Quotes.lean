import StablecoinAmm.Amm.Root
import StablecoinAmm.Support.ConstantProduct
import StablecoinAmm.Support.ShareValue

/-!
# Amm — the quotes in closed form

Each quote function, with its chain of checked operations, is one conditional expression over
unbounded arithmetic: its range checks keep every product below `2 ^ 128`, so no checked
operation overflows, and the exits behind the divisions are dead.  What the rest of the
development knows about a quote is its closed form and the consequences of its success.

* `quoteSwap_eq`, `quoteInitialLiquidity_eq`, `quoteAddLiquidity_eq`, `quoteRemoveLiquidity_eq`.
* `swapOut_lt`, `swapOut_product`: a swap never takes a whole reserve, and the product of the
  reserves never falls.
* `charge_le`: a deposit is charged no more than it offers.
-/

namespace StablecoinAmm.Amm
open Support

/-! ### The checked operations, in range -/

theorem widen_eq (v : ℕ) :
    widen v = if maxSupplyCap < v then .error .valueOutOfRange else .ok v :=
  require_bind_eq Nat.not_lt.symm fun _ => rfl

/-- Both of `narrow`'s checks report the same error. -/
theorem narrow_eq (v : ℕ) :
    narrow v = if maxSupplyCap < v then .error .valueOutOfRange else .ok v := by
  have hcap : maxSupplyCap < 2 ^ 64 := by decide
  by_cases h64 : v < 2 ^ 64
  · rw [narrow, require_of h64, ok_bind]
    exact require_bind_eq Nat.not_lt.symm fun _ => rfl
  · rw [narrow, require_not h64, if_pos (by omega)]; rfl

theorem narrow_of_le {v : ℕ} (h : v ≤ maxSupplyCap) : narrow v = .ok v := by
  rw [narrow_eq, if_neg (by omega)]

variable {ε : Type}

theorem okOr_checkedMul {a b : ℕ} (e : ε) (h : a * b < 2 ^ 128) :
    okOr (checkedMul 128 a b) e = .ok (a * b) := by
  rw [checkedMul, if_pos h]; rfl

theorem okOr_checkedAdd {a b : ℕ} (e : ε) (h : a + b < 2 ^ 128) :
    okOr (checkedAdd 128 a b) e = .ok (a + b) := by
  rw [checkedAdd, if_pos h]; rfl

theorem okOr_checkedSub {a b : ℕ} (e : ε) (h : b ≤ a) :
    okOr (checkedSub a b) e = .ok (a - b) := by
  rw [checkedSub, if_pos h]; rfl

theorem okOr_checkedDiv {a b : ℕ} (e : ε) (h : b ≠ 0) :
    okOr (checkedDiv a b) e = .ok (a / b) := by
  rw [checkedDiv, if_neg h]; rfl

/-- A product of two capped factors leaves room in a `u128`. -/
theorem mul_le_of_le_cap {a b : ℕ} (ha : a ≤ maxSupplyCap) (hb : b ≤ maxSupplyCap) :
    a * b ≤ 10 ^ 30 :=
  (Nat.mul_le_mul ha hb).trans (by decide)

/-! ### Rounding up -/

/-- What `ceil_div` returns for a positive denominator. -/
def divCeil (n d : ℕ) : ℕ := if n % d = 0 then n / d else n / d + 1

theorem divCeil_le_iff {n d k : ℕ} (hd : 0 < d) : divCeil n d ≤ k ↔ n ≤ k * d := by
  have hn := Nat.div_add_mod n d
  unfold divCeil
  split
  · rename_i h
    rw [h, Nat.add_zero] at hn
    rw [← Nat.mul_le_mul_right_iff hd, Nat.mul_comm, hn]
  · rename_i h
    rw [Nat.add_one_le_iff, Nat.div_lt_iff_lt_mul hd]
    refine ⟨Nat.le_of_lt, fun hle => lt_of_le_of_ne hle fun heq => h ?_⟩
    rw [heq, Nat.mul_mod_left]

theorem divCeil_pos {n d : ℕ} (hn : 0 < n) (hd : 0 < d) : 0 < divCeil n d := by
  by_contra h
  have := (divCeil_le_iff hd).mp (Nat.le_of_not_lt h)
  omega

/-- A quotient that is rounded up has a denominator of at least two. -/
theorem ceilDiv_eq {n d : ℕ} (hn : n < 2 ^ 128) (hd : 0 < d) : ceilDiv n d = .ok (divCeil n d) := by
  rw [ceilDiv, require_of (by omega : d ≠ 0), ok_bind, divCeil]
  split
  · rfl
  · rename_i hmod
    have hd2 : 2 ≤ d := by
      by_contra hlt
      obtain rfl : d = 1 := by omega
      exact hmod (Nat.mod_one n)
    have hhalf : n / d ≤ n / 2 := Nat.div_le_div_left hd2 (by decide)
    exact okOr_checkedAdd _ (by omega)

/-! ### `quote_swap` -/

/-- The reserve a swap is priced against: `reserve_in` and the input, the fee taken off, in
units of `1 / 10000`. -/
def swapBase (amountIn reserveIn feeBps : ℕ) : ℕ :=
  reserveIn * feeDenominator + amountIn * (feeDenominator - feeBps)

def swapOut (amountIn reserveIn reserveOut feeBps : ℕ) : ℕ :=
  amountIn * (feeDenominator - feeBps) * reserveOut / swapBase amountIn reserveIn feeBps

/-- The fee of a pool. -/
def swapFee (feeBps : ℕ) : Fee ℕ where
  scale := feeDenominator
  net := feeDenominator - feeBps
  net_nonneg := Nat.zero_le _
  net_le := Nat.sub_le _ _
  scale_pos := by decide

theorem swapOut_eq (amountIn reserveIn reserveOut feeBps : ℕ) :
    swapOut amountIn reserveIn reserveOut feeBps =
      (swapFee feeBps).out reserveIn reserveOut amountIn := rfl

theorem swapBase_pos {reserveIn : ℕ} (h : 0 < reserveIn) (amountIn feeBps : ℕ) :
    0 < swapBase amountIn reserveIn feeBps :=
  (Fee.base_pos h (Nat.zero_le amountIn) : 0 < (swapFee feeBps).base reserveIn amountIn)

theorem swapOut_le (amountIn reserveIn reserveOut feeBps : ℕ) :
    swapOut amountIn reserveIn reserveOut feeBps ≤ reserveOut :=
  (swapFee feeBps).out_le reserveIn reserveOut amountIn

/-- A swap leaves something of the reserve it takes from. -/
theorem swapOut_lt {reserveIn reserveOut : ℕ} (hi : 0 < reserveIn) (ho : 0 < reserveOut)
    (amountIn feeBps : ℕ) : swapOut amountIn reserveIn reserveOut feeBps < reserveOut :=
  (swapFee feeBps).out_lt hi ho amountIn

/-- **The product of the reserves does not fall.**  The output is rounded down, and the fee stays
in the pool. -/
theorem swapOut_product (amountIn reserveIn reserveOut feeBps : ℕ) :
    reserveIn * reserveOut ≤
      (reserveIn + amountIn) * (reserveOut - swapOut amountIn reserveIn reserveOut feeBps) :=
  ((swapFee feeBps).keeps_out reserveIn reserveOut amountIn).product (Nat.zero_le _)
    (Nat.zero_le _)

/-- **`quote_swap`.** -/
theorem quoteSwap_eq (amountIn reserveIn reserveOut feeBps : ℕ) :
    quoteSwap amountIn reserveIn reserveOut feeBps =
      if amountIn = 0 then .error .zeroAmount
      else if reserveIn = 0 ∨ reserveOut = 0 then .error .insufficientLiquidity
      else if maxFeeBps < feeBps then .error .invalidFee
      else if maxSupplyCap < amountIn ∨ maxSupplyCap < reserveIn ∨ maxSupplyCap < reserveOut then
        .error .valueOutOfRange
      else if swapOut amountIn reserveIn reserveOut feeBps = 0 then .error .zeroOutput
      else if maxSupplyCap < reserveIn + amountIn then .error .valueOutOfRange
      else .ok
        { amountOut := swapOut amountIn reserveIn reserveOut feeBps,
          newReserveIn := reserveIn + amountIn,
          newReserveOut := reserveOut - swapOut amountIn reserveIn reserveOut feeBps } := by
  rw [quoteSwap]
  apply require_bind_eq Iff.rfl
  intro h0
  apply require_bind_eq Iff.rfl
  intro hr
  apply require_bind_eq Nat.not_lt.symm
  intro hf
  rw [widen_eq, widen_eq, widen_eq]
  apply ite_bind_or
  intro hx
  apply ite_bind_or
  intro hi
  apply ite_bind_eq
  intro ho
  -- in range: `10 ^ 15 * 10 ^ 4 * 10 ^ 15` is the largest intermediate value
  have hfee : feeBps ≤ feeDenominator := (Nat.le_of_not_lt hf).trans (by decide)
  have hD : feeDenominator - feeBps ≤ 10 ^ 4 := Nat.sub_le _ _
  have hwith : amountIn * (feeDenominator - feeBps) ≤ 10 ^ 15 * 10 ^ 4 :=
    Nat.mul_le_mul (Nat.le_of_not_lt hx) hD
  have hnum : amountIn * (feeDenominator - feeBps) * reserveOut ≤ 10 ^ 15 * 10 ^ 4 * 10 ^ 15 :=
    Nat.mul_le_mul hwith (Nat.le_of_not_lt ho)
  have hscaled : reserveIn * feeDenominator ≤ 10 ^ 15 * 10 ^ 4 :=
    Nat.mul_le_mul (Nat.le_of_not_lt hi) le_rfl
  have hbase : reserveIn * feeDenominator + amountIn * (feeDenominator - feeBps) ≠ 0 :=
    (swapBase_pos (by omega) _ _).ne'
  rw [okOr_checkedSub _ hfee, ok_bind, okOr_checkedMul _ (by omega), ok_bind,
    okOr_checkedMul _ (by omega), ok_bind, okOr_checkedMul _ (by omega), ok_bind,
    okOr_checkedAdd _ (by omega), ok_bind, okOr_checkedDiv _ hbase, ok_bind]
  have hout : amountIn * (feeDenominator - feeBps) * reserveOut /
      (reserveIn * feeDenominator + amountIn * (feeDenominator - feeBps)) =
      swapOut amountIn reserveIn reserveOut feeBps := rfl
  have hlt : swapOut amountIn reserveIn reserveOut feeBps < reserveOut :=
    swapOut_lt (by omega) (by omega) _ _
  have hk := swapOut_product amountIn reserveIn reserveOut feeBps
  rw [hout]
  generalize swapOut amountIn reserveIn reserveOut feeBps = out at hlt hk ⊢
  apply require_bind_eq Iff.rfl
  intro hz
  -- the two exits behind the division are dead, by `hlt` and `hk`
  have hold := mul_le_of_le_cap (Nat.le_of_not_lt hi) (Nat.le_of_not_lt ho)
  have hnew : (reserveIn + amountIn) * (reserveOut - out) ≤ (10 ^ 15 + 10 ^ 15) * 10 ^ 15 :=
    Nat.mul_le_mul (Nat.add_le_add (Nat.le_of_not_lt hi) (Nat.le_of_not_lt hx))
      ((Nat.sub_le _ _).trans (Nat.le_of_not_lt ho))
  have hcap : maxSupplyCap = 10 ^ 15 := rfl
  rw [require_of (by omega), ok_bind, okOr_checkedAdd _ (by omega), ok_bind,
    okOr_checkedSub _ hlt.le, ok_bind, okOr_checkedMul _ (by omega), ok_bind,
    okOr_checkedMul _ (by omega), ok_bind, require_of (by omega), ok_bind,
    narrow_of_le (by omega), ok_bind, narrow_eq]
  apply ite_bind_eq
  intro _
  rw [narrow_of_le (by omega)]; rfl

/-! ### `quote_initial_liquidity` -/

theorem quoteInitialLiquidity_eq (amountA amountB : ℕ) :
    quoteInitialLiquidity amountA amountB =
      if amountA = 0 ∨ amountB = 0 then .error .zeroAmount
      else if maxSupplyCap < amountA ∨ maxSupplyCap < amountB then .error .valueOutOfRange
      else if (amountA * amountB).sqrt ≤ minimumLiquidity then
        .error .insufficientInitialLiquidity
      else .ok
        { lpToUser := (amountA * amountB).sqrt - minimumLiquidity,
          lpToLock := minimumLiquidity } := by
  rw [quoteInitialLiquidity]
  apply require_bind_eq Iff.rfl
  intro h0
  rw [widen_eq, widen_eq]
  apply ite_bind_or
  intro ha
  apply ite_bind_eq
  intro hb
  have hprod := mul_le_of_le_cap (Nat.le_of_not_lt ha) (Nat.le_of_not_lt hb)
  -- the root of a product of capped amounts is capped: `narrow` passes
  have hroot : (amountA * amountB).sqrt ≤ maxSupplyCap :=
    (Nat.sqrt_le_sqrt (Nat.mul_le_mul (Nat.le_of_not_lt ha) (Nat.le_of_not_lt hb))).trans
      (Nat.sqrt_eq _).le
  rw [okOr_checkedMul _ (by omega), ok_bind, integerSqrt_eq (by omega), ok_bind]
  apply require_bind_eq Iff.rfl
  intro hmin
  rw [okOr_checkedSub _ (by omega), ok_bind, narrow_of_le (by omega)]; rfl

/-! ### `quote_add_liquidity` -/

/-- What a deposit is charged: one side as offered, the other at the pool's ratio, rounded up. -/
def charge (aDesired bDesired reserveA reserveB : ℕ) : ℕ × ℕ :=
  if aDesired * reserveB ≤ bDesired * reserveA then
    (aDesired, divCeil (aDesired * reserveB) reserveA)
  else
    (divCeil (bDesired * reserveA) reserveB, bDesired)

section charge
variable {aDesired bDesired reserveA reserveB : ℕ}

/-- A deposit is charged no more than it offers. -/
theorem charge_le (ha : 0 < reserveA) (hb : 0 < reserveB) :
    (charge aDesired bDesired reserveA reserveB).1 ≤ aDesired ∧
      (charge aDesired bDesired reserveA reserveB).2 ≤ bDesired := by
  unfold charge
  split
  · rename_i h
    exact ⟨le_rfl, (divCeil_le_iff ha).mpr h⟩
  · rename_i h
    exact ⟨(divCeil_le_iff hb).mpr (by omega), le_rfl⟩

/-- And something on both sides. -/
theorem charge_pos (ha : 0 < reserveA) (hb : 0 < reserveB) (ha' : 0 < aDesired)
    (hb' : 0 < bDesired) :
    0 < (charge aDesired bDesired reserveA reserveB).1 ∧
      0 < (charge aDesired bDesired reserveA reserveB).2 := by
  unfold charge
  split
  · exact ⟨ha', divCeil_pos (Nat.mul_pos ha' hb) ha⟩
  · exact ⟨divCeil_pos (Nat.mul_pos hb' ha) hb, hb'⟩

/-- `charged_amounts` on capped values: the second branch's exit is dead. -/
theorem chargedAmounts_eq (ha : 0 < reserveA) (hb : 0 < reserveB) (hac : aDesired ≤ maxSupplyCap)
    (hbc : bDesired ≤ maxSupplyCap) (hra : reserveA ≤ maxSupplyCap)
    (hrb : reserveB ≤ maxSupplyCap) :
    chargedAmounts aDesired bDesired reserveA reserveB =
      .ok (charge aDesired bDesired reserveA reserveB) := by
  have h₁ := mul_le_of_le_cap hac hrb
  have h₂ := mul_le_of_le_cap hbc hra
  rw [chargedAmounts, charge, okOr_checkedMul _ (by omega), ok_bind,
    ceilDiv_eq (by omega) ha, ok_bind]
  by_cases h : aDesired * reserveB ≤ bDesired * reserveA
  · rw [if_pos h, if_pos ((divCeil_le_iff ha).mpr h)]; rfl
  · have hle : divCeil (bDesired * reserveA) reserveB ≤ aDesired :=
      (divCeil_le_iff hb).mpr (by omega)
    rw [if_neg h, if_neg (mt (divCeil_le_iff ha).mp h), okOr_checkedMul _ (by omega), ok_bind,
      ceilDiv_eq (by omega) hb, ok_bind, require_of (by omega)]; rfl

end charge

/-- The shares issued for two amounts: the smaller of the two pro-rata ones. -/
def sharesFor (amounts : ℕ × ℕ) (reserveA reserveB lpSupply : ℕ) : ℕ :=
  min (amounts.1 * lpSupply / reserveA) (amounts.2 * lpSupply / reserveB)

/-- **`quote_add_liquidity`.** -/
theorem quoteAddLiquidity_eq (aDesired bDesired reserveA reserveB lpSupply : ℕ) :
    quoteAddLiquidity aDesired bDesired reserveA reserveB lpSupply =
      if aDesired = 0 ∨ bDesired = 0 then .error .zeroAmount
      else if reserveA = 0 ∨ reserveB = 0 then .error .insufficientLiquidity
      else if lpSupply < minimumLiquidity then .error .invalidLiquidityState
      else if maxSupplyCap < aDesired ∨ maxSupplyCap < bDesired ∨ maxSupplyCap < reserveA ∨
          maxSupplyCap < reserveB ∨ maxSupplyCap < lpSupply then .error .valueOutOfRange
      else
        let amounts := charge aDesired bDesired reserveA reserveB
        let shares := sharesFor amounts reserveA reserveB lpSupply
        if shares = 0 then .error .zeroOutput
        else if maxSupplyCap < reserveA + amounts.1 ∨ maxSupplyCap < reserveB + amounts.2 ∨
            maxSupplyCap < lpSupply + shares then .error .valueOutOfRange
        else .ok
          { amountA := amounts.1, amountB := amounts.2, lpMinted := shares,
            newReserveA := reserveA + amounts.1, newReserveB := reserveB + amounts.2,
            newLpSupply := lpSupply + shares } := by
  rw [quoteAddLiquidity]
  apply require_bind_eq Iff.rfl
  intro h0
  apply require_bind_eq Iff.rfl
  intro hr
  apply require_bind_eq Iff.rfl
  intro hl
  rw [widen_eq, widen_eq, widen_eq, widen_eq, widen_eq]
  apply ite_bind_or
  intro hac
  apply ite_bind_or
  intro hbc
  apply ite_bind_or
  intro hra
  apply ite_bind_or
  intro hrb
  apply ite_bind_eq
  intro hlc
  rw [chargedAmounts_eq (by omega) (by omega) (by omega) (by omega) (by omega) (by omega), ok_bind]
  obtain ⟨hca, hcb⟩ : (charge aDesired bDesired reserveA reserveB).1 ≤ aDesired ∧
      (charge aDesired bDesired reserveA reserveB).2 ≤ bDesired :=
    charge_le (by omega) (by omega)
  generalize charge aDesired bDesired reserveA reserveB = amounts at hca hcb ⊢
  obtain ⟨amountA, amountB⟩ := amounts
  have hma : amountA * lpSupply ≤ 10 ^ 30 :=
    mul_le_of_le_cap (hca.trans (by omega)) (by omega)
  have hmb : amountB * lpSupply ≤ 10 ^ 30 :=
    mul_le_of_le_cap (hcb.trans (by omega)) (by omega)
  have hcap : maxSupplyCap = 10 ^ 15 := rfl
  dsimp only
  rw [okOr_checkedMul _ (by omega), ok_bind, okOr_checkedDiv _ (by omega), ok_bind,
    okOr_checkedMul _ (by omega), ok_bind, okOr_checkedDiv _ (by omega), ok_bind]
  have hshares : min (amountA * lpSupply / reserveA) (amountB * lpSupply / reserveB) =
    sharesFor (amountA, amountB) reserveA reserveB lpSupply := rfl
  have hsle : sharesFor (amountA, amountB) reserveA reserveB lpSupply ≤ 10 ^ 30 :=
    (Nat.min_le_left _ _).trans ((Nat.div_le_self _ _).trans hma)
  rw [hshares]
  generalize sharesFor (amountA, amountB) reserveA reserveB lpSupply = shares at hsle ⊢
  apply require_bind_eq Iff.rfl
  intro hz
  rw [narrow_of_le (by omega), ok_bind, narrow_of_le (by omega), ok_bind]
  -- shares above the cap take the new supply above it, with the same error
  by_cases hsc : maxSupplyCap < shares
  · rw [if_pos (by omega), narrow_eq, if_pos hsc]; rfl
  rw [narrow_of_le (by omega), ok_bind, okOr_checkedAdd _ (by omega), ok_bind, narrow_eq]
  apply ite_bind_or
  intro hna
  rw [okOr_checkedAdd _ (by omega), ok_bind, narrow_eq]
  apply ite_bind_or
  intro hnb
  rw [okOr_checkedAdd _ (by omega), ok_bind, narrow_eq]
  apply ite_bind_eq
  intro _
  rfl

/-! ### `quote_remove_liquidity` -/

theorem quoteRemoveLiquidity_eq (lpAmount reserveA reserveB lpSupply : ℕ) :
    quoteRemoveLiquidity lpAmount reserveA reserveB lpSupply =
      if lpAmount = 0 then .error .zeroAmount
      else if reserveA = 0 ∨ reserveB = 0 then .error .insufficientLiquidity
      else if lpSupply < minimumLiquidity then .error .invalidLiquidityState
      else if lpSupply < lpAmount then .error .insufficientLiquidity
      else if maxSupplyCap < reserveA ∨ maxSupplyCap < reserveB ∨ maxSupplyCap < lpSupply then
        .error .valueOutOfRange
      else if lpSupply - lpAmount < minimumLiquidity then .error .insufficientLiquidity
      else if lpAmount * reserveA / lpSupply = 0 ∨ lpAmount * reserveB / lpSupply = 0 then
        .error .zeroOutput
      else .ok
        { amountA := lpAmount * reserveA / lpSupply, amountB := lpAmount * reserveB / lpSupply,
          newReserveA := reserveA - lpAmount * reserveA / lpSupply,
          newReserveB := reserveB - lpAmount * reserveB / lpSupply,
          newLpSupply := lpSupply - lpAmount } := by
  rw [quoteRemoveLiquidity]
  apply require_bind_eq Iff.rfl
  intro h0
  apply require_bind_eq Iff.rfl
  intro hr
  apply require_bind_eq Iff.rfl
  intro hl
  apply require_bind_eq Iff.rfl
  intro hle
  -- what is burnt is in range with the supply it is part of
  have hrange : maxSupplyCap < lpAmount ∨ maxSupplyCap < reserveA ∨ maxSupplyCap < reserveB ∨
      maxSupplyCap < lpSupply ↔
      maxSupplyCap < reserveA ∨ maxSupplyCap < reserveB ∨ maxSupplyCap < lpSupply := by omega
  rw [widen_eq, widen_eq, widen_eq, widen_eq, ← if_congr hrange rfl rfl]
  apply ite_bind_or
  intro hpc
  apply ite_bind_or
  intro hra
  apply ite_bind_or
  intro hrb
  apply ite_bind_eq
  intro hlc
  rw [okOr_checkedSub _ (by omega), ok_bind]
  apply require_bind_eq Iff.rfl
  intro hmin
  have hcap : maxSupplyCap = 10 ^ 15 := rfl
  have hma : lpAmount * reserveA ≤ 10 ^ 30 := mul_le_of_le_cap (by omega) (by omega)
  have hmb : lpAmount * reserveB ≤ 10 ^ 30 := mul_le_of_le_cap (by omega) (by omega)
  have hpaid : ∀ reserve, lpAmount * reserve / lpSupply ≤ reserve := fun reserve =>
    Nat.div_le_of_le_mul (Nat.mul_le_mul_right _ (by omega))
  have hpa := hpaid reserveA
  have hpb := hpaid reserveB
  rw [okOr_checkedMul _ (by omega), ok_bind, okOr_checkedDiv _ (by omega), ok_bind,
    okOr_checkedMul _ (by omega), ok_bind, okOr_checkedDiv _ (by omega), ok_bind]
  apply require_bind_eq Iff.rfl
  intro hz
  rw [narrow_of_le (by omega), ok_bind, narrow_of_le (by omega), ok_bind, okOr_checkedSub _ hpa,
    ok_bind, narrow_of_le ((Nat.sub_le _ _).trans (by omega)), ok_bind, okOr_checkedSub _ hpb,
    ok_bind, narrow_of_le ((Nat.sub_le _ _).trans (by omega)), ok_bind,
    narrow_of_le (by omega)]; rfl

/-! ### What success means -/

/-- A swap quote on reserves `reserveIn` and `reserveOut`. -/
structure SwapQuote.Sound (q : SwapQuote) (amountIn reserveIn reserveOut : ℕ) : Prop where
  newReserveIn : q.newReserveIn = reserveIn + amountIn
  newReserveOut : q.newReserveOut + q.amountOut = reserveOut
  newReserveIn_le : q.newReserveIn ≤ maxSupplyCap
  reserveOut_le : reserveOut ≤ maxSupplyCap
  amountIn_pos : 0 < amountIn
  amountOut_pos : 0 < q.amountOut
  newReserveOut_pos : 0 < q.newReserveOut
  product : reserveIn * reserveOut ≤ q.newReserveIn * q.newReserveOut

theorem quoteSwap_ok {amountIn reserveIn reserveOut feeBps : ℕ} {q : SwapQuote}
    (h : quoteSwap amountIn reserveIn reserveOut feeBps = .ok q) :
    q.Sound amountIn reserveIn reserveOut := by
  rw [quoteSwap_eq] at h
  split_ifs at h with h0 hr hf hc hz hs
  obtain rfl := Except.ok.inj h
  have hlt : swapOut amountIn reserveIn reserveOut feeBps < reserveOut :=
    swapOut_lt (by omega) (by omega) _ _
  exact
    { newReserveIn := rfl
      newReserveOut := Nat.sub_add_cancel hlt.le
      newReserveIn_le := Nat.le_of_not_lt hs
      reserveOut_le := by omega
      amountIn_pos := by omega
      amountOut_pos := Nat.pos_of_ne_zero hz
      newReserveOut_pos := Nat.sub_pos_of_lt hlt
      product := swapOut_product _ _ _ _ }

/-- The errors of a swap on non-empty reserves. -/
theorem quoteSwap_error {amountIn reserveIn reserveOut feeBps : ℕ} {e : MathError}
    (h : quoteSwap amountIn reserveIn reserveOut feeBps = .error e)
    (hi : 0 < reserveIn) (ho : 0 < reserveOut) :
    e = .zeroOutput ∨ (amountIn = 0 ∧ e = .zeroAmount) ∨ (maxFeeBps < feeBps ∧ e = .invalidFee) ∨
      ((maxSupplyCap < reserveIn + amountIn ∨ maxSupplyCap < reserveOut) ∧
        e = .valueOutOfRange) := by
  rw [quoteSwap_eq] at h
  split_ifs at h with h0 hr hf hc hz hs <;> obtain rfl := Except.error.inj h
  · exact .inr (.inl ⟨h0, rfl⟩)
  · exact absurd hr (by omega)
  · exact .inr (.inr (.inl ⟨hf, rfl⟩))
  · exact .inr (.inr (.inr ⟨by omega, rfl⟩))
  · exact .inl rfl
  · exact .inr (.inr (.inr ⟨.inl hs, rfl⟩))

/-- The quote of a first deposit. -/
structure InitialLiquidityQuote.Sound (q : InitialLiquidityQuote) (amountA amountB : ℕ) :
    Prop where
  lpToLock : q.lpToLock = minimumLiquidity
  total : q.lpToUser + minimumLiquidity = (amountA * amountB).sqrt
  lpToUser_pos : 0 < q.lpToUser
  amountA_pos : 0 < amountA
  amountB_pos : 0 < amountB
  amountA_le : amountA ≤ maxSupplyCap
  amountB_le : amountB ≤ maxSupplyCap

theorem quoteInitialLiquidity_ok {amountA amountB : ℕ} {q : InitialLiquidityQuote}
    (h : quoteInitialLiquidity amountA amountB = .ok q) : q.Sound amountA amountB := by
  rw [quoteInitialLiquidity_eq] at h
  split_ifs at h with h0 hc hm
  obtain rfl := Except.ok.inj h
  exact
    { lpToLock := rfl
      total := Nat.sub_add_cancel (by omega)
      lpToUser_pos := Nat.sub_pos_of_lt (by omega)
      amountA_pos := by omega
      amountB_pos := by omega
      amountA_le := by omega
      amountB_le := by omega }

theorem quoteInitialLiquidity_error {amountA amountB : ℕ} {e : MathError}
    (h : quoteInitialLiquidity amountA amountB = .error e) :
    e = .insufficientInitialLiquidity ∨ ((amountA = 0 ∨ amountB = 0) ∧ e = .zeroAmount) ∨
      ((maxSupplyCap < amountA ∨ maxSupplyCap < amountB) ∧ e = .valueOutOfRange) := by
  rw [quoteInitialLiquidity_eq] at h
  split_ifs at h with h0 hc hm <;> obtain rfl := Except.error.inj h
  · exact .inr (.inl ⟨h0, rfl⟩)
  · exact .inr (.inr ⟨hc, rfl⟩)
  · exact .inl rfl

/-- The shares of a first deposit cover no more than its product. -/
theorem InitialLiquidityQuote.Sound.sq_le {q : InitialLiquidityQuote} {amountA amountB : ℕ}
    (h : q.Sound amountA amountB) : (q.lpToUser + q.lpToLock) ^ 2 ≤ amountA * amountB := by
  rw [h.lpToLock, h.total, pow_two]
  exact Nat.sqrt_le _

/-- The quote of a later deposit: no more than offered, and no more shares than either side's
pro-rata amount, rounded down. -/
structure AddLiquidityQuote.Sound (q : AddLiquidityQuote)
    (aDesired bDesired reserveA reserveB lpSupply : ℕ) : Prop where
  amountA_le : q.amountA ≤ aDesired
  amountB_le : q.amountB ≤ bDesired
  amountA_pos : 0 < q.amountA
  amountB_pos : 0 < q.amountB
  lpMinted_pos : 0 < q.lpMinted
  newReserveA : q.newReserveA = reserveA + q.amountA
  newReserveB : q.newReserveB = reserveB + q.amountB
  newLpSupply : q.newLpSupply = lpSupply + q.lpMinted
  newReserveA_le : q.newReserveA ≤ maxSupplyCap
  newReserveB_le : q.newReserveB ≤ maxSupplyCap
  newLpSupply_le : q.newLpSupply ≤ maxSupplyCap
  sharesA : q.lpMinted ≤ q.amountA * lpSupply / reserveA
  sharesB : q.lpMinted ≤ q.amountB * lpSupply / reserveB

theorem quoteAddLiquidity_ok {aDesired bDesired reserveA reserveB lpSupply : ℕ}
    {q : AddLiquidityQuote}
    (h : quoteAddLiquidity aDesired bDesired reserveA reserveB lpSupply = .ok q) :
    q.Sound aDesired bDesired reserveA reserveB lpSupply := by
  rw [quoteAddLiquidity_eq] at h
  dsimp only at h
  split_ifs at h with h0 hr hl hc hz hs
  obtain rfl := Except.ok.inj h
  have hra : 0 < reserveA := by omega
  have hrb : 0 < reserveB := by omega
  have hle : (charge aDesired bDesired reserveA reserveB).1 ≤ aDesired ∧ _ := charge_le hra hrb
  have hpos : 0 < (charge aDesired bDesired reserveA reserveB).1 ∧ _ :=
    charge_pos hra hrb (by omega) (by omega)
  exact
    { amountA_le := hle.1
      amountB_le := hle.2
      amountA_pos := hpos.1
      amountB_pos := hpos.2
      lpMinted_pos := Nat.pos_of_ne_zero hz
      newReserveA := rfl
      newReserveB := rfl
      newLpSupply := rfl
      newReserveA_le := Nat.le_of_not_lt fun h => hs (.inl h)
      newReserveB_le := Nat.le_of_not_lt fun h => hs (.inr (.inl h))
      newLpSupply_le := Nat.le_of_not_lt fun h => hs (.inr (.inr h))
      sharesA := Nat.min_le_left _ _
      sharesB := Nat.min_le_right _ _ }

/-- A deposit lowers no reserve per LP token. -/
theorem AddLiquidityQuote.Sound.ratios {aDesired bDesired reserveA reserveB lpSupply : ℕ}
    {q : AddLiquidityQuote} (h : q.Sound aDesired bDesired reserveA reserveB lpSupply) :
    reserveA * q.newLpSupply ≤ q.newReserveA * lpSupply ∧
      reserveB * q.newLpSupply ≤ q.newReserveB * lpSupply := by
  rw [h.newReserveA, h.newReserveB, h.newLpSupply]
  exact ⟨SharePool.mul_le_of_floor h.sharesA, SharePool.mul_le_of_floor h.sharesB⟩

/-- Shares issued pro rata, rounded down, stay under the cap with the reserves: `L² ≤ ra · rb`
bounds the share supply by the larger reserve. -/
theorem add_sharesFor_le {amounts : ℕ × ℕ} {reserveA reserveB lpSupply : ℕ} (ha : 0 < reserveA)
    (hb : 0 < reserveB) (hsq : lpSupply ^ 2 ≤ reserveA * reserveB)
    (hca : reserveA + amounts.1 ≤ maxSupplyCap) (hcb : reserveB + amounts.2 ≤ maxSupplyCap) :
    lpSupply + sharesFor amounts reserveA reserveB lpSupply ≤ maxSupplyCap := by
  obtain ⟨s, hs⟩ : ∃ s, s = sharesFor amounts reserveA reserveB lpSupply := ⟨_, rfl⟩
  have hsa : s * reserveA ≤ amounts.1 * lpSupply :=
    (Nat.le_div_iff_mul_le ha).mp (hs ▸ Nat.min_le_left _ _)
  have hsb : s * reserveB ≤ amounts.2 * lpSupply :=
    (Nat.le_div_iff_mul_le hb).mp (hs ▸ Nat.min_le_right _ _)
  rw [← hs]
  refine (Nat.pow_le_pow_iff_left two_ne_zero).mp ?_
  have hpos : 0 < reserveA * reserveB := Nat.mul_pos ha hb
  have hA : (lpSupply + s) * reserveA ≤ lpSupply * maxSupplyCap :=
    calc (lpSupply + s) * reserveA = lpSupply * reserveA + s * reserveA := by ring
      _ ≤ lpSupply * reserveA + amounts.1 * lpSupply := by omega
      _ = lpSupply * (reserveA + amounts.1) := by ring
      _ ≤ lpSupply * maxSupplyCap := Nat.mul_le_mul_left _ hca
  have hB : (lpSupply + s) * reserveB ≤ lpSupply * maxSupplyCap :=
    calc (lpSupply + s) * reserveB = lpSupply * reserveB + s * reserveB := by ring
      _ ≤ lpSupply * reserveB + amounts.2 * lpSupply := by omega
      _ = lpSupply * (reserveB + amounts.2) := by ring
      _ ≤ lpSupply * maxSupplyCap := Nat.mul_le_mul_left _ hcb
  refine Nat.le_of_mul_le_mul_right ?_ hpos
  calc (lpSupply + s) ^ 2 * (reserveA * reserveB)
      = (lpSupply + s) * reserveA * ((lpSupply + s) * reserveB) := by ring
    _ ≤ lpSupply * maxSupplyCap * (lpSupply * maxSupplyCap) := Nat.mul_le_mul hA hB
    _ = lpSupply ^ 2 * maxSupplyCap ^ 2 := by ring
    _ ≤ reserveA * reserveB * maxSupplyCap ^ 2 := Nat.mul_le_mul_right _ hsq
    _ = maxSupplyCap ^ 2 * (reserveA * reserveB) := Nat.mul_comm _ _

/-- The errors of a deposit into a pool in order. -/
theorem quoteAddLiquidity_error {aDesired bDesired reserveA reserveB lpSupply : ℕ} {e : MathError}
    (h : quoteAddLiquidity aDesired bDesired reserveA reserveB lpSupply = .error e)
    (ha : 0 < reserveA) (hb : 0 < reserveB) (hl : minimumLiquidity ≤ lpSupply)
    (hsq : lpSupply ^ 2 ≤ reserveA * reserveB) :
    e = .zeroOutput ∨ ((aDesired = 0 ∨ bDesired = 0) ∧ e = .zeroAmount) ∨
      ((maxSupplyCap < reserveA + aDesired ∨ maxSupplyCap < reserveB + bDesired) ∧
        e = .valueOutOfRange) := by
  rw [quoteAddLiquidity_eq] at h
  dsimp only at h
  obtain ⟨hca, hcb⟩ : (charge aDesired bDesired reserveA reserveB).1 ≤ aDesired ∧
      (charge aDesired bDesired reserveA reserveB).2 ≤ bDesired := charge_le ha hb
  by_cases hsum : maxSupplyCap < reserveA + aDesired ∨ maxSupplyCap < reserveB + bDesired
  · split_ifs at h with h0 hr hl' hc hz hs <;> obtain rfl := Except.error.inj h
    · exact .inr (.inl ⟨h0, rfl⟩)
    · exact absurd hr (by omega)
    · exact absurd hl' (by omega)
    · exact .inr (.inr ⟨hsum, rfl⟩)
    · exact .inl rfl
    · exact .inr (.inr ⟨hsum, rfl⟩)
  · have hshares : lpSupply + sharesFor (charge aDesired bDesired reserveA reserveB) reserveA
        reserveB lpSupply ≤ maxSupplyCap := add_sharesFor_le ha hb hsq (by omega) (by omega)
    have hlp : lpSupply ≤ maxSupplyCap := (Nat.le_add_right _ _).trans hshares
    split_ifs at h with h0 hr hl' hc hz hs <;> obtain rfl := Except.error.inj h
    · exact .inr (.inl ⟨h0, rfl⟩)
    · exact absurd hr (by omega)
    · exact absurd hl' (by omega)
    · exact absurd hc (by omega)
    · exact .inl rfl
    · rcases hs with hs | hs | hs <;> omega

/-- The quote of a withdrawal: both sides pro rata, rounded down. -/
structure RemoveLiquidityQuote.Sound (q : RemoveLiquidityQuote)
    (lpAmount reserveA reserveB lpSupply : ℕ) : Prop where
  amountA : q.amountA = lpAmount * reserveA / lpSupply
  amountB : q.amountB = lpAmount * reserveB / lpSupply
  newReserveA : q.newReserveA + q.amountA = reserveA
  newReserveB : q.newReserveB + q.amountB = reserveB
  newLpSupply : q.newLpSupply + lpAmount = lpSupply
  lpAmount_pos : 0 < lpAmount
  amountA_pos : 0 < q.amountA
  amountB_pos : 0 < q.amountB
  newReserveA_pos : 0 < q.newReserveA
  newReserveB_pos : 0 < q.newReserveB
  remaining : minimumLiquidity ≤ q.newLpSupply

theorem quoteRemoveLiquidity_ok {lpAmount reserveA reserveB lpSupply : ℕ}
    {q : RemoveLiquidityQuote}
    (h : quoteRemoveLiquidity lpAmount reserveA reserveB lpSupply = .ok q) :
    q.Sound lpAmount reserveA reserveB lpSupply := by
  rw [quoteRemoveLiquidity_eq] at h
  split_ifs at h with h0 hr hl hle hc hm hz
  obtain rfl := Except.ok.inj h
  have hmin : 0 < minimumLiquidity := by decide
  have hlt : ∀ reserve, 0 < reserve → lpAmount * reserve / lpSupply < reserve :=
    fun reserve hpos => by
      rw [Nat.div_lt_iff_lt_mul (by omega), Nat.mul_comm]
      exact Nat.mul_lt_mul_of_pos_left (by omega) hpos
  have hA := hlt reserveA (by omega)
  have hB := hlt reserveB (by omega)
  exact
    { amountA := rfl
      amountB := rfl
      newReserveA := Nat.sub_add_cancel hA.le
      newReserveB := Nat.sub_add_cancel hB.le
      newLpSupply := Nat.sub_add_cancel (by omega)
      lpAmount_pos := by omega
      amountA_pos := Nat.pos_of_ne_zero fun h => hz (.inl h)
      amountB_pos := Nat.pos_of_ne_zero fun h => hz (.inr h)
      newReserveA_pos := Nat.sub_pos_of_lt hA
      newReserveB_pos := Nat.sub_pos_of_lt hB
      remaining := Nat.le_of_not_lt hm }

/-- A withdrawal lowers no reserve per LP token. -/
theorem RemoveLiquidityQuote.Sound.ratios {lpAmount reserveA reserveB lpSupply : ℕ}
    {q : RemoveLiquidityQuote} (h : q.Sound lpAmount reserveA reserveB lpSupply) :
    reserveA * q.newLpSupply ≤ q.newReserveA * lpSupply ∧
      reserveB * q.newLpSupply ≤ q.newReserveB * lpSupply :=
  ⟨SharePool.mul_le_of_floor_sub h.newReserveA h.newLpSupply h.amountA,
    SharePool.mul_le_of_floor_sub h.newReserveB h.newLpSupply h.amountB⟩

/-- The errors of a withdrawal from a pool in order. -/
theorem quoteRemoveLiquidity_error {lpAmount reserveA reserveB lpSupply : ℕ} {e : MathError}
    (h : quoteRemoveLiquidity lpAmount reserveA reserveB lpSupply = .error e)
    (ha : 0 < reserveA) (hb : 0 < reserveB) (hl : minimumLiquidity ≤ lpSupply)
    (hac : reserveA ≤ maxSupplyCap) (hbc : reserveB ≤ maxSupplyCap)
    (hlc : lpSupply ≤ maxSupplyCap) :
    ((lpAmount * reserveA / lpSupply = 0 ∨ lpAmount * reserveB / lpSupply = 0) ∧
        e = .zeroOutput) ∨ (lpAmount = 0 ∧ e = .zeroAmount) ∨
      (lpSupply < lpAmount + minimumLiquidity ∧ e = .insufficientLiquidity) := by
  rw [quoteRemoveLiquidity_eq] at h
  split_ifs at h with h0 hr hl' hle hc hm hz <;> obtain rfl := Except.error.inj h
  · exact .inr (.inl ⟨h0, rfl⟩)
  · exact absurd hr (by omega)
  · exact absurd hl' (by omega)
  · exact .inr (.inr ⟨by omega, rfl⟩)
  · exact absurd hc (by omega)
  · exact .inr (.inr ⟨by omega, rfl⟩)
  · exact .inl ⟨hz, rfl⟩

end StablecoinAmm.Amm
