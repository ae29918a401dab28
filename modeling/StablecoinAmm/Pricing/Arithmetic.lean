import StablecoinAmm.Amm.Quotes

/-!
# Pricing — the arithmetic under the quotes

On every input, whatever its size:

* `no_arithmetic_failure`: no checked operation of a quote overflows, and the exits that guard
  against a wrong quotient are dead.
* `floor_root_and_first_deposit`: `integer_sqrt` ends with the floor root of any `u128`, and a
  first deposit is issued the floor root of its product.
-/

namespace StablecoinAmm.Amm
open Support

/-! ### The errors of the quotes -/

section
variable {amountIn reserveIn reserveOut feeBps : ℕ}

theorem quoteSwap_ne_mathOverflow :
    quoteSwap amountIn reserveIn reserveOut feeBps ≠ .error .mathOverflow := by
  rw [quoteSwap_eq]
  split_ifs <;> nofun

/-- `new_k < old_k` is the only exit of `quote_swap` with this error. -/
theorem quoteSwap_ne_invalidLiquidityState :
    quoteSwap amountIn reserveIn reserveOut feeBps ≠ .error .invalidLiquidityState := by
  rw [quoteSwap_eq]
  split_ifs <;> nofun

/-- `amount_out >= reserve_out` shares its error with the check for empty reserves, and leaves it
to that check. -/
theorem quoteSwap_insufficientLiquidity
    (h : quoteSwap amountIn reserveIn reserveOut feeBps = .error .insufficientLiquidity) :
    reserveIn = 0 ∨ reserveOut = 0 := by
  by_contra hr
  rw [quoteSwap_eq] at h
  split_ifs at h <;> cases h

end

theorem quoteInitialLiquidity_ne_mathOverflow {amountA amountB : ℕ} :
    quoteInitialLiquidity amountA amountB ≠ .error .mathOverflow := by
  rw [quoteInitialLiquidity_eq]
  split_ifs <;> nofun

theorem quoteAddLiquidity_ne_mathOverflow {aDesired bDesired reserveA reserveB lpSupply : ℕ} :
    quoteAddLiquidity aDesired bDesired reserveA reserveB lpSupply ≠ .error .mathOverflow := by
  rw [quoteAddLiquidity_eq]
  dsimp only
  split_ifs <;> nofun

theorem quoteRemoveLiquidity_ne_mathOverflow {lpAmount reserveA reserveB lpSupply : ℕ} :
    quoteRemoveLiquidity lpAmount reserveA reserveB lpSupply ≠ .error .mathOverflow := by
  rw [quoteRemoveLiquidity_eq]
  split_ifs <;> nofun

/-! ### The charge -/

section
variable {n d k : ℕ} {e : MathError}

theorem ceilDiv_ok (hn : n < 2 ^ 128) (h : ceilDiv n d = .ok k) : 0 < d ∧ k = divCeil n d := by
  rcases Nat.eq_zero_or_pos d with rfl | hd
  · cases h
  · rw [ceilDiv_eq hn hd] at h
    exact ⟨hd, (Except.ok.inj h).symm⟩

theorem ceilDiv_error (hn : n < 2 ^ 128) (h : ceilDiv n d = .error e) :
    d = 0 ∧ e = .zeroAmount := by
  rcases Nat.eq_zero_or_pos d with rfl | hd
  · exact ⟨rfl, (Except.error.inj h).symm⟩
  · rw [ceilDiv_eq hn hd] at h
    cases h

theorem ceilDiv_error_iff (hn : n < 2 ^ 128) : (∃ e, ceilDiv n d = .error e) ↔ d = 0 := by
  constructor
  · rintro ⟨e, h⟩
    exact (ceilDiv_error hn h).1
  · rintro rfl
    exact ⟨.zeroAmount, rfl⟩

end

/-- `a_optimal > a_desired` is the only exit of the charge with this error.  Where `b_optimal`
exceeds what is offered, `a_optimal` does not. -/
theorem chargedAmounts_ne_valueOutOfRange {aDesired bDesired reserveA reserveB : ℕ} :
    chargedAmounts aDesired bDesired reserveA reserveB ≠ .error .valueOutOfRange := by
  intro h
  rw [chargedAmounts] at h
  rcases bind_error_iff.mp h with h | ⟨scaledA, hscaledA, h⟩
  · cases (okOr_error_iff.mp h).2
  obtain ⟨hA, rfl⟩ := checkedMul_eq_some.mp (okOr_ok_iff.mp hscaledA)
  rcases bind_error_iff.mp h with h | ⟨bOptimal, hb, h⟩
  · cases (ceilDiv_error hA h).2
  obtain ⟨hreserveA, rfl⟩ := ceilDiv_ok hA hb
  split at h
  · cases h
  rename_i hshort
  rcases bind_error_iff.mp h with h | ⟨scaledB, hscaledB, h⟩
  · cases (okOr_error_iff.mp h).2
  obtain ⟨hB, rfl⟩ := checkedMul_eq_some.mp (okOr_ok_iff.mp hscaledB)
  rcases bind_error_iff.mp h with h | ⟨aOptimal, ha, h⟩
  · cases (ceilDiv_error hB h).2
  obtain ⟨hreserveB, rfl⟩ := ceilDiv_ok hB ha
  have hle : divCeil (bDesired * reserveA) reserveB ≤ aDesired := by
    rw [divCeil_le_iff hreserveA] at hshort
    exact (divCeil_le_iff hreserveB).mpr (by omega)
  rw [require_of (by omega)] at h
  cases h

/-! ### No failure -/

/-- **No arithmetic failure on any input.** -/
theorem no_arithmetic_failure :
    (∀ amountIn reserveIn reserveOut feeBps,
      quoteSwap amountIn reserveIn reserveOut feeBps ≠ .error .mathOverflow ∧
      -- `amount_out >= reserve_out` and `new_k < old_k` are dead
      (quoteSwap amountIn reserveIn reserveOut feeBps = .error .insufficientLiquidity →
        reserveIn = 0 ∨ reserveOut = 0) ∧
      quoteSwap amountIn reserveIn reserveOut feeBps ≠ .error .invalidLiquidityState) ∧
    (∀ amountA amountB, quoteInitialLiquidity amountA amountB ≠ .error .mathOverflow) ∧
    (∀ aDesired bDesired reserveA reserveB lpSupply,
      quoteAddLiquidity aDesired bDesired reserveA reserveB lpSupply ≠ .error .mathOverflow ∧
      -- `a_optimal > a_desired` is dead
      chargedAmounts aDesired bDesired reserveA reserveB ≠ .error .valueOutOfRange) ∧
    (∀ lpAmount reserveA reserveB lpSupply,
      quoteRemoveLiquidity lpAmount reserveA reserveB lpSupply ≠ .error .mathOverflow) ∧
    (∀ value < 2 ^ 128, ∀ e, ¬ SqrtReturns value (.error e) ∧ integerSqrt value ≠ .error e) ∧
    ∀ numerator < 2 ^ 128, ∀ denominator,
      (∃ e, ceilDiv numerator denominator = .error e) ↔ denominator = 0 := by
  refine ⟨fun _ _ _ _ => ⟨?_, ?_, ?_⟩, fun _ _ => ?_, fun _ _ _ _ _ => ⟨?_, ?_⟩, fun _ _ _ _ => ?_,
    fun value hv e => ⟨?_, ?_⟩, fun _ hn _ => ?_⟩
  · exact quoteSwap_ne_mathOverflow
  · exact quoteSwap_insufficientLiquidity
  · exact quoteSwap_ne_invalidLiquidityState
  · exact quoteInitialLiquidity_ne_mathOverflow
  · exact quoteAddLiquidity_ne_mathOverflow
  · exact chargedAmounts_ne_valueOutOfRange
  · exact quoteRemoveLiquidity_ne_mathOverflow
  · intro h
    rw [sqrtReturns_iff hv, integerSqrt_eq hv] at h
    cases h
  · rw [integerSqrt_eq hv]
    nofun
  · exact ceilDiv_error_iff hn

/-- At the largest arguments there are. -/
theorem no_arithmetic_failure_largest :
    quoteSwap (2 ^ 64 - 1) (2 ^ 64 - 1) (2 ^ 64 - 1) (2 ^ 16 - 1) ≠ .error .mathOverflow ∧
    (∀ e, ¬ SqrtReturns (2 ^ 128 - 1) (.error e) ∧ integerSqrt (2 ^ 128 - 1) ≠ .error e) ∧
    (∃ e, ceilDiv (2 ^ 128 - 1) 0 = .error e) ∧ ¬ ∃ e, ceilDiv (2 ^ 128 - 1) 2 = .error e := by
  obtain ⟨hswap, -, -, -, hroot, hceil⟩ := no_arithmetic_failure
  refine ⟨(hswap _ _ _ _).1, hroot _ (by decide), ?_, ?_⟩
  · exact (hceil _ (by decide) 0).mpr rfl
  · exact (hceil _ (by decide) 2).not.mpr (by decide)

/-! ### The floor root -/

/-- `r` is the root of `value`, rounded down. -/
def FloorRoot (value r : ℕ) : Prop := r * r ≤ value ∧ value < (r + 1) * (r + 1)

theorem floorRoot_iff {value r : ℕ} : FloorRoot value r ↔ r = value.sqrt := Nat.eq_sqrt.symm

/-- What `quote_initial_liquidity` accepts. -/
structure FirstDepositAccepted (amountA amountB : ℕ) : Prop where
  amountA_mem : 1 ≤ amountA ∧ amountA ≤ maxSupplyCap
  amountB_mem : 1 ≤ amountB ∧ amountB ≤ maxSupplyCap
  product : 1001 * 1001 ≤ amountA * amountB

/-- The quote of a first deposit is what it should be, to the unit. -/
structure InitialLiquidityQuote.Exact (q : InitialLiquidityQuote) (amountA amountB : ℕ) :
    Prop where
  total : integerSqrt (amountA * amountB) = .ok (q.lpToUser + q.lpToLock)
  floorRoot : FloorRoot (amountA * amountB) (q.lpToUser + q.lpToLock)
  lpToLock : q.lpToLock = 1000
  lpToUser_pos : 1 ≤ q.lpToUser

section
variable {amountA amountB : ℕ} {q : InitialLiquidityQuote}

theorem quoteInitialLiquidity_accepts (h : FirstDepositAccepted amountA amountB) :
    ∃ q, quoteInitialLiquidity amountA amountB = .ok q := by
  obtain ⟨hA, hB, hproduct⟩ := h
  have hroot : 1001 ≤ (amountA * amountB).sqrt := Nat.le_sqrt.mpr hproduct
  have hlocked : minimumLiquidity = 1000 := rfl
  rw [quoteInitialLiquidity_eq, if_neg (by omega), if_neg (by omega), if_neg (by omega)]
  exact ⟨_, rfl⟩

theorem InitialLiquidityQuote.Sound.accepted (h : q.Sound amountA amountB) :
    FirstDepositAccepted amountA amountB := by
  have hlocked : minimumLiquidity = 1000 := rfl
  have hroot : 1001 ≤ (amountA * amountB).sqrt := by
    have htotal := h.total
    have hpos := h.lpToUser_pos
    omega
  exact
    { amountA_mem := ⟨h.amountA_pos, h.amountA_le⟩
      amountB_mem := ⟨h.amountB_pos, h.amountB_le⟩
      product := Nat.le_sqrt.mp hroot }

theorem InitialLiquidityQuote.Sound.exact (h : q.Sound amountA amountB) :
    q.Exact amountA amountB := by
  have htotal : q.lpToUser + q.lpToLock = (amountA * amountB).sqrt := by
    rw [h.lpToLock]
    exact h.total
  have hproduct := mul_le_of_le_cap h.amountA_le h.amountB_le
  exact
    { total := by rw [htotal]; exact integerSqrt_eq (by omega)
      floorRoot := floorRoot_iff.mpr htotal
      lpToLock := h.lpToLock
      lpToUser_pos := h.lpToUser_pos }

end

/-- **The floor root, and the first deposit.** -/
theorem floor_root_and_first_deposit :
    (∀ value < 2 ^ 128, ∃ r,
      SqrtReturns value (.ok r) ∧ (∀ out, SqrtReturns value out → out = .ok r) ∧
      integerSqrt value = .ok r ∧ FloorRoot value r ∧ ∀ r', FloorRoot value r' → r' = r) ∧
    ∀ amountA amountB,
      ((∃ q, quoteInitialLiquidity amountA amountB = .ok q) ↔
        FirstDepositAccepted amountA amountB) ∧
      ∀ q, quoteInitialLiquidity amountA amountB = .ok q → q.Exact amountA amountB := by
  refine ⟨fun value hv => ⟨value.sqrt, ?_, ?_, ?_, ?_, ?_⟩, fun amountA amountB => ⟨⟨?_, ?_⟩, ?_⟩⟩
  · exact (sqrtReturns_iff hv).mpr (integerSqrt_eq hv).symm
  · exact fun out h => ((sqrtReturns_iff hv).mp h).trans (integerSqrt_eq hv)
  · exact integerSqrt_eq hv
  · exact floorRoot_iff.mpr rfl
  · exact fun r' h => floorRoot_iff.mp h
  · rintro ⟨q, h⟩
    exact (quoteInitialLiquidity_ok h).accepted
  · exact quoteInitialLiquidity_accepts
  · exact fun q h => (quoteInitialLiquidity_ok h).exact

/-- The largest `u128`, and a first deposit one unit above the least there is. -/
theorem floor_root_and_first_deposit_least :
    (∃ r, SqrtReturns (2 ^ 128 - 1) (.ok r) ∧ r = 2 ^ 64 - 1) ∧
    ∃ q, quoteInitialLiquidity 1001 1002 = .ok q ∧ q.lpToUser = 1 ∧ q.Exact 1001 1002 := by
  obtain ⟨hroot, hdeposit⟩ := floor_root_and_first_deposit
  obtain ⟨r, hr, -, -, -, hunique⟩ := hroot (2 ^ 128 - 1) (by decide)
  have hmax : FloorRoot (2 ^ 128 - 1) (2 ^ 64 - 1) := by
    unfold FloorRoot
    decide
  refine ⟨⟨r, hr, (hunique _ hmax).symm⟩, ⟨1, 1000⟩, ?_, rfl, ?_⟩
  · decide +kernel
  · exact (hdeposit 1001 1002).2 _ (by decide +kernel)

end StablecoinAmm.Amm
