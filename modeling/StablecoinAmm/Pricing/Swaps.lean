import StablecoinAmm.Amm.Quotes
import StablecoinAmm.Support.Runs

/-!
# Pricing — swaps

`quote_swap` is constant-product pricing with a fee, rounded down (`swapOut_eq`).  What follows
from that, on all inputs:

* `quoteSwap_exact`: which swaps are accepted, and that the output is the largest the
  fee-adjusted product allows.
* `swapOut_mono`: more is paid out for a larger input, a larger output reserve, a smaller input
  reserve and a smaller fee.
* `split_swaps_never_pay`: swaps one after another pay no more than one swap of their sum.
* `larger_swap_price`: a larger swap gets no better average price where its price impact outweighs
  what rounding can take from the smaller one.
-/

namespace StablecoinAmm.Amm
open Support

section
variable {amountIn reserveIn reserveOut feeBps : ℕ} {q : SwapQuote}

/-! ### Acceptance and output -/

/-- What `quote_swap` accepts. -/
structure SwapAccepted (amountIn reserveIn reserveOut feeBps : ℕ) : Prop where
  amountIn_pos : 1 ≤ amountIn
  amountIn_le : amountIn ≤ maxSupplyCap
  reserveIn_pos : 1 ≤ reserveIn
  reserveIn_le : reserveIn ≤ maxSupplyCap
  reserveOut_pos : 1 ≤ reserveOut
  reserveOut_le : reserveOut ≤ maxSupplyCap
  feeBps_le : feeBps ≤ maxFeeBps
  newReserveIn_le : reserveIn + amountIn ≤ maxSupplyCap
  pays : reserveIn * feeDenominator + amountIn * (feeDenominator - feeBps) ≤
    amountIn * (feeDenominator - feeBps) * reserveOut

theorem swapOut_ne_zero_iff (hi : 0 < reserveIn) :
    swapOut amountIn reserveIn reserveOut feeBps ≠ 0 ↔
      reserveIn * feeDenominator + amountIn * (feeDenominator - feeBps) ≤
        amountIn * (feeDenominator - feeBps) * reserveOut := by
  rw [← Nat.one_le_iff_ne_zero, swapOut, Nat.le_div_iff_mul_le (swapBase_pos hi _ _), Nat.one_mul]
  exact Iff.rfl

theorem quoteSwap_ok_iff :
    quoteSwap amountIn reserveIn reserveOut feeBps = .ok q ↔
      SwapAccepted amountIn reserveIn reserveOut feeBps ∧
      q = { amountOut := swapOut amountIn reserveIn reserveOut feeBps,
            newReserveIn := reserveIn + amountIn,
            newReserveOut := reserveOut - swapOut amountIn reserveIn reserveOut feeBps } := by
  rw [quoteSwap_eq]
  constructor
  · intro h
    split_ifs at h with h0 hr hf hc hz hs
    have hpays := (swapOut_ne_zero_iff (by omega)).mp hz
    exact ⟨⟨by omega, by omega, by omega, by omega, by omega, by omega, by omega, by omega, hpays⟩,
      (Except.ok.inj h).symm⟩
  · rintro ⟨h, rfl⟩
    obtain ⟨hx, hx', hi, hi', ho, ho', hf, hs, hpays⟩ := h
    have hz := (swapOut_ne_zero_iff hi).mpr hpays
    rw [if_neg (by omega), if_neg (by omega), if_neg (by omega), if_neg (by omega), if_neg hz,
      if_neg (by omega)]

/-- A quote is what it should be, to the unit. -/
structure SwapQuote.Exact (q : SwapQuote) (amountIn reserveIn reserveOut feeBps : ℕ) : Prop where
  /-- No larger integer keeps the product with the part of the input that counts. -/
  greatest : IsGreatest
    {o : ℤ | (reserveIn : ℤ) * feeDenominator * reserveOut ≤
      (reserveIn * feeDenominator + amountIn * (feeDenominator - feeBps)) * (reserveOut - o)}
    q.amountOut
  amountOut_pos : 1 ≤ q.amountOut
  amountOut_lt : q.amountOut < reserveOut
  newReserveIn : q.newReserveIn = reserveIn + amountIn
  newReserveOut : q.newReserveOut = reserveOut - q.amountOut
  product : reserveIn * reserveOut ≤ q.newReserveIn * q.newReserveOut
  product_lt : 0 < feeBps → reserveIn * reserveOut < q.newReserveIn * q.newReserveOut

theorem swapOut_greatest (hi : 0 < reserveIn) (hf : feeBps ≤ feeDenominator) :
    IsGreatest
      {o : ℤ | (reserveIn : ℤ) * feeDenominator * reserveOut ≤
        (reserveIn * feeDenominator + amountIn * (feeDenominator - feeBps)) * (reserveOut - o)}
      (swapOut amountIn reserveIn reserveOut feeBps) := by
  have h := (swapFee feeBps).isGreatest_out hi reserveOut amountIn
  rw [swapOut_eq]
  convert h using 3 with o
  rw [Fee.Keeps, Fee.base, mul_comm (reserveOut : ℤ), mul_comm ((reserveOut : ℤ) - o)]
  simp only [Fee.toInt, swapFee, Nat.cast_sub hf]

theorem quoteSwap_exact_of_ok (h : quoteSwap amountIn reserveIn reserveOut feeBps = .ok q) :
    q.Exact amountIn reserveIn reserveOut feeBps := by
  obtain ⟨ha, rfl⟩ := quoteSwap_ok_iff.mp h
  have hs := quoteSwap_ok h
  have hf : feeBps ≤ feeDenominator := ha.feeBps_le.trans (by decide)
  have hkeeps := (swapFee feeBps).keeps_out reserveIn reserveOut amountIn
  exact
    { greatest := swapOut_greatest ha.reserveIn_pos hf
      amountOut_pos := hs.amountOut_pos
      amountOut_lt := swapOut_lt ha.reserveIn_pos ha.reserveOut_pos _ _
      newReserveIn := rfl
      newReserveOut := rfl
      product := hs.product
      product_lt := fun hpos =>
        hkeeps.product_lt (show feeDenominator - feeBps < feeDenominator by omega) hs.amountIn_pos
          hs.newReserveOut_pos }

end

/-- **The swap quote is exact.** -/
theorem quoteSwap_exact (amountIn reserveIn reserveOut feeBps : ℕ) :
    ((∃ q, quoteSwap amountIn reserveIn reserveOut feeBps = .ok q) ↔
      SwapAccepted amountIn reserveIn reserveOut feeBps) ∧
    ∀ q, quoteSwap amountIn reserveIn reserveOut feeBps = .ok q →
      q.Exact amountIn reserveIn reserveOut feeBps := by
  refine ⟨⟨?_, ?_⟩, fun q h => quoteSwap_exact_of_ok h⟩
  · rintro ⟨q, h⟩
    exact (quoteSwap_ok_iff.mp h).1
  · intro h
    exact ⟨_, quoteSwap_ok_iff.mpr ⟨h, rfl⟩⟩

/-- One unit against a reserve of three for one, without a fee: one is paid, and two would be too
many. -/
theorem quoteSwap_exact_one :
    ∃ q, quoteSwap 1 1 3 0 = .ok q ∧ q.amountOut = 1 ∧ q.Exact 1 1 3 0 :=
  ⟨⟨1, 2, 2⟩, by decide, rfl, (quoteSwap_exact 1 1 3 0).2 _ (by decide)⟩

/-! ### Monotonicity -/

/-- **More for a larger input, from a larger reserve, against a smaller one, at a smaller fee.** -/
theorem swapOut_mono {x x' i i' o o' f f' : ℕ} (hx : x ≤ x') (hi : i' ≤ i) (hi' : 0 < i')
    (ho : o ≤ o') (hf : f' ≤ f) : swapOut x i o f ≤ swapOut x' i' o' f' := by
  have hle : swapOut x i o f ≤ o := swapOut_le x i o f
  have hnet : (swapFee f).net ≤ (swapFee f').net := Nat.sub_le_sub_left hf _
  rw [swapOut_eq x' i' o' f', Fee.le_out_iff hi']
  have h : (swapFee f).Affords i o x (swapOut x i o f) := (swapFee f).out_affords i o x
  have h₁ := (h.payment hx hle).stockOut ho (Nat.zero_le _)
  exact (h₁.stockIn hi (Nat.zero_le _)).fee rfl hnet (Nat.zero_le _) (hle.trans ho)

/-! ### Splitting -/

/-- Swaps in one direction, each on the reserves the one before it left. -/
def quoteSwaps (feeBps : ℕ) : ℕ × ℕ → List ℕ → Except MathError (List SwapQuote) :=
  answers (fun r amountIn => quoteSwap amountIn r.1 r.2 feeBps)
    fun q => (q.newReserveIn, q.newReserveOut)

/-- The reserves after a sequence of swaps: the input reserve holds the sum, and what remains of
the output reserve keeps what one swap of the sum would have to keep. -/
theorem quoteSwaps_keeps {feeBps : ℕ} {amounts : List ℕ} {qs : List SwapQuote} :
    ∀ {r : ℕ × ℕ}, r.1 ≤ maxSupplyCap → quoteSwaps feeBps r amounts = .ok qs →
      r.1 + amounts.sum ≤ maxSupplyCap ∧ ∃ rest, rest + (qs.map (·.amountOut)).sum = r.2 ∧
        (swapFee feeBps).Keeps r.1 r.2 amounts.sum rest := by
  induction amounts generalizing qs with
  | nil =>
      intro r hr h
      rw [answers_nil h]
      exact ⟨hr, r.2, rfl, Fee.keeps_zero _ _ _⟩
  | cons amountIn amounts ih =>
      intro r _ h
      obtain ⟨q, qs', hq, hqs, rfl⟩ := answers_cons h
      obtain ⟨ha, rfl⟩ := quoteSwap_ok_iff.mp hq
      obtain ⟨hcap, rest, hrest, hkeeps⟩ := ih ha.newReserveIn_le hqs
      have hfirst := (swapFee feeBps).keeps_out r.1 r.2 amountIn
      have hle : swapOut amountIn r.1 r.2 feeBps ≤ r.2 := swapOut_le ..
      rw [List.sum_cons, List.map_cons, List.sum_cons]
      dsimp only at hcap hrest hkeeps ⊢
      refine ⟨by omega, rest, by omega, ?_⟩
      exact hfirst.then hkeeps ha.reserveIn_pos (Nat.zero_le _) (Nat.zero_le _) (Nat.zero_le _)

/-- **Splitting a swap never pays.** -/
theorem split_swaps_never_pay {reserveIn reserveOut feeBps : ℕ} {amounts : List ℕ}
    {qs : List SwapQuote} (hne : amounts ≠ [])
    (h : quoteSwaps feeBps (reserveIn, reserveOut) amounts = .ok qs) :
    ∃ q, quoteSwap amounts.sum reserveIn reserveOut feeBps = .ok q ∧
      (qs.map (·.amountOut)).sum ≤ q.amountOut := by
  obtain ⟨amountIn, amounts, rfl⟩ := List.exists_cons_of_ne_nil hne
  obtain ⟨q₁, qs', hq₁, -, rfl⟩ := answers_cons h
  obtain ⟨ha, -⟩ := quoteSwap_ok_iff.mp hq₁
  have hpos := (quoteSwap_ok hq₁).amountOut_pos
  obtain ⟨hcap, rest, hrest, hkeeps⟩ := quoteSwaps_keeps ha.reserveIn_le h
  -- the sum of the outputs is an affordable output of the one swap
  have hle : ((q₁ :: qs').map (·.amountOut)).sum ≤
      swapOut (amountIn :: amounts).sum reserveIn reserveOut feeBps := by
    rw [swapOut_eq, Fee.le_out_iff ha.reserveIn_pos]
    exact (Fee.keeps_iff_affords hrest).mp hkeeps
  have hx := ha.amountIn_pos
  have hout : 0 < swapOut (amountIn :: amounts).sum reserveIn reserveOut feeBps := by
    rw [List.map_cons, List.sum_cons] at hle
    omega
  rw [List.sum_cons] at hcap
  refine ⟨_, quoteSwap_ok_iff.mpr ⟨?_, rfl⟩, hle⟩
  refine
    { amountIn_pos := by rw [List.sum_cons]; omega
      amountIn_le := by rw [List.sum_cons]; omega
      reserveIn_pos := ha.reserveIn_pos
      reserveIn_le := ha.reserveIn_le
      reserveOut_pos := ha.reserveOut_pos
      reserveOut_le := ha.reserveOut_le
      feeBps_le := ha.feeBps_le
      newReserveIn_le := by rw [List.sum_cons]; exact hcap
      pays := (swapOut_ne_zero_iff ha.reserveIn_pos).mp hout.ne' }

/-- Three units buy four in three swaps, and five in one. -/
theorem split_swaps_never_pay_three :
    ∃ qs, quoteSwaps 0 (3, 10) [1, 1, 1] = .ok qs ∧
      ∃ q, quoteSwap ([1, 1, 1] : List ℕ).sum 3 10 0 = .ok q ∧
        (qs.map (·.amountOut)).sum ≤ q.amountOut :=
  ⟨[⟨2, 4, 8⟩, ⟨1, 5, 7⟩, ⟨1, 6, 6⟩], by decide, split_swaps_never_pay (by decide) (by decide)⟩

/-! ### Average prices -/

/-- The most that rounding down can take from the output for `amountIn`, in units of
`1 / swapBase`: nothing where the division is exact. -/
def roundingRoom (amountIn reserveIn reserveOut feeBps : ℕ) : ℕ :=
  swapBase amountIn reserveIn feeBps -
    (swapBase amountIn reserveIn feeBps).gcd
      (amountIn * (feeDenominator - feeBps) * reserveOut)

/-- The price impact of the larger size outweighs what rounding can take from the smaller
output. -/
def ImpactOutweighsRounding (smaller larger reserveIn reserveOut feeBps : ℕ) : Prop :=
  roundingRoom smaller reserveIn reserveOut feeBps * swapBase larger reserveIn feeBps ≤
    smaller * (larger - smaller) * (feeDenominator - feeBps) * (feeDenominator - feeBps) *
      reserveOut

/-- **A larger swap gets no better price where its price impact outweighs rounding.**  The
condition cannot be weaker where rounding takes the most it can from the smaller output and
nothing from the larger one; and a better price is never one that a single unit more for the
smaller swap would not beat. -/
theorem larger_swap_price {smaller larger reserveIn reserveOut feeBps : ℕ} {q q' : SwapQuote}
    (hlt : smaller < larger) (h : quoteSwap smaller reserveIn reserveOut feeBps = .ok q)
    (h' : quoteSwap larger reserveIn reserveOut feeBps = .ok q') :
    (ImpactOutweighsRounding smaller larger reserveIn reserveOut feeBps →
      q.amountOut * larger ≥ q'.amountOut * smaller) ∧
    (swapBase smaller reserveIn feeBps ∣
        smaller * (feeDenominator - feeBps) * reserveOut +
          (swapBase smaller reserveIn feeBps).gcd
            (smaller * (feeDenominator - feeBps) * reserveOut) →
      swapBase larger reserveIn feeBps ∣ larger * (feeDenominator - feeBps) * reserveOut →
      q.amountOut * larger ≥ q'.amountOut * smaller →
        ImpactOutweighsRounding smaller larger reserveIn reserveOut feeBps) ∧
    q'.amountOut * smaller < (q.amountOut + 1) * larger := by
  obtain ⟨ha, rfl⟩ := quoteSwap_ok_iff.mp h
  obtain ⟨-, rfl⟩ := quoteSwap_ok_iff.mp h'
  obtain ⟨d, rfl⟩ := Nat.exists_eq_add_of_le hlt.le
  have hi : 0 < reserveIn := ha.reserveIn_pos
  have hx : 0 < smaller := ha.amountIn_pos
  rw [ImpactOutweighsRounding, Nat.add_sub_cancel_left]
  exact ⟨Fee.out_price_le (φ := swapFee feeBps) hi,
    Fee.room_le_of_price (φ := swapFee feeBps) hi hx,
    Fee.out_price_lt (φ := swapFee feeBps) hi hx⟩

/-- In a large pool, three thousand units get no better price than one thousand. -/
theorem larger_swap_price_thousand :
    ∃ q q', quoteSwap 1000 1000000 1000000 30 = .ok q ∧
      quoteSwap 3000 1000000 1000000 30 = .ok q' ∧ q.amountOut * 3000 ≥ q'.amountOut * 1000 := by
  have h : quoteSwap 1000 1000000 1000000 30 = .ok ⟨996, 1001000, 999004⟩ := by decide
  have h' : quoteSwap 3000 1000000 1000000 30 = .ok ⟨2982, 1003000, 997018⟩ := by decide
  refine ⟨_, _, h, h', (larger_swap_price (by decide) h h').1 ?_⟩
  unfold ImpactOutweighsRounding
  decide

/-- But three units buy two, where two buy one. -/
theorem larger_swap_price_three :
    ∃ q q', quoteSwap 2 1000000 1000000 30 = .ok q ∧ quoteSwap 3 1000000 1000000 30 = .ok q' ∧
      ¬ q.amountOut * 3 ≥ q'.amountOut * 2 :=
  ⟨⟨1, 1000002, 999999⟩, ⟨2, 1000003, 999998⟩, by decide, by decide, by decide⟩

end StablecoinAmm.Amm
