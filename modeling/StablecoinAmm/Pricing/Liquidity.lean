import Mathlib.Algebra.Order.Floor.Div
import StablecoinAmm.Amm.Quotes
import StablecoinAmm.Support.Runs
import StablecoinAmm.Support.ShareValue

/-!
# Pricing — deposits and withdrawals

What the two branches of `quote_add_liquidity` and their roundings come to, on all inputs:

* `quoteAddLiquidity_exact`: the shares are those of the amounts offered, although they are
  computed from the amounts charged; the rounded charge is less than a unit too much; and the two
  sides of the pool are treated alike, down to the errors.
* `deposit_then_withdraw`: withdrawing a deposit at once returns no more than was charged, and
  little less.
* `split_liquidity_never_pays`: withdrawals one after another pay no more than one withdrawal of
  their sum, and deposits one after another earn no more shares than one of their totals.
-/

namespace StablecoinAmm.Amm
open Support

/-! ### The charge -/

section
variable {n d : ℕ}

theorem divCeil_eq (hd : 0 < d) : divCeil n d = n ⌈/⌉ d := by
  refine eq_of_forall_ge_iff fun k => ?_
  rw [divCeil_le_iff hd, ceilDiv_le_iff_le_mul hd, Nat.mul_comm]

theorem le_divCeil_mul (hd : 0 < d) : n ≤ divCeil n d * d := (divCeil_le_iff hd).mp le_rfl

theorem divCeil_mul_lt (hd : 0 < d) : divCeil n d * d < n + d := by
  have hmod := Nat.mod_add_div n d
  unfold divCeil
  split
  · have := Nat.div_mul_le_self n d
    omega
  · rw [Nat.add_mul, Nat.one_mul, Nat.mul_comm]
    omega

theorem divCeil_mul_self (k : ℕ) (hd : 0 < d) : divCeil (k * d) d = k := by
  rw [divCeil, Nat.mul_mod_left, if_pos rfl, Nat.mul_div_cancel _ hd]

end

section
variable {a b reserveA reserveB lpSupply : ℕ}

/-- **The shares charged for are the shares offered for.**  The side that is rounded up still buys
no fewer shares than the other. -/
theorem sharesFor_charge (hA : 0 < reserveA) (hB : 0 < reserveB) :
    sharesFor (charge a b reserveA reserveB) reserveA reserveB lpSupply =
      min (a * lpSupply / reserveA) (b * lpSupply / reserveB) := by
  unfold sharesFor charge
  split
  · rename_i h
    rw [Nat.min_eq_left (SharePool.floor_le_floor hA hB (le_divCeil_mul hA)),
      Nat.min_eq_left (SharePool.floor_le_floor hA hB h)]
  · rename_i h
    have hle : b * reserveA ≤ a * reserveB := by omega
    rw [Nat.min_eq_right (SharePool.floor_le_floor hB hA (le_divCeil_mul hB)),
      Nat.min_eq_right (SharePool.floor_le_floor hB hA hle)]

/-- The two branches agree where they meet, at offers in the ratio of the pool. -/
theorem charge_swap (hA : 0 < reserveA) (hB : 0 < reserveB) :
    charge b a reserveB reserveA = (charge a b reserveA reserveB).swap := by
  unfold charge
  rcases lt_trichotomy (a * reserveB) (b * reserveA) with h | h | h
  · rw [if_pos h.le, if_neg (by omega)]; rfl
  · rw [if_pos h.le, if_pos h.ge, h, ← h, divCeil_mul_self a hB, h, divCeil_mul_self b hA]; rfl
  · rw [if_pos h.le, if_neg (by omega)]; rfl

theorem sharesFor_swap (amounts : ℕ × ℕ) :
    sharesFor amounts.swap reserveB reserveA lpSupply =
      sharesFor amounts reserveA reserveB lpSupply :=
  Nat.min_comm _ _

/-! ### The deposit quote -/

/-- A quote with its sides exchanged. -/
def AddLiquidityQuote.mirror (q : AddLiquidityQuote) : AddLiquidityQuote where
  amountA := q.amountB
  amountB := q.amountA
  lpMinted := q.lpMinted
  newReserveA := q.newReserveB
  newReserveB := q.newReserveA
  newLpSupply := q.newLpSupply

/-- What `quote_add_liquidity` accepts. -/
structure DepositAccepted (a b reserveA reserveB lpSupply : ℕ) : Prop where
  a_mem : 1 ≤ a ∧ a ≤ maxSupplyCap
  b_mem : 1 ≤ b ∧ b ≤ maxSupplyCap
  reserveA_mem : 1 ≤ reserveA ∧ reserveA ≤ maxSupplyCap
  reserveB_mem : 1 ≤ reserveB ∧ reserveB ≤ maxSupplyCap
  lpSupply_mem : minimumLiquidity ≤ lpSupply ∧ lpSupply ≤ maxSupplyCap
  pays : 1 ≤ min (a * lpSupply / reserveA) (b * lpSupply / reserveB)
  newReserveA_le : reserveA + (charge a b reserveA reserveB).1 ≤ maxSupplyCap
  newReserveB_le : reserveB + (charge a b reserveA reserveB).2 ≤ maxSupplyCap
  newLpSupply_le :
    lpSupply + min (a * lpSupply / reserveA) (b * lpSupply / reserveB) ≤ maxSupplyCap

/-- A deposit quote is what it should be, to the unit. -/
structure AddLiquidityQuote.Exact (q : AddLiquidityQuote)
    (a b reserveA reserveB lpSupply : ℕ) : Prop where
  lpMinted : q.lpMinted = min (a * lpSupply / reserveA) (b * lpSupply / reserveB)
  charged : (q.amountA, q.amountB) =
    if a * reserveB ≤ b * reserveA then (a, a * reserveB ⌈/⌉ reserveA)
    else (b * reserveA ⌈/⌉ reserveB, b)
  amountA_le : q.amountA ≤ a
  amountB_le : q.amountB ≤ b
  /-- The rounded side is at the ratio of the pool or less than a unit above it. -/
  rounded : if a * reserveB ≤ b * reserveA then
      a * reserveB ≤ q.amountB * reserveA ∧ q.amountB * reserveA < a * reserveB + reserveA
    else b * reserveA ≤ q.amountA * reserveB ∧ q.amountA * reserveB < b * reserveA + reserveB
  newReserveA : q.newReserveA = reserveA + q.amountA
  newReserveB : q.newReserveB = reserveB + q.amountB
  newLpSupply : q.newLpSupply = lpSupply + q.lpMinted

theorem quoteAddLiquidity_ok_iff {q : AddLiquidityQuote} :
    quoteAddLiquidity a b reserveA reserveB lpSupply = .ok q ↔
      DepositAccepted a b reserveA reserveB lpSupply ∧
      q = { amountA := (charge a b reserveA reserveB).1,
            amountB := (charge a b reserveA reserveB).2,
            lpMinted := min (a * lpSupply / reserveA) (b * lpSupply / reserveB),
            newReserveA := reserveA + (charge a b reserveA reserveB).1,
            newReserveB := reserveB + (charge a b reserveA reserveB).2,
            newLpSupply := lpSupply +
              min (a * lpSupply / reserveA) (b * lpSupply / reserveB) } := by
  rw [quoteAddLiquidity_eq]
  dsimp only
  constructor
  · intro h
    split_ifs at h with h0 hr hl hc hz hs
    rw [sharesFor_charge (by omega) (by omega)] at h hz hs
    exact ⟨⟨by omega, by omega, by omega, by omega, by omega, Nat.one_le_iff_ne_zero.mpr hz,
      by omega, by omega, Nat.le_of_not_lt fun h => hs (.inr (.inr h))⟩, (Except.ok.inj h).symm⟩
  · rintro ⟨⟨ha, hb, hA, hB, hl, hpays, hsA, hsB, hsL⟩, rfl⟩
    rw [sharesFor_charge hA.1 hB.1, if_neg (by omega), if_neg (by omega), if_neg (by omega),
      if_neg (by omega), if_neg (by omega), if_neg (by omega)]

theorem quoteAddLiquidity_exact_of_ok {q : AddLiquidityQuote}
    (h : quoteAddLiquidity a b reserveA reserveB lpSupply = .ok q) :
    q.Exact a b reserveA reserveB lpSupply := by
  obtain ⟨hacc, rfl⟩ := quoteAddLiquidity_ok_iff.mp h
  have hA := hacc.reserveA_mem.1
  have hB := hacc.reserveB_mem.1
  obtain ⟨hle₁, hle₂⟩ : (charge a b reserveA reserveB).1 ≤ a ∧
    (charge a b reserveA reserveB).2 ≤ b := charge_le hA hB
  refine ⟨rfl, ?_, hle₁, hle₂, ?_, rfl, rfl, rfl⟩
  · rw [← divCeil_eq hA, ← divCeil_eq hB]
    rfl
  · unfold charge
    split
    · exact ⟨le_divCeil_mul hA, divCeil_mul_lt hA⟩
    · exact ⟨le_divCeil_mul hB, divCeil_mul_lt hB⟩

/-- The sides are treated alike, down to the errors. -/
theorem quoteAddLiquidity_swap (a b reserveA reserveB lpSupply : ℕ) :
    quoteAddLiquidity b a reserveB reserveA lpSupply =
      (quoteAddLiquidity a b reserveA reserveB lpSupply).map AddLiquidityQuote.mirror := by
  rw [quoteAddLiquidity_eq, quoteAddLiquidity_eq]
  dsimp only
  by_cases h0 : a = 0 ∨ b = 0
  · rw [if_pos h0, if_pos h0.symm]; rfl
  rw [if_neg h0, if_neg (by omega)]
  by_cases hr : reserveA = 0 ∨ reserveB = 0
  · rw [if_pos hr, if_pos hr.symm]; rfl
  rw [if_neg hr, if_neg (by omega)]
  by_cases hl : lpSupply < minimumLiquidity
  · rw [if_pos hl, if_pos hl]; rfl
  rw [if_neg hl, if_neg hl, charge_swap (by omega) (by omega), sharesFor_swap]
  generalize sharesFor (charge a b reserveA reserveB) reserveA reserveB lpSupply = shares
  generalize charge a b reserveA reserveB = amounts
  obtain ⟨amountA, amountB⟩ := amounts
  dsimp only [Prod.swap]
  split_ifs <;> first | rfl | omega

end

/-- **The deposit quote is exact.** -/
theorem quoteAddLiquidity_exact (a b reserveA reserveB lpSupply : ℕ) :
    ((∃ q, quoteAddLiquidity a b reserveA reserveB lpSupply = .ok q) ↔
      DepositAccepted a b reserveA reserveB lpSupply) ∧
    (∀ q, quoteAddLiquidity a b reserveA reserveB lpSupply = .ok q →
      q.Exact a b reserveA reserveB lpSupply) ∧
    quoteAddLiquidity b a reserveB reserveA lpSupply =
      (quoteAddLiquidity a b reserveA reserveB lpSupply).map AddLiquidityQuote.mirror := by
  refine ⟨⟨?_, ?_⟩, fun q h => quoteAddLiquidity_exact_of_ok h, quoteAddLiquidity_swap ..⟩
  · rintro ⟨q, h⟩
    exact (quoteAddLiquidity_ok_iff.mp h).1
  · intro h
    exact ⟨_, quoteAddLiquidity_ok_iff.mpr ⟨h, rfl⟩⟩

/-- At three to four, one unit of the first is charged two of the second. -/
theorem quoteAddLiquidity_exact_uneven :
    ∃ q, quoteAddLiquidity 1 1000 3 4 1000 = .ok q ∧ q.amountB = 2 ∧ q.lpMinted = 333 ∧
      q.Exact 1 1000 3 4 1000 :=
  ⟨⟨1, 2, 333, 4, 6, 1333⟩, by decide, rfl, rfl,
    (quoteAddLiquidity_exact 1 1000 3 4 1000).2.1 _ (by decide)⟩

/-! ### A deposit and its withdrawal -/

section
variable {a b reserveA reserveB lpSupply : ℕ}

/-- On neither side does a charge exceed its shares by more than one share and one unit. -/
theorem charge_lt (hA : 0 < reserveA) (hB : 0 < reserveB) :
    (charge a b reserveA reserveB).1 * lpSupply <
        min (a * lpSupply / reserveA) (b * lpSupply / reserveB) * reserveA + reserveA + lpSupply ∧
      (charge a b reserveA reserveB).2 * lpSupply <
        min (a * lpSupply / reserveA) (b * lpSupply / reserveB) * reserveB + reserveB +
          lpSupply := by
  -- the side that is not rounded decides the shares
  unfold charge
  split
  · rename_i h
    rw [Nat.min_eq_left (SharePool.floor_le_floor hA hB h)]
    exact ⟨SharePool.lt_of_floor hA hA (Nat.lt_add_of_pos_right hA),
      SharePool.lt_of_floor hA hB (divCeil_mul_lt hA)⟩
  · rename_i h
    rw [Nat.min_eq_right (SharePool.floor_le_floor hB hA (by omega))]
    exact ⟨SharePool.lt_of_floor hB hA (divCeil_mul_lt hB),
      SharePool.lt_of_floor hB hB (Nat.lt_add_of_pos_right hB)⟩

/-- **A deposit withdrawn at once returns no more than it cost**, and falls short by less than one
share of the pool before it and two units. -/
theorem deposit_then_withdraw {q : AddLiquidityQuote} {r : RemoveLiquidityQuote}
    (h : quoteAddLiquidity a b reserveA reserveB lpSupply = .ok q)
    (h' : quoteRemoveLiquidity q.lpMinted q.newReserveA q.newReserveB q.newLpSupply = .ok r) :
    (r.amountA ≤ q.amountA ∧
      (q.amountA - r.amountA) * q.newLpSupply < reserveA + 2 * q.newLpSupply) ∧
    (r.amountB ≤ q.amountB ∧
      (q.amountB - r.amountB) * q.newLpSupply < reserveB + 2 * q.newLpSupply) := by
  have hs := quoteAddLiquidity_ok h
  have hr := quoteRemoveLiquidity_ok h'
  obtain ⟨hacc, rfl⟩ := quoteAddLiquidity_ok_iff.mp h
  have hA := hacc.reserveA_mem.1
  have hB := hacc.reserveB_mem.1
  have hsA := (Nat.le_div_iff_mul_le hA).mp hs.sharesA
  have hsB := (Nat.le_div_iff_mul_le hB).mp hs.sharesB
  rw [hr.amountA, hr.amountB]
  exact ⟨⟨SharePool.refund_le hsA, SharePool.refund_lt (charge_lt hA hB).1⟩,
    ⟨SharePool.refund_le hsB, SharePool.refund_lt (charge_lt hA hB).2⟩⟩

end

/-- After LP burns a share is worth three and four units, and rounding costs more than one. -/
theorem deposit_then_withdraw_uneven :
    ∃ q r, quoteAddLiquidity 10 1000 3000 4000 1000 = .ok q ∧
      quoteRemoveLiquidity q.lpMinted q.newReserveA q.newReserveB q.newLpSupply = .ok r ∧
      (r.amountA ≤ q.amountA ∧
        (q.amountA - r.amountA) * q.newLpSupply < 3000 + 2 * q.newLpSupply) ∧
      (r.amountB ≤ q.amountB ∧
        (q.amountB - r.amountB) * q.newLpSupply < 4000 + 2 * q.newLpSupply) :=
  have h : quoteAddLiquidity 10 1000 3000 4000 1000 = .ok ⟨10, 14, 3, 3010, 4014, 1003⟩ := by
    decide
  have h' : quoteRemoveLiquidity 3 3010 4014 1003 = .ok ⟨9, 12, 3001, 4002, 1000⟩ := by decide
  ⟨_, _, h, h', deposit_then_withdraw h h'⟩

/-! ### The withdrawal quote -/

section
variable {lpAmount reserveA reserveB lpSupply : ℕ}

/-- What `quote_remove_liquidity` accepts. -/
structure WithdrawalAccepted (lpAmount reserveA reserveB lpSupply : ℕ) : Prop where
  lpAmount_pos : 1 ≤ lpAmount
  reserveA_mem : 1 ≤ reserveA ∧ reserveA ≤ maxSupplyCap
  reserveB_mem : 1 ≤ reserveB ∧ reserveB ≤ maxSupplyCap
  lpSupply_le : lpSupply ≤ maxSupplyCap
  remaining : minimumLiquidity + lpAmount ≤ lpSupply
  paysA : lpAmount * reserveA / lpSupply ≠ 0
  paysB : lpAmount * reserveB / lpSupply ≠ 0

theorem quoteRemoveLiquidity_ok_iff {q : RemoveLiquidityQuote} :
    quoteRemoveLiquidity lpAmount reserveA reserveB lpSupply = .ok q ↔
      WithdrawalAccepted lpAmount reserveA reserveB lpSupply ∧
      q = { amountA := lpAmount * reserveA / lpSupply,
            amountB := lpAmount * reserveB / lpSupply,
            newReserveA := reserveA - lpAmount * reserveA / lpSupply,
            newReserveB := reserveB - lpAmount * reserveB / lpSupply,
            newLpSupply := lpSupply - lpAmount } := by
  rw [quoteRemoveLiquidity_eq]
  constructor
  · intro h
    split_ifs at h with h0 hr hl hle hc hm hz
    exact ⟨⟨by omega, by omega, by omega, by omega, by omega, fun h => hz (.inl h),
      fun h => hz (.inr h)⟩, (Except.ok.inj h).symm⟩
  · rintro ⟨⟨hlp, hA, hB, hl, hm, hpA, hpB⟩, rfl⟩
    rw [if_neg (by omega), if_neg (by omega), if_neg (by omega), if_neg (by omega),
      if_neg (by omega), if_neg (by omega), if_neg (not_or.mpr ⟨hpA, hpB⟩)]

end

/-! ### Splitting -/

/-- The numbers that quotes for liquidity are computed from. -/
structure LiquidityState where
  reserveA : ℕ
  reserveB : ℕ
  lpSupply : ℕ

/-- Withdrawals one after another. -/
def quoteRemovals : LiquidityState → List ℕ → Except MathError (List RemoveLiquidityQuote) :=
  answers (fun s lpAmount => quoteRemoveLiquidity lpAmount s.reserveA s.reserveB s.lpSupply)
    fun q => ⟨q.newReserveA, q.newReserveB, q.newLpSupply⟩

/-- Deposits one after another. -/
def quoteDeposits : LiquidityState → List (ℕ × ℕ) → Except MathError (List AddLiquidityQuote) :=
  answers (fun s a => quoteAddLiquidity a.1 a.2 s.reserveA s.reserveB s.lpSupply)
    fun q => ⟨q.newReserveA, q.newReserveB, q.newLpSupply⟩

/-- From `s` to `s'` no reserve fell relative to the LP supply. -/
structure LiquidityState.RatiosKept (s s' : LiquidityState) : Prop where
  a : s.reserveA * s'.lpSupply ≤ s'.reserveA * s.lpSupply
  b : s.reserveB * s'.lpSupply ≤ s'.reserveB * s.lpSupply

namespace LiquidityState.RatiosKept

variable {s s₁ s' : LiquidityState}

theorem refl (s : LiquidityState) : RatiosKept s s := ⟨le_rfl, le_rfl⟩

theorem trans (h : RatiosKept s s₁) (h' : RatiosKept s₁ s') (hpos : 0 < s₁.lpSupply) :
    RatiosKept s s' :=
  ⟨SharePool.ratio_trans h.a h'.a hpos (Nat.zero_le _) (Nat.zero_le _),
    SharePool.ratio_trans h.b h'.b hpos (Nat.zero_le _) (Nat.zero_le _)⟩

end LiquidityState.RatiosKept

theorem RemoveLiquidityQuote.Sound.ratiosKept {q : RemoveLiquidityQuote} {s : LiquidityState}
    {lpAmount : ℕ} (h : q.Sound lpAmount s.reserveA s.reserveB s.lpSupply) :
    s.RatiosKept ⟨q.newReserveA, q.newReserveB, q.newLpSupply⟩ :=
  ⟨h.ratios.1, h.ratios.2⟩

theorem AddLiquidityQuote.Sound.ratiosKept {q : AddLiquidityQuote} {s : LiquidityState}
    {a b : ℕ} (h : q.Sound a b s.reserveA s.reserveB s.lpSupply) :
    s.RatiosKept ⟨q.newReserveA, q.newReserveB, q.newLpSupply⟩ :=
  ⟨h.ratios.1, h.ratios.2⟩

/-- Withdrawals pay out what they take from the reserves, and leave no share worth less. -/
theorem quoteRemovals_rest {lps : List ℕ} :
    ∀ {s : LiquidityState} {qs}, minimumLiquidity ≤ s.lpSupply → quoteRemovals s lps = .ok qs →
      ∃ rest : LiquidityState, rest.reserveA + (qs.map (·.amountA)).sum = s.reserveA ∧
        rest.reserveB + (qs.map (·.amountB)).sum = s.reserveB ∧
        rest.lpSupply + lps.sum = s.lpSupply ∧ minimumLiquidity ≤ rest.lpSupply ∧
        s.RatiosKept rest := by
  have hmin : 0 < minimumLiquidity := by decide
  induction lps with
  | nil =>
      intro s qs hs h
      rw [answers_nil h]
      exact ⟨s, rfl, rfl, rfl, hs, .refl s⟩
  | cons lpAmount lps ih =>
      intro s qs _ h
      obtain ⟨q, qs', hq, hqs, rfl⟩ := answers_cons h
      have hsound := quoteRemoveLiquidity_ok hq
      obtain ⟨rest, hA, hB, hL, hrest, hkept⟩ := ih hsound.remaining hqs
      dsimp only at hA hB hL
      refine ⟨rest, ?_, ?_, ?_, hrest, ?_⟩
      · rw [List.map_cons, List.sum_cons, ← hsound.newReserveA, ← hA]
        ring
      · rw [List.map_cons, List.sum_cons, ← hsound.newReserveB, ← hB]
        ring
      · rw [List.sum_cons, ← hsound.newLpSupply, ← hL]
        ring
      · exact hsound.ratiosKept.trans hkept (hmin.trans_le hsound.remaining)

/-- Deposits add what they charge, and leave no share worth less. -/
theorem quoteDeposits_total {ds : List (ℕ × ℕ)} :
    ∀ {s : LiquidityState} {qs}, quoteDeposits s ds = .ok qs →
      s.RatiosKept ⟨s.reserveA + (qs.map (·.amountA)).sum, s.reserveB + (qs.map (·.amountB)).sum,
        s.lpSupply + (qs.map (·.lpMinted)).sum⟩ := by
  induction ds with
  | nil =>
      intro s qs h
      rw [answers_nil h]
      exact .refl s
  | cons d ds ih =>
      intro s qs h
      obtain ⟨q, qs', hq, hqs, rfl⟩ := answers_cons h
      have hsound := quoteAddLiquidity_ok hq
      have hkept := hsound.ratiosKept.trans (ih hqs)
        (hsound.newLpSupply ▸ Nat.add_pos_right _ hsound.lpMinted_pos)
      simpa only [hsound.newReserveA, hsound.newReserveB, hsound.newLpSupply, List.map_cons,
        List.sum_cons, Nat.add_assoc] using hkept

/-- A withdrawal of the sum pays what withdrawals one after another do. -/
theorem quoteRemovals_single {s : LiquidityState} {lps : List ℕ} {qs : List RemoveLiquidityQuote}
    (hne : lps ≠ []) (h : quoteRemovals s lps = .ok qs) :
    ∃ q, quoteRemoveLiquidity lps.sum s.reserveA s.reserveB s.lpSupply = .ok q ∧
      (qs.map (·.amountA)).sum ≤ q.amountA ∧ (qs.map (·.amountB)).sum ≤ q.amountB := by
  obtain ⟨lpAmount, lps, rfl⟩ := List.exists_cons_of_ne_nil hne
  obtain ⟨q₁, qs', hq₁, -, rfl⟩ := answers_cons h
  obtain ⟨hacc, -⟩ := quoteRemoveLiquidity_ok_iff.mp hq₁
  have hfirst := quoteRemoveLiquidity_ok hq₁
  have hseeded : minimumLiquidity ≤ s.lpSupply := (Nat.le_add_right _ _).trans hacc.remaining
  obtain ⟨rest, hA, hB, hL, hrest, hkept⟩ := quoteRemovals_rest hseeded h
  have hpos : 0 < s.lpSupply := lt_of_lt_of_le (by decide) hseeded
  -- the sums are within what the shares burnt in all are due
  have hpaidA : ((q₁ :: qs').map (·.amountA)).sum ≤
      (lpAmount :: lps).sum * s.reserveA / s.lpSupply := by
    rw [← hL, ← hA]
    exact SharePool.le_floor_of_rest (hL ▸ hpos) (hA ▸ hL ▸ hkept.a)
  have hpaidB : ((q₁ :: qs').map (·.amountB)).sum ≤
      (lpAmount :: lps).sum * s.reserveB / s.lpSupply := by
    rw [← hL, ← hB]
    exact SharePool.le_floor_of_rest (hL ▸ hpos) (hB ▸ hL ▸ hkept.b)
  refine ⟨_, quoteRemoveLiquidity_ok_iff.mpr ⟨?_, rfl⟩, hpaidA, hpaidB⟩
  have hApos := hfirst.amountA_pos
  have hBpos := hfirst.amountB_pos
  have hlp := hacc.lpAmount_pos
  rw [List.map_cons, List.sum_cons] at hpaidA hpaidB
  exact
    { lpAmount_pos := by rw [List.sum_cons]; omega
      reserveA_mem := hacc.reserveA_mem
      reserveB_mem := hacc.reserveB_mem
      lpSupply_le := hacc.lpSupply_le
      remaining := by omega
      paysA := by omega
      paysB := by omega }

/-- Deposits one after another earn what one of the same totals is due, or less. -/
theorem quoteDeposits_le {s : LiquidityState} {ds : List (ℕ × ℕ)} {qs : List AddLiquidityQuote}
    (hne : ds ≠ []) (h : quoteDeposits s ds = .ok qs) :
    (qs.map (·.lpMinted)).sum ≤
      min ((qs.map (·.amountA)).sum * s.lpSupply / s.reserveA)
        ((qs.map (·.amountB)).sum * s.lpSupply / s.reserveB) := by
  have hkept := quoteDeposits_total h
  obtain ⟨d, ds, rfl⟩ := List.exists_cons_of_ne_nil hne
  obtain ⟨q, qs', hq, -, rfl⟩ := answers_cons h
  obtain ⟨hacc, -⟩ := quoteAddLiquidity_ok_iff.mp hq
  exact le_min (SharePool.le_floor_of_mul hacc.reserveA_mem.1 hkept.a)
    (SharePool.le_floor_of_mul hacc.reserveB_mem.1 hkept.b)

/-- **Splitting liquidity operations never pays.** -/
theorem split_liquidity_never_pays (s : LiquidityState) :
    (∀ lps qs, lps ≠ [] → quoteRemovals s lps = .ok qs →
      ∃ q, quoteRemoveLiquidity lps.sum s.reserveA s.reserveB s.lpSupply = .ok q ∧
        (qs.map (·.amountA)).sum ≤ q.amountA ∧ (qs.map (·.amountB)).sum ≤ q.amountB) ∧
    ∀ ds qs, ds ≠ [] → quoteDeposits s ds = .ok qs →
      (qs.map (·.lpMinted)).sum ≤
        min ((qs.map (·.amountA)).sum * s.lpSupply / s.reserveA)
          ((qs.map (·.amountB)).sum * s.lpSupply / s.reserveB) :=
  ⟨fun _ _ hne h => quoteRemovals_single hne h, fun _ _ hne h => quoteDeposits_le hne h⟩

/-- Two withdrawals of three LP are paid nine each, and one of six nineteen. -/
theorem split_liquidity_never_pays_twice :
    (∃ q, quoteRemoveLiquidity 6 3250 4000 1009 = .ok q ∧ 18 ≤ q.amountA ∧ 22 ≤ q.amountB) ∧
      3 + 3 ≤ min (20 * 1000 / 3000) (28 * 1000 / 4000) :=
  have hw : quoteRemovals ⟨3250, 4000, 1009⟩ [3, 3] =
      .ok [⟨9, 11, 3241, 3989, 1006⟩, ⟨9, 11, 3232, 3978, 1003⟩] := by decide
  have hd : quoteDeposits ⟨3000, 4000, 1000⟩ [(10, 1000), (10, 1000)] =
      .ok [⟨10, 14, 3, 3010, 4014, 1003⟩, ⟨10, 14, 3, 3020, 4028, 1006⟩] := by decide
  ⟨(split_liquidity_never_pays ⟨3250, 4000, 1009⟩).1 _ _ (by decide) hw,
    (split_liquidity_never_pays ⟨3000, 4000, 1000⟩).2 _ _ (by decide) hd⟩

end StablecoinAmm.Amm
