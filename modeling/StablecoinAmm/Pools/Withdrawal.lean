import StablecoinAmm.System.History

/-!
# Pools — withdrawing everything that is not locked

A withdrawal that would round to nothing on one side is refused, by design.  So of a pool whose
sides differ much, or where little but the locked LP tokens is left, the rest may not be
withdrawable in one piece: `withdraw_all` says exactly when it is, and `withdraw_all_refused` is
a pool where it is not, right after its first deposit.
-/

namespace StablecoinAmm
open Support Amm

section
variable {s : PoolState}

/-- The quote for all LP tokens that are not locked. -/
def PoolState.quoteAll (s : PoolState) : Except MathError RemoveLiquidityQuote :=
  quoteRemoveLiquidity (s.lpSupply - s.lockedLp) s.reserveA s.reserveB s.lpSupply

/-- Both sides of the rest are worth at least one unit. -/
def PoolState.RestPays (s : PoolState) : Prop :=
  s.lpSupply ≤ (s.lpSupply - s.lockedLp) * s.reserveA ∧
    s.lpSupply ≤ (s.lpSupply - s.lockedLp) * s.reserveB

/-- The rest can be withdrawn in one piece exactly when it pays; if not, the quote is
`ZeroOutput`. -/
structure PoolState.WithdrawsAll (s : PoolState) : Prop where
  ok : (∃ q, s.quoteAll = .ok q ∧ q.newLpSupply = s.lockedLp ∧ 0 < q.amountA ∧ 0 < q.amountB) ↔
    s.RestPays
  refused : ¬ s.RestPays → s.quoteAll = .error .zeroOutput

theorem PoolState.Seeded.quoteAll_ok (hs : s.Seeded) {q : RemoveLiquidityQuote}
    (h : s.quoteAll = .ok q) : s.RestPays ∧ q.newLpSupply = s.lockedLp := by
  have hq := quoteRemoveLiquidity_ok h
  have hA := hq.amountA_pos
  have hB := hq.amountB_pos
  rw [hq.amountA, Nat.div_pos_iff] at hA
  rw [hq.amountB, Nat.div_pos_iff] at hB
  have hnew := hq.newLpSupply
  have hle := hs.lockedLp_le
  exact ⟨⟨hA.2, hB.2⟩, by omega⟩

theorem PoolState.Seeded.quoteAll_error (hs : s.Seeded) (hlt : s.lockedLp < s.lpSupply)
    {e : MathError} (h : s.quoteAll = .error e) : ¬ s.RestPays ∧ e = .zeroOutput := by
  have hmin : minimumLiquidity ≤ s.lpSupply := hs.locked.trans hs.lockedLp_le
  rcases quoteRemoveLiquidity_error h hs.reserveA_pos hs.reserveB_pos hmin hs.reserveA_le
    hs.reserveB_le hs.lpSupply_le with ⟨hz, rfl⟩ | ⟨h0, -⟩ | ⟨hl, -⟩
  · refine ⟨?_, rfl⟩
    rintro ⟨ha, hb⟩
    rcases hz with hz | hz
    · exact (Nat.div_pos ha hs.lpSupply_pos).ne' hz
    · exact (Nat.div_pos hb hs.lpSupply_pos).ne' hz
  · omega
  · -- no more than the rest was asked for
    have := hs.locked
    omega

theorem PoolState.Seeded.withdrawsAll (hs : s.Seeded) (hlt : s.lockedLp < s.lpSupply) :
    s.WithdrawsAll := by
  rcases h : s.quoteAll with e | q
  · obtain ⟨hpays, rfl⟩ := hs.quoteAll_error hlt h
    refine ⟨⟨?_, fun hp => absurd hp hpays⟩, fun _ => h⟩
    rintro ⟨q, hok, -⟩
    cases h.symm.trans hok
  · obtain ⟨hpays, hnew⟩ := hs.quoteAll_ok h
    have hq := quoteRemoveLiquidity_ok h
    refine ⟨⟨fun _ => hpays, fun _ => ?_⟩, fun hp => absurd hpays hp⟩
    exact ⟨q, h, hnew, hq.amountA_pos, hq.amountB_pos⟩

end

/-- An empty pool. -/
def PoolState.empty : PoolState := ⟨0, 0, 0, 0, 0, 0⟩

/-- An empty pool after its first deposit. -/
def PoolState.first (amountA amountB : ℕ) (q : InitialLiquidityQuote) : PoolState :=
  ⟨amountA, amountB, q.lpToUser + q.lpToLock, q.lpToLock, amountA, amountB⟩

/-- Where a pool has LP tokens that are not locked, it is in order. -/
theorem PoolState.Valid.seeded {s : PoolState} (h : s.Valid) (hlt : s.lockedLp < s.lpSupply) :
    s.Seeded := by
  rcases h with h | h
  · rw [h.lpSupply] at hlt
    cases hlt
  · exact h

theorem PoolState.first_step {amountA amountB : ℕ} {q : InitialLiquidityQuote}
    (hq : q.Sound amountA amountB) :
    Step .deposit PoolState.empty (PoolState.first amountA amountB q) := by
  have h : Step .deposit PoolState.empty _ := .seed ⟨rfl, rfl, rfl, rfl⟩ hq
  rwa [PoolState.empty, Nat.zero_add, Nat.zero_add] at h

/-- **What is not locked can be withdrawn in one piece exactly when both sides of it are worth a
unit**, in every pool and after every first deposit. -/
theorem withdraw_all :
    (∀ (w : World) (p : Pubkey) (P : Pool), w.Reachable → w.pools p = some P →
      w.ledger.balance P.lockedLp < w.ledger.supply P.lpMint →
      (P.state w.ledger).WithdrawsAll) ∧
    (∀ (amountA amountB : ℕ) (q : InitialLiquidityQuote),
      quoteInitialLiquidity amountA amountB = .ok q →
      (PoolState.first amountA amountB q).WithdrawsAll) := by
  constructor
  · intro w p P hw hP hlt
    exact ((hw.inv.pools p P hP).seeded hlt).withdrawsAll hlt
  · intro amountA amountB q h
    have hq := quoteInitialLiquidity_ok h
    have hlt : (PoolState.first amountA amountB q).lockedLp <
        (PoolState.first amountA amountB q).lpSupply :=
      Nat.lt_add_of_pos_left hq.lpToUser_pos
    exact (((PoolState.first_step hq).valid (.inl ⟨rfl, rfl, rfl, rfl⟩)).seeded hlt).withdrawsAll
      hlt

/-- The user of the lopsided pool cannot withdraw its LP token. -/
theorem withdraw_all_refused :
    lopsided.Reachable ∧ lopsided.pools Lopsided.pool = some lopsidedPool ∧
      (lopsidedPool.state lopsided.ledger).Seeded ∧
      lopsided.ledger.balance lopsidedPool.lockedLp <
        lopsided.ledger.supply lopsidedPool.lpMint ∧
      quoteRemoveLiquidity
        (lopsided.ledger.supply lopsidedPool.lpMint - lopsided.ledger.balance lopsidedPool.lockedLp)
        lopsidedPool.reserveA lopsidedPool.reserveB
        (lopsided.ledger.supply lopsidedPool.lpMint) = .error .zeroOutput := by
  refine ⟨lopsided_reachable, lopsided_pool, lopsided_seeded, ?_⟩
  decide +kernel

/-- From the lopsided pool: a trade that evens it out, and a deposit. -/
def lopsidedDeposit : List Action :=
  [.swap Lopsided.accounts.toPoolAccounts .aToB 500 0,
    .addLiquidity Lopsided.accounts 400 2000 0 0 0]

def evenPool : Pool := { lopsidedPool with reserveA := 901, reserveB := 3610 }

/-- Now the rest pays. -/
theorem withdraw_all_even :
    ∃ q, (evenPool.state (lopsided.afterAll lopsidedDeposit).ledger).quoteAll = .ok q ∧
      q.newLpSupply = (lopsided.afterAll lopsidedDeposit).ledger.balance evenPool.lockedLp ∧
      0 < q.amountA ∧ 0 < q.amountB := by
  have hrun : Run step lopsided lopsidedDeposit (lopsided.afterAll lopsidedDeposit) :=
    run_afterAll (by decide +kernel)
  have hP : (lopsided.afterAll lopsidedDeposit).pools Lopsided.pool = some evenPool := by
    decide +kernel
  have hlt : (lopsided.afterAll lopsidedDeposit).ledger.balance evenPool.lockedLp <
      (lopsided.afterAll lopsidedDeposit).ledger.supply evenPool.lpMint := by decide +kernel
  refine (withdraw_all.1 _ _ _ (lopsided_reachable.run hrun) hP hlt).ok.mpr ?_
  rw [PoolState.RestPays]
  decide +kernel

end StablecoinAmm
