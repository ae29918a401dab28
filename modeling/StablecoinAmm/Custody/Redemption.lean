import StablecoinAmm.Custody.Solvency
import StablecoinAmm.Pools.Guards
import StablecoinAmm.Pools.Withdrawal
import StablecoinAmm.Pricing.Liquidity

/-!
# Custody — leaving a pool

What `quote_remove_liquidity` offers the holders of LP tokens, each for all it holds, adds up to
no more than the reserves, and the vaults have them.  So nobody needs to leave first; and nobody
gains by it: while nobody trades, the offer for the same LP tokens never falls
(`PoolState.Steps.ratios`), and whoever still holds them is not refused.  Trades move value from
one side to the other; the product of the two amounts offered keeps up, but for rounding.
-/

namespace StablecoinAmm
open Support Ledger Amm

/-! ### Reserves per LP token -/

/-- **While nobody trades no reserve per LP token falls.** -/
theorem PoolState.Steps.ratios {es : List PoolState.Event} {s s' : PoolState} (h : Steps es s s')
    (hs : s.Seeded) (he : PoolState.Event.trade ∉ es) :
    s.reserveA * s'.lpSupply ≤ s'.reserveA * s.lpSupply ∧
      s.reserveB * s'.lpSupply ≤ s'.reserveB * s.lpSupply := by
  induction h with
  | refl => exact ⟨le_rfl, le_rfl⟩
  | more h _ ih =>
      rw [List.mem_cons, not_or] at he
      obtain ⟨hne, hes⟩ := he
      obtain ⟨hA, hB⟩ := h.ratios (Ne.symm hne)
      have hs₁ := h.seeded hs
      obtain ⟨hA', hB'⟩ := ih hs₁ hes
      exact ⟨SharePool.ratio_trans hA hA' hs₁.lpSupply_pos (Nat.zero_le _) (Nat.zero_le _),
        SharePool.ratio_trans hB hB' hs₁.lpSupply_pos (Nat.zero_le _) (Nat.zero_le _)⟩

/-! ### Offers -/

/-- What the pool offers for `n` LP tokens. -/
def Pool.offer (P : Pool) (l : Ledger) (n : ℕ) : Except MathError RemoveLiquidityQuote :=
  quoteRemoveLiquidity n P.reserveA P.reserveB (l.supply P.lpMint)

/-- The amounts of it: nothing where the quote is refused. -/
def Pool.offered (P : Pool) (l : Ledger) (n : ℕ) : ℕ × ℕ :=
  (P.offer l n).toOption.elim (0, 0) fun q => (q.amountA, q.amountB)

section
variable {w w' : World} {p : Pubkey} {P P' : Pool} {n : ℕ}

/-- No offer exceeds a pro rata share. -/
theorem Pool.offered_mul_le (P : Pool) (l : Ledger) (n : ℕ) :
    (P.offered l n).1 * l.supply P.lpMint ≤ n * P.reserveA ∧
      (P.offered l n).2 * l.supply P.lpMint ≤ n * P.reserveB := by
  rw [Pool.offered]
  cases h : P.offer l n with
  | error e => simp [Except.toOption]
  | ok q =>
      have hq := quoteRemoveLiquidity_ok h
      simp only [Except.toOption, Option.elim, hq.amountA, hq.amountB]
      exact ⟨Nat.div_mul_le_self _ _, Nat.div_mul_le_self _ _⟩

/-- Shares that add up to no more than all of them are offered no more than everything. -/
theorem sum_offered_le {ι : Type} {s : Finset ι} {offered held : ι → ℕ} {supply reserve : ℕ}
    (hpos : 0 < supply) (h : ∀ i ∈ s, offered i * supply ≤ held i * reserve)
    (hsum : ∑ i ∈ s, held i ≤ supply) : ∑ i ∈ s, offered i ≤ reserve := by
  refine Nat.le_of_mul_le_mul_right ?_ hpos
  calc (∑ i ∈ s, offered i) * supply = ∑ i ∈ s, offered i * supply := Finset.sum_mul ..
    _ ≤ ∑ i ∈ s, held i * reserve := Finset.sum_le_sum h
    _ = (∑ i ∈ s, held i) * reserve := (Finset.sum_mul ..).symm
    _ ≤ supply * reserve := Nat.mul_le_mul_right _ hsum
    _ = reserve * supply := Nat.mul_comm ..

theorem World.Inv.offers_covered (hw : w.Inv) (hP : w.pools p = some P)
    {users : Finset Pubkey} (hu : ∀ u ∈ users, u.isSigner) :
    ∑ u ∈ users, (P.offered w.ledger (w.ledger.holdings u P.lpMint)).1 ≤ P.reserveA ∧
      ∑ u ∈ users, (P.offered w.ledger (w.ledger.holdings u P.lpMint)).2 ≤ P.reserveB := by
  have hsum := (Nat.le_add_right _ _).trans (hw.backed P.lpMint users ∅ hu (by simp))
  rcases hw.pools p P hP with hunseeded | hseeded
  · -- nobody holds LP tokens of an empty pool, and nobody is offered anything
    have hlp : w.ledger.supply P.lpMint = 0 := hunseeded.lpSupply
    have hnone : ∀ n, P.offered w.ledger n = (0, 0) := by
      intro n
      rw [Pool.offered]
      cases h : P.offer w.ledger n with
      | error e => rfl
      | ok q =>
          have hq := (quoteRemoveLiquidity_ok h).remaining
          have hnew := (quoteRemoveLiquidity_ok h).newLpSupply
          have hmin : 0 < minimumLiquidity := by decide
          omega
    simp [hnone]
  · have hpos : 0 < w.ledger.supply P.lpMint := hseeded.lpSupply_pos
    exact ⟨sum_offered_le hpos (fun u _ => (P.offered_mul_le _ _).1) hsum,
      sum_offered_le hpos (fun u _ => (P.offered_mul_le _ _).2) hsum⟩

/-- **Nobody gains by leaving first.** -/
theorem offer_kept (hw : w.Inv) (hP : w.pools p = some P) {q : RemoveLiquidityQuote}
    (hq : P.offer w.ledger n = .ok q) {as : List Action} (t : Run step w as w')
    (hquiet : ∀ a ∈ as, a.eventOn p ≠ .trade) (hP' : w'.pools p = some P') {u : Pubkey}
    (hu : u.isSigner) (hn : n ≤ w'.ledger.holdings u P.lpMint) :
    ∃ q', P'.offer w'.ledger n = .ok q' ∧ q.amountA ≤ q'.amountA ∧ q.amountB ≤ q'.amountB := by
  obtain ⟨P'', hP'', he, hs⟩ := run_refines hw hP t
  obtain rfl := Option.some.inj (hP'.symm.trans hP'')
  have hw' := t.invariant step_inv hw
  have hsound := quoteRemoveLiquidity_ok hq
  have hseed : (P.state w.ledger).Seeded := by
    refine (hw.pools p P hP).resolve_left fun hunseeded => ?_
    have hlp : w.ledger.supply P.lpMint = 0 := hunseeded.lpSupply
    have hpos := hsound.lpAmount_pos
    have hnew := hsound.newLpSupply
    omega
  have hseed' := hs.seeded hseed
  have htrade : PoolState.Event.trade ∉ as.map (·.eventOn p) := by
    intro hmem
    obtain ⟨a, ha, hev⟩ := List.mem_map.mp hmem
    exact hquiet a ha hev
  obtain ⟨hA, hB⟩ := hs.ratios hseed htrade
  have hfloorA : n * P.reserveA / w.ledger.supply P.lpMint ≤
      n * P'.reserveA / w'.ledger.supply P'.lpMint := by
    rw [Nat.mul_comm n, Nat.mul_comm n]
    exact SharePool.floor_le_floor hseed.lpSupply_pos hseed'.lpSupply_pos hA
  have hfloorB : n * P.reserveB / w.ledger.supply P.lpMint ≤
      n * P'.reserveB / w'.ledger.supply P'.lpMint := by
    rw [Nat.mul_comm n, Nat.mul_comm n]
    exact SharePool.floor_le_floor hseed.lpSupply_pos hseed'.lpSupply_pos hB
  have hle := holdings_add_locked_le hw' hP' hu
  rw [← (Pool.mints_of_erase he).2.2] at hn
  have hlocked : minimumLiquidity ≤ w'.ledger.balance P'.lockedLp := hseed'.locked
  have hposA := hsound.amountA_pos
  have hposB := hsound.amountB_pos
  rw [hsound.amountA] at hposA
  rw [hsound.amountB] at hposB
  refine ⟨_, quoteRemoveLiquidity_ok_iff.mpr ⟨?_, rfl⟩, ?_, ?_⟩
  · exact
      { lpAmount_pos := hsound.lpAmount_pos
        reserveA_mem := ⟨hseed'.reserveA_pos, hseed'.reserveA_le⟩
        reserveB_mem := ⟨hseed'.reserveB_pos, hseed'.reserveB_le⟩
        lpSupply_le := hseed'.lpSupply_le
        remaining := by omega
        paysA := (hposA.trans_le hfloorA).ne'
        paysB := (hposB.trans_le hfloorB).ne' }
  · rw [hsound.amountA]; exact hfloorA
  · rw [hsound.amountB]; exact hfloorB

/-- **Trades keep the product of the two amounts**, but for rounding. -/
theorem offer_product (hw : w.Inv) (hP : w.pools p = some P) {q q' : RemoveLiquidityQuote}
    (hq : P.offer w.ledger n = .ok q) {as : List Action} (t : Run step w as w')
    (hP' : w'.pools p = some P') (hq' : P'.offer w'.ledger n = .ok q') :
    q.amountA * q.amountB < (q'.amountA + 1) * (q'.amountB + 1) := by
  obtain ⟨P'', hP'', -, hs⟩ := run_refines hw hP t
  obtain rfl := Option.some.inj (hP'.symm.trans hP'')
  have hsound := quoteRemoveLiquidity_ok hq
  have hsound' := quoteRemoveLiquidity_ok hq'
  have hmin : 0 < minimumLiquidity := by decide
  have hpos : 0 < w.ledger.supply P.lpMint := by
    have := hsound.remaining
    have := hsound.newLpSupply
    omega
  have hpos' : 0 < w'.ledger.supply P'.lpMint := by
    have := hsound'.remaining
    have := hsound'.newLpSupply
    omega
  rw [hsound.amountA, hsound.amountB, hsound'.amountA, hsound'.amountB]
  exact SharePool.floors_lt (hs.value_le (hw.pools p P hP)) hpos hpos' n

/-- **Leaving a pool.**  All holders of LP tokens can be paid at once what they are offered.  And
over every run that follows: the offer for as many LP tokens as somebody still holds does not
fall and is not refused, unless somebody trades; and if, the product of its amounts does not,
but for rounding. -/
theorem leaving (hw : w.Reachable) (hP : w.pools p = some P) :
    (∀ users : Finset Pubkey, (∀ u ∈ users, u.isSigner) →
      ∑ u ∈ users, (P.offered w.ledger (w.ledger.holdings u P.lpMint)).1 ≤ P.reserveA ∧
        ∑ u ∈ users, (P.offered w.ledger (w.ledger.holdings u P.lpMint)).2 ≤ P.reserveB) ∧
    (P.reserveA ≤ w.ledger.balance P.vaultA ∧ P.reserveB ≤ w.ledger.balance P.vaultB) ∧
    ∀ as w', Run step w as w' → ∃ P', w'.pools p = some P' ∧
      ∀ n q, P.offer w.ledger n = .ok q →
        ((∀ a ∈ as, a.eventOn p ≠ .trade) → ∀ u, u.isSigner → n ≤ w'.ledger.holdings u P.lpMint →
          ∃ q', P'.offer w'.ledger n = .ok q' ∧ q.amountA ≤ q'.amountA ∧ q.amountB ≤ q'.amountB) ∧
        ∀ q', P'.offer w'.ledger n = .ok q' →
          q.amountA * q.amountB < (q'.amountA + 1) * (q'.amountB + 1) := by
  refine ⟨fun users hu => hw.inv.offers_covered hP hu, (hw.inv.pools p P hP).vaults, ?_⟩
  intro as w' t
  obtain ⟨P', hP', -⟩ := run_refines hw.inv hP t
  refine ⟨P', hP', fun n q hq => ⟨fun hquiet u hu hn => ?_, fun q' hq' => ?_⟩⟩
  · exact offer_kept hw.inv hP hq t hquiet hP' hu hn
  · exact offer_product hw.inv hP hq t hP' hq'

end

/-- The lopsided pool, evened out. -/
def evenWorld : World := lopsided.afterAll lopsidedDeposit

def lopsidedLeaving : List Action := [.removeLiquidity Lopsided.accounts 30 0 0]

theorem evenWorld_reachable : evenWorld.Reachable :=
  Reachable.run lopsided_reachable (run_afterAll (by decide +kernel))

theorem lopsidedLeaving_run : Run step evenWorld lopsidedLeaving (evenWorld.afterAll lopsidedLeaving) :=
  run_afterAll (by decide +kernel)

/-- After some of the user's LP tokens are gone, the offer for fifty of the rest is no less. -/
theorem leaving_lopsided :
    ∃ P' q', (evenWorld.afterAll lopsidedLeaving).pools Lopsided.pool = some P' ∧
      P'.offer (evenWorld.afterAll lopsidedLeaving).ledger 50 = .ok q' ∧
      25 ≤ q'.amountA ∧ 100 ≤ q'.amountB := by
  have hP : evenWorld.pools Lopsided.pool = some evenPool := by decide +kernel
  have hq : evenPool.offer evenWorld.ledger 50 = .ok ⟨25, 100, 876, 3510, 1750⟩ := by
    decide +kernel
  obtain ⟨P', hP', hkept⟩ := (leaving evenWorld_reachable hP).2.2 _ _ lopsidedLeaving_run
  have hw' : (evenWorld.afterAll lopsidedLeaving).Reachable :=
    Reachable.run evenWorld_reachable lopsidedLeaving_run
  have hlp : (evenWorld.afterAll lopsidedLeaving).ledger.HasAccount Lopsided.userLp
      (.lpMint Lopsided.pool) Lopsided.user := hasAccount_of_heldBy (by decide +kernel)
  have hheld : 50 ≤ (evenWorld.afterAll lopsidedLeaving).ledger.balance Lopsided.userLp := by
    decide +kernel
  have hle := hw'.inv.conserved.balance_le_holdings hlp
  obtain ⟨q', hq', hA, hB⟩ := (hkept 50 _ hq).1 (by decide) Lopsided.user rfl (hheld.trans hle)
  exact ⟨P', q', hP', hq', hA, hB⟩

end StablecoinAmm
