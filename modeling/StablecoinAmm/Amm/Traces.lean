import StablecoinAmm.Amm.Effects
import StablecoinAmm.Amm.Events

/-!
# Amm — successes, with their quotes

`SwapEffect` and its siblings keep of a quote what makes it sound.  Whoever compares the outcome
with the quote itself, or with the limits the user set, reads `SwapTrace`, `RemoveTrace` and
`AddTrace`: the effect, the quote it came from, and the slippage check that passed.  Each
determines the event that the handler writes.
-/

namespace StablecoinAmm
open Support Ledger

variable {w w' : World}

/-! ### `swap` -/

structure PoolAccounts.SwapTrace (w : World) (ctx : PoolAccounts) (d : SwapDirection)
    (amountIn minAmountOut : ℕ) (a : PoolAccounts.Loaded) (q : Amm.SwapQuote) (l₁ l₂ : Ledger)
    (w' : World) : Prop extends PoolAccounts.SwapEffect w ctx d amountIn a q l₁ l₂ w' where
  quote : Amm.quoteSwap amountIn (a.pool.reserves d).1 (a.pool.reserves d).2 a.pool.feeBps = .ok q
  slippage : minAmountOut ≤ q.amountOut

theorem swap_trace (hs : w.Shape) (hp : w.PoolsValid) {ctx : PoolAccounts} {d : SwapDirection}
    {amountIn minAmountOut : ℕ} (h : swap w ctx d amountIn minAmountOut = .ok w') :
    ∃ a q l₁ l₂, ctx.SwapTrace w d amountIn minAmountOut a q l₁ l₂ w' := by
  simp only [swap, bind_ok_iff, ensure, require_ok_iff, invoke, mapError_ok_iff,
    pure_ok_iff] at h
  obtain ⟨a, ha, -, -, _, hunp, -, -, -, -, -, -, q, hq, -, hmin, l₁, hin, l₂, hout, -, -, -, -,
    -, -, -, -, -, -, rfl⟩ := h
  have hv := (ctx.validate_sat w).ok ha
  have hfee := (hs.pool _ _ hv.pool).placed.feeBps
  obtain ⟨hsound, hseed⟩ := (quoteSwap_sat (hp _ _ hv.pool) hfee d amountIn).ok hq
  have hin := token2022.transferred hin
  have hout := token2022.transferred hout
  rw [← hv.pool_key] at hout
  exact ⟨a, q, l₁, l₂,
    { valid := hv
      unpaused := (ensureUnpaused_sat a).ok hunp
      sound := hsound
      paidIn := hin
      paidOut := hout
      step := swap_step hs hv hseed d hsound hin hout
      result := rfl
      quote := mapError_ok_iff.mp hq
      slippage := hmin }⟩

theorem PoolAccounts.SwapTrace.emitted {ctx : PoolAccounts} {d : SwapDirection}
    {amountIn minAmountOut : ℕ} {a : PoolAccounts.Loaded} {q : Amm.SwapQuote} {l₁ l₂ : Ledger}
    (h : ctx.SwapTrace w d amountIn minAmountOut a q l₁ l₂ w') :
    ctx.swapEmitted w d amountIn = some (.swapExecuted ctx.pool ctx.user d amountIn q.amountOut
      (a.pool.afterSwap q d).reserveA (a.pool.afterSwap q d).reserveB) := by
  simp only [swapEmitted, h.valid.pool, h.quote, Except.toOption, Option.bind_eq_bind,
    Option.bind_some]
  cases d <;> rfl

/-! ### `remove_liquidity` -/

structure LiquidityAccounts.RemoveTrace (w : World) (ctx : LiquidityAccounts)
    (lpAmount minAOut minBOut : ℕ) (a : LiquidityAccounts.Loaded) (q : Amm.RemoveLiquidityQuote)
    (l₁ l₂ l₃ : Ledger) (w' : World) : Prop
    extends LiquidityAccounts.RemoveEffect w ctx lpAmount a q l₁ l₂ l₃ w' where
  quote : Amm.quoteRemoveLiquidity lpAmount a.pool.reserveA a.pool.reserveB a.lpMint.supply = .ok q
  slippageA : minAOut ≤ q.amountA
  slippageB : minBOut ≤ q.amountB

theorem removeLiquidity_trace (hs : w.Shape) (hp : w.PoolsValid) {ctx : LiquidityAccounts}
    {lpAmount minAOut minBOut : ℕ} (h : removeLiquidity w ctx lpAmount minAOut minBOut = .ok w') :
    ∃ a q l₁ l₂ l₃, ctx.RemoveTrace w lpAmount minAOut minBOut a q l₁ l₂ l₃ w' := by
  simp only [removeLiquidity, bind_ok_iff, ensure, require_ok_iff, invoke, mapError_ok_iff,
    pure_ok_iff] at h
  obtain ⟨a, ha, -, -, _, hunp, -, -, -, -, -, -, _, hseeded, q, hq, -, hkept, -, ⟨hminA, hminB⟩,
    l₁, hburn, l₂, hA, l₃, hB, -, -, -, -, -, -, -, -, -, -, -, -, rfl⟩ := h
  have hv := (ctx.validate_sat w).ok ha
  have hseed : (a.pool.state w.ledger).Seeded := by
    rcases hp _ _ hv.pool with hu | hseed
    · rw [ensureSeeded_of_unseeded hu] at hseeded
      cases hseeded
    · exact hseed
  have hquote := mapError_ok_iff.mp hq
  have hsound := Amm.quoteRemoveLiquidity_ok hquote
  rw [hv.lpMint_supply] at hsound
  rw [hv.lockedLp_amount] at hkept
  have hburn := token2022.burned hburn
  have hA := token2022.transferred hA
  have hB := token2022.transferred hB
  rw [← hv.pool_key] at hA hB
  have hstate := remove_state hs hv hsound hburn hA hB
  exact ⟨a, q, l₁, l₂, l₃,
    { valid := hv
      unpaused := (ensureUnpaused_sat a.toLoaded).ok hunp
      sound := hsound
      burned := hburn
      paidA := hA
      paidB := hB
      step := hstate ▸ PoolState.Step.withdraw hseed hsound hkept
      result := rfl
      quote := hquote
      slippageA := hminA
      slippageB := hminB }⟩

theorem LiquidityAccounts.RemoveTrace.emitted {ctx : LiquidityAccounts}
    {lpAmount minAOut minBOut : ℕ} {a : LiquidityAccounts.Loaded} {q : Amm.RemoveLiquidityQuote}
    {l₁ l₂ l₃ : Ledger} (h : ctx.RemoveTrace w lpAmount minAOut minBOut a q l₁ l₂ l₃ w') :
    ctx.removeEmitted w lpAmount = some (.liquidityRemoved ctx.pool ctx.user lpAmount q.amountA
      q.amountB q.newReserveA q.newReserveB q.newLpSupply) := by
  simp only [removeEmitted, h.valid.pool, h.valid.lpMint, h.quote, Except.toOption,
    Option.bind_eq_bind, Option.bind_some]
  rfl

/-! ### `add_liquidity` -/

structure LiquidityAccounts.AddTrace (w : World) (ctx : LiquidityAccounts)
    (aDesired bDesired aMin bMin minLpOut : ℕ) (a : LiquidityAccounts.Loaded) (t : DepositTerms)
    (l₁ l₂ l₃ l₄ : Ledger) (w' : World) : Prop
    extends LiquidityAccounts.AddEffect w ctx aDesired bDesired a t l₁ l₂ l₃ l₄ w' where
  terms : depositTerms a.pool a.lpMint.supply a.lockedLp.amount aDesired bDesired = .ok t
  slippageA : aMin ≤ t.amountA
  slippageB : bMin ≤ t.amountB
  slippageLp : minLpOut ≤ t.lpToUser

theorem addLiquidity_trace (hs : w.Shape) (hp : w.PoolsValid) {ctx : LiquidityAccounts}
    {aDesired bDesired aMin bMin minLpOut : ℕ}
    (h : addLiquidity w ctx aDesired bDesired aMin bMin minLpOut = .ok w') :
    ∃ a t l₁ l₂ l₃ l₄,
      ctx.AddTrace w aDesired bDesired aMin bMin minLpOut a t l₁ l₂ l₃ l₄ w' := by
  suffices hsat : Sat (addLiquidity w ctx aDesired bDesired aMin bMin minLpOut)
      (fun w' => ∃ a t l₁ l₂ l₃ l₄,
        ctx.AddTrace w aDesired bDesired aMin bMin minLpOut a t l₁ l₂ l₃ l₄ w')
      (fun _ => True) from hsat.ok h
  refine ((ctx.validate_sat w).weaken fun _ _ => trivial).bind fun a hv => ?_
  have hP := hp _ _ hv.pool
  refine .require (fun _ => trivial) fun _ => ?_
  refine ((ensureUnpaused_sat a.toLoaded).weaken fun _ _ => trivial).bind fun _ hunp => ?_
  refine ((ensureChildren_sat _ a.toLoaded).weaken fun _ _ => trivial).bind fun _ _ => ?_
  refine ((ensureLockedAccount_sat ctx a).weaken fun _ _ => trivial).bind fun _ _ => ?_
  refine .step (ensureSolvent_of hP hv.vaultA_amount hv.vaultB_amount) ?_
  refine Sat.bind (.intro (fun _ ht => ht) fun _ _ => trivial) fun t hterms => ?_
  have hsound := (depositTerms_sat hP hv.lpMint_supply hv.lockedLp_amount aDesired
    bDesired).ok hterms
  refine .require (fun _ => trivial) fun hmin => ?_
  refine .okOr (fun _ => trivial) fun _ hA => ?_
  refine .okOr (fun _ => trivial) fun _ hB => ?_
  refine .okOr (fun _ => trivial) fun _ hU => ?_
  refine .okOr (fun _ => trivial) fun _ hL => ?_
  obtain ⟨-, rfl⟩ := checkedAdd_eq_some.mp hA
  obtain ⟨-, rfl⟩ := checkedAdd_eq_some.mp hB
  obtain ⟨-, rfl⟩ := checkedAdd_eq_some.mp hU
  obtain ⟨-, rfl⟩ := checkedAdd_eq_some.mp hL
  refine Sat.bind (.mapError (fun _ hl => token2022.transferred hl) fun _ _ => trivial) ?_
  intro l₁ hpaidA
  refine Sat.bind (.mapError (fun _ hl => token2022.transferred hl) fun _ _ => trivial) ?_
  intro l₂ hpaidB
  refine Sat.bind (.mapError (fun _ hl => mintLocked_ok hv.pool_key hl) fun _ _ => trivial) ?_
  intro l₃ hlock
  refine Sat.bind (.mapError (fun _ hl => token2022.minted hl) fun _ _ => trivial) ?_
  intro l₄ hmint
  rw [← hv.pool_key] at hmint
  have hstep : PoolState.Step .deposit (a.pool.state w.ledger) _ :=
    add_state hs hv hpaidA hpaidB hlock hmint ▸ hsound.step
  refine .of_ok (add_settles hs hP hv hsound hpaidA hpaidB hlock hmint) ?_
  exact ⟨a, t, l₁, l₂, l₃, l₄,
    { valid := hv
      unpaused := hunp
      sound := hsound
      paidA := hpaidA
      paidB := hpaidB
      locked := hlock
      minted := hmint
      step := hstep
      result := rfl
      terms := hterms
      slippageA := hmin.1
      slippageB := hmin.2.1
      slippageLp := hmin.2.2 }⟩

theorem LiquidityAccounts.AddTrace.emitted {ctx : LiquidityAccounts}
    {aDesired bDesired aMin bMin minLpOut : ℕ} {a : LiquidityAccounts.Loaded} {t : DepositTerms}
    {l₁ l₂ l₃ l₄ : Ledger}
    (h : ctx.AddTrace w aDesired bDesired aMin bMin minLpOut a t l₁ l₂ l₃ l₄ w') :
    ctx.addEmitted w aDesired bDesired = some (.liquidityAdded ctx.pool ctx.user t.amountA t.amountB
      t.lpToUser (a.pool.reserveA + t.amountA) (a.pool.reserveB + t.amountB)
      (a.lpMint.supply + t.lpToUser + t.lpToLock)) := by
  obtain ⟨hA, hB, hL⟩ := h.sound.bounds
  rw [← h.valid.lpMint_supply] at hL
  -- the sums are within the cap, so none of the checked additions overflows
  have hsum : ∀ {x y : ℕ}, x + y ≤ maxSupplyCap → checkedAdd 64 x y = some (x + y) := fun hxy =>
    checkedAdd_eq_some.mpr ⟨hxy.trans_lt (by decide), rfl⟩
  have hadd : checkedAdd 64 a.pool.reserveA t.amountA = some _ := hsum hA
  have hadd' : checkedAdd 64 a.pool.reserveB t.amountB = some _ := hsum hB
  have huser : checkedAdd 64 a.lpMint.supply t.lpToUser = some _ := hsum (by omega)
  have hlock : checkedAdd 64 (a.lpMint.supply + t.lpToUser) t.lpToLock = some _ := hsum hL
  simp only [addEmitted, h.valid.pool, h.valid.lpMint, h.valid.lockedLp, h.terms, Except.toOption,
    Option.bind_eq_bind, Option.bind_some, hadd, hadd', huser, hlock]
  rfl

end StablecoinAmm
