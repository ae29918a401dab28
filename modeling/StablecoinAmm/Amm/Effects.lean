import StablecoinAmm.Amm.Instructions
import StablecoinAmm.Amm.PoolState
import StablecoinAmm.Amm.Validation
import StablecoinAmm.Chain.Custody
import StablecoinAmm.System.Shape

/-!
# Amm — what the instructions do

One pass over each handler, in a world of proper shape whose pool is empty or in order.  It
says what success means — the calls made, and a `PoolState.Step` from the pool before to the
pool after — and which errors remain.  The checks that a handler makes after its calls pass
because the step leads to a pool in order: none of their errors is among those that remain.
-/

namespace StablecoinAmm
open Support Ledger

/-- The numbers of a pool, read off its account and the ledger. -/
def Pool.state (P : Pool) (l : Ledger) : PoolState where
  reserveA := P.reserveA
  reserveB := P.reserveB
  lpSupply := l.supply P.lpMint
  lockedLp := l.balance P.lockedLp
  vaultA := l.balance P.vaultA
  vaultB := l.balance P.vaultB

/-- Every pool is empty or in order. -/
def World.PoolsValid (w : World) : Prop :=
  ∀ p P, w.pools p = some P → (P.state w.ledger).Valid

section Accounts
variable {w : World} {ctx : PoolAccounts} {a : PoolAccounts.Loaded}

/-- The user is not the pool. -/
theorem PoolAccounts.Valid.user_ne (h : ctx.Valid w a) : ctx.user ≠ ctx.pool := by
  obtain ⟨n, hn⟩ := Pubkey.isSigner_iff.mp h.signer
  rw [hn, h.pool_key]
  exact nofun

theorem PoolAccounts.Valid.vaultA_amount (h : ctx.Valid w a) :
    a.vaultA.amount = (a.pool.state w.ledger).vaultA := by
  rw [Pool.state, h.vaultA_eq, balance_of h.vaultA]

theorem PoolAccounts.Valid.vaultB_amount (h : ctx.Valid w a) :
    a.vaultB.amount = (a.pool.state w.ledger).vaultB := by
  rw [Pool.state, h.vaultB_eq, balance_of h.vaultB]

theorem PoolAccounts.Valid.lpMint_supply (h : ctx.Valid w a) :
    a.lpMint.supply = (a.pool.state w.ledger).lpSupply := by
  rw [Pool.state, h.lpMint_eq, supply_of h.lpMint]

theorem LiquidityAccounts.Valid.lockedLp_amount {ctx : LiquidityAccounts}
    {a : LiquidityAccounts.Loaded} (h : ctx.Valid w a) :
    a.lockedLp.amount = (a.pool.state w.ledger).lockedLp := by
  rw [Pool.state, h.lockedLp_eq, balance_of h.lockedLp]

/-- A pool's solvency check passes when its vaults cover its reserves. -/
theorem ensureSolvent_of {P : Pool} {l : Ledger} {va vb : ℕ} (h : (P.state l).Valid)
    (ha : va = (P.state l).vaultA) (hb : vb = (P.state l).vaultB) :
    ensureSolvent P va vb = .ok () := by
  subst ha hb
  exact require_of h.vaults _

theorem ensureSeeded_of {P : Pool} {l : Ledger} {lp locked : ℕ} (h : (P.state l).Seeded)
    (hl : lp = (P.state l).lpSupply) (hk : locked = (P.state l).lockedLp) :
    ensureSeeded P lp locked = .ok () := by
  subst hl hk
  have hmin : Amm.minimumLiquidity ≤ (P.state l).lpSupply := h.locked.trans h.lockedLp_le
  rw [ensureSeeded, ensure, require_of ⟨h.reserveA_pos, h.reserveB_pos, hmin⟩, ok_bind, ensure,
    require_of ⟨h.locked, h.lockedLp_le⟩]

/-- An empty pool is stopped here. -/
theorem ensureSeeded_of_unseeded {P : Pool} {l : Ledger} (h : (P.state l).Unseeded)
    (lp locked : ℕ) :
    ensureSeeded P lp locked = .error (.custom .invalidLiquidityState) := by
  have hr : P.reserveA = 0 := h.reserveA
  rw [ensureSeeded, ensure, require_not fun hpos => hpos.1.ne' hr]; rfl

/-- What the calls leave of an account and of a mint, read again. -/
theorem invoke_token {ε : Type} {l l' : Ledger} (h : l'.skeleton = l.skeleton) {k : Pubkey}
    {b : TokenAccount} (hb : l.tokens k = some b) :
    (invoke (l'.token k) : Except (ProgramError ε) TokenAccount) =
      .ok { b with amount := l'.balance k } := by
  rw [Ledger.token, token_of_skeleton h hb]; rfl

theorem invoke_mint {ε : Type} {l l' : Ledger} (h : l'.skeleton = l.skeleton) {m : Pubkey}
    {M : Mint} (hM : l.mints m = some M) :
    (invoke (l'.mint m) : Except (ProgramError ε) Mint) =
      .ok { M with supply := l'.supply m } := by
  rw [Ledger.mint, mint_of_skeleton h hM]; rfl

end Accounts

/-! ### `swap` -/

/-- A successful `swap`. -/
structure PoolAccounts.SwapEffect (w : World) (ctx : PoolAccounts) (d : SwapDirection)
    (amountIn : ℕ) (a : PoolAccounts.Loaded) (q : Amm.SwapQuote) (l₁ l₂ : Ledger) (w' : World) :
    Prop where
  valid : ctx.Valid w a
  unpaused : a.Unpaused
  sound : q.Sound amountIn (a.pool.reserves d).1 (a.pool.reserves d).2
  paidIn : Transferred w.ledger (ctx.transferIn d) ctx.user amountIn l₁
  paidOut : Transferred l₁ (ctx.transferOut d) ctx.pool q.amountOut l₂
  step : PoolState.Step .trade (a.pool.state w.ledger) ((a.pool.afterSwap q d).state l₂)
  result : w' = { w with ledger := l₂ }.setPool ctx.pool (a.pool.afterSwap q d)

/-- What `swap` can fail with. -/
def PoolAccounts.SwapError (w : World) (ctx : PoolAccounts) (d : SwapDirection) (amountIn : ℕ)
    (e : ProgramError AmmError) : Prop :=
  Refusal e ∨ ctx.user.isSigner ∧ ∃ P, w.pools ctx.pool = some P ∧
    ((¬ (P.state w.ledger).Seeded ∧ e = .custom .insufficientLiquidity) ∨
      (maxSupplyCap < (P.reserves d).1 + amountIn ∧ e = .custom .valueOutOfRange))

/-- The accounts of a pool differ from each other and from those of a user. -/
structure PoolAccounts.Apart (ctx : PoolAccounts) (P : Pool) : Prop where
  vaults : ctx.vaultA ≠ ctx.vaultB
  vaultA_userA : ctx.vaultA ≠ ctx.userA
  vaultA_userB : ctx.vaultA ≠ ctx.userB
  vaultB_userA : ctx.vaultB ≠ ctx.userA
  vaultB_userB : ctx.vaultB ≠ ctx.userB
  lockedLp_vaultA : P.lockedLp ≠ ctx.vaultA
  lockedLp_vaultB : P.lockedLp ≠ ctx.vaultB
  lockedLp_userA : P.lockedLp ≠ ctx.userA
  lockedLp_userB : P.lockedLp ≠ ctx.userB

theorem PoolAccounts.Valid.apart {w : World} {ctx : PoolAccounts} {a : PoolAccounts.Loaded}
    (hv : ctx.Valid w a) (hs : w.Shape) : ctx.Apart a.pool := by
  have hP := hs.pool _ _ hv.pool
  have hpl := hP.placed
  have hne := hv.user_ne.symm
  have hA := hv.vaultA_eq ▸ hP.vaultA
  have hB := hv.vaultB_eq ▸ hP.vaultB
  exact
    { vaults := hA.ne_of_mint hB hpl.mints_ne
      vaultA_userA := hA.ne_of_owner hv.userA hne
      vaultA_userB := hA.ne_of_owner hv.userB hne
      vaultB_userA := hB.ne_of_owner hv.userA hne
      vaultB_userB := hB.ne_of_owner hv.userB hne
      lockedLp_vaultA := by rw [← hv.vaultA_eq, hpl.lockedLp, hpl.vaultA]; exact nofun
      lockedLp_vaultB := by rw [← hv.vaultB_eq, hpl.lockedLp, hpl.vaultB]; exact nofun
      lockedLp_userA := hP.lockedLp.ne_of_owner hv.userA hne
      lockedLp_userB := hP.lockedLp.ne_of_owner hv.userB hne }

/-- The calls of a swap move the reserves and the vaults alike. -/
theorem swap_step {w : World} {ctx : PoolAccounts} {a : PoolAccounts.Loaded}
    {q : Amm.SwapQuote} {l₁ l₂ : Ledger} {x : ℕ} (hs : w.Shape) (hv : ctx.Valid w a)
    (hseed : (a.pool.state w.ledger).Seeded) :
    ∀ d : SwapDirection, q.Sound x (a.pool.reserves d).1 (a.pool.reserves d).2 →
      Transferred w.ledger (ctx.transferIn d) ctx.user x l₁ →
      Transferred l₁ (ctx.transferOut d) ctx.pool q.amountOut l₂ →
      PoolState.Step .trade (a.pool.state w.ledger) ((a.pool.afterSwap q d).state l₂)
  | .aToB, hq, hin, hout => by
      have hap := hv.apart hs
      have hA : l₂.balance ctx.vaultA = w.ledger.balance ctx.vaultA + x :=
        (hout.elsewhere hap.vaults hap.vaultA_userB).trans (hin.at_destination hap.vaultA_userA)
      have hB : l₂.balance ctx.vaultB + q.amountOut = w.ledger.balance ctx.vaultB :=
        (hout.at_source hap.vaultB_userB).trans
          (hin.elsewhere hap.vaultB_userA hap.vaults.symm)
      have hK : l₂.balance a.pool.lockedLp = w.ledger.balance a.pool.lockedLp :=
        (hout.elsewhere hap.lockedLp_vaultB hap.lockedLp_userB).trans
          (hin.elsewhere hap.lockedLp_userA hap.lockedLp_vaultA)
      have hstate : (a.pool.afterSwap q .aToB).state l₂ =
          ⟨q.newReserveIn, q.newReserveOut, w.ledger.supply a.pool.lpMint,
            w.ledger.balance a.pool.lockedLp, w.ledger.balance a.pool.vaultA + x,
            w.ledger.balance a.pool.vaultB - q.amountOut⟩ := by
        simp only [Pool.state, Pool.afterSwap, hv.vaultA_eq, hv.vaultB_eq, hout.supplies,
          hin.supplies, hA, ← hB, hK, Nat.add_sub_cancel]
      rw [hstate]
      exact .tradeAB hseed hq
  | .bToA, hq, hin, hout => by
      have hap := hv.apart hs
      have hB : l₂.balance ctx.vaultB = w.ledger.balance ctx.vaultB + x :=
        (hout.elsewhere hap.vaults.symm hap.vaultB_userA).trans
          (hin.at_destination hap.vaultB_userB)
      have hA : l₂.balance ctx.vaultA + q.amountOut = w.ledger.balance ctx.vaultA :=
        (hout.at_source hap.vaultA_userA).trans (hin.elsewhere hap.vaultA_userB hap.vaults)
      have hK : l₂.balance a.pool.lockedLp = w.ledger.balance a.pool.lockedLp :=
        (hout.elsewhere hap.lockedLp_vaultA hap.lockedLp_userA).trans
          (hin.elsewhere hap.lockedLp_userB hap.lockedLp_vaultB)
      have hstate : (a.pool.afterSwap q .bToA).state l₂ =
          ⟨q.newReserveOut, q.newReserveIn, w.ledger.supply a.pool.lpMint,
            w.ledger.balance a.pool.lockedLp, w.ledger.balance a.pool.vaultA - q.amountOut,
            w.ledger.balance a.pool.vaultB + x⟩ := by
        simp only [Pool.state, Pool.afterSwap, hv.vaultA_eq, hv.vaultB_eq, hout.supplies,
          hin.supplies, hB, ← hA, hK, Nat.add_sub_cancel]
      rw [hstate]
      exact .tradeBA hseed hq

/-- Capped reserves, whichever way they are read. -/
theorem Pool.reserves_le {P : Pool} {l : Ledger} (h : (P.state l).Valid) (d : SwapDirection) :
    (P.reserves d).1 ≤ maxSupplyCap ∧ (P.reserves d).2 ≤ maxSupplyCap := by
  have hab : P.reserveA ≤ maxSupplyCap ∧ P.reserveB ≤ maxSupplyCap := by
    rcases h with h | h
    · rw [show P.reserveA = 0 from h.reserveA, show P.reserveB = 0 from h.reserveB]
      exact ⟨Nat.zero_le _, Nat.zero_le _⟩
    · exact ⟨h.reserveA_le, h.reserveB_le⟩
  cases d with
  | aToB => exact hab
  | bToA => exact hab.symm

theorem Pool.reserves_pos {P : Pool} {l : Ledger} (h : (P.state l).Seeded) (d : SwapDirection) :
    0 < (P.reserves d).1 ∧ 0 < (P.reserves d).2 := by
  cases d with
  | aToB => exact ⟨h.reserveA_pos, h.reserveB_pos⟩
  | bToA => exact ⟨h.reserveB_pos, h.reserveA_pos⟩

theorem quoteSwap_sat {P : Pool} {l : Ledger} (h : (P.state l).Valid) (hfee : P.feeBps ≤ Amm.maxFeeBps)
    (d : SwapDirection) (x : ℕ) :
    Sat (quoted (Amm.quoteSwap x (P.reserves d).1 (P.reserves d).2 P.feeBps))
      (fun q => q.Sound x (P.reserves d).1 (P.reserves d).2 ∧ (P.state l).Seeded)
      (fun e => Refusal e ∨ (¬ (P.state l).Seeded ∧ e = .custom .insufficientLiquidity) ∨
        (maxSupplyCap < (P.reserves d).1 + x ∧ e = .custom .valueOutOfRange)) := by
  rcases h with hu | hs
  · -- empty: the quote refuses, with the amount's error or the reserves'
    have hzero : (P.reserves d).1 = 0 := by
      cases d with
      | aToB => exact hu.reserveA
      | bToA => exact hu.reserveB
    refine .mapError ?_ ?_
    · intro q hq
      rw [Amm.quoteSwap_eq] at hq
      split_ifs at hq with h0 hr
      exact absurd (.inl hzero) hr
    · intro e he
      rw [Amm.quoteSwap_eq] at he
      split_ifs at he with h0 hr
      · obtain rfl := Except.error.inj he; exact .inl trivial
      · obtain rfl := Except.error.inj he; exact .inr (.inl ⟨hu.not_seeded, rfl⟩)
      all_goals exact absurd (.inl hzero) hr
  · obtain ⟨hi, ho⟩ := Pool.reserves_pos hs d
    have hcap := (Pool.reserves_le (.inr hs) d).2
    refine .mapError (fun q hq => ⟨Amm.quoteSwap_ok hq, hs⟩) ?_
    intro e he
    rcases Amm.quoteSwap_error he hi ho with rfl | ⟨-, rfl⟩ | ⟨hf, -⟩ | ⟨hr, rfl⟩
    · exact .inl trivial
    · exact .inl trivial
    · exact absurd hf (by omega)
    · exact .inr (.inr ⟨by omega, rfl⟩)

/-- After the calls of a swap the pool is in order, so nothing that follows them can fail. -/
theorem swap_settles {w : World} {ctx : PoolAccounts} {a : PoolAccounts.Loaded}
    {q : Amm.SwapQuote} {l₁ l₂ : Ledger} {x : ℕ} (hs : w.Shape) (hv : ctx.Valid w a)
    (hseed : (a.pool.state w.ledger).Seeded) (d : SwapDirection)
    (hq : q.Sound x (a.pool.reserves d).1 (a.pool.reserves d).2)
    (hin : Transferred w.ledger (ctx.transferIn d) ctx.user x l₁)
    (hout : Transferred l₁ (ctx.transferOut d) ctx.pool q.amountOut l₂) :
    (do
      let newK ← okOr (checkedMul 128 q.newReserveIn q.newReserveOut) (.custom .mathOverflow)
      ensure (newK ≥ (a.pool.reserves d).1 * (a.pool.reserves d).2) .constantProductViolation
      let vaultA ← invoke (l₂.token ctx.vaultA)
      let vaultB ← invoke (l₂.token ctx.vaultB)
      ensureSolvent (a.pool.afterSwap q d) vaultA.amount vaultB.amount
      pure ({ w with ledger := l₂ }.setPool ctx.pool (a.pool.afterSwap q d)) :
        Except (ProgramError AmmError) World) =
      .ok ({ w with ledger := l₂ }.setPool ctx.pool (a.pool.afterSwap q d)) := by
  have hafter := (swap_step hs hv hseed d hq hin hout).seeded hseed
  have hskel := hout.skeleton.trans hin.skeleton
  have hnew : q.newReserveIn * q.newReserveOut ≤ 10 ^ 30 := by
    have hle := (Pool.reserves_le (.inr hseed) d).2
    have := hq.newReserveOut
    exact Amm.mul_le_of_le_cap hq.newReserveIn_le (by omega)
  have hA : l₂.balance ctx.vaultA = ((a.pool.afterSwap q d).state l₂).vaultA := by
    cases d <;> exact congrArg l₂.balance hv.vaultA_eq.symm
  have hB : l₂.balance ctx.vaultB = ((a.pool.afterSwap q d).state l₂).vaultB := by
    cases d <;> exact congrArg l₂.balance hv.vaultB_eq.symm
  rw [Amm.okOr_checkedMul _ (by omega), ok_bind, ensure, require_of hq.product, ok_bind,
    invoke_token hskel hv.vaultA, ok_bind, invoke_token hskel hv.vaultB, ok_bind,
    ensureSolvent_of (.inr hafter) hA hB, ok_bind]
  rfl

theorem swap_sat {w : World} (hs : w.Shape) (hp : w.PoolsValid) (ctx : PoolAccounts)
    (d : SwapDirection) (amountIn minAmountOut : ℕ) :
    Sat (swap w ctx d amountIn minAmountOut)
      (fun w' => ∃ a q l₁ l₂, ctx.SwapEffect w d amountIn a q l₁ l₂ w')
      (ctx.SwapError w d amountIn) := by
  have hE : ∀ e, Refusal e → ctx.SwapError w d amountIn e := fun _ h => .inl h
  refine ((ctx.validate_sat w).weaken hE).bind fun a hv => ?_
  have hP := hp _ _ hv.pool
  have hfee := (hs.pool _ _ hv.pool).placed.feeBps
  refine .require (fun _ => hE _ trivial) fun _ => ?_
  refine ((ensureUnpaused_sat a).weaken hE).bind fun _ hunp => ?_
  refine ((ensureChildren_sat ctx a).weaken hE).bind fun _ _ => ?_
  refine .step (ensureSolvent_of hP hv.vaultA_amount hv.vaultB_amount) ?_
  obtain ⟨hci, hco⟩ := Pool.reserves_le hP d
  have hold := Amm.mul_le_of_le_cap hci hco
  refine .step (Amm.okOr_checkedMul _ (by omega)) ?_
  refine ((quoteSwap_sat hP hfee d amountIn).weaken ?_).bind ?_
  · rintro e (h | h)
    · exact .inl h
    · exact .inr ⟨hv.signer, a.pool, hv.pool, h⟩
  rintro q ⟨hq, hseed⟩
  refine .require (fun _ => hE _ trivial) fun _ => ?_
  refine Sat.bind (.mapError (fun l hl => token2022.transferred hl) fun _ _ => hE _ trivial) ?_
  intro l₁ hin
  refine Sat.bind (.mapError (fun l hl => token2022.transferred hl) fun _ _ => hE _ trivial) ?_
  intro l₂ hout
  rw [← hv.pool_key] at hout
  exact .of_ok (swap_settles hs hv hseed d hq hin hout)
    ⟨a, q, l₁, l₂, hv, hunp, hq, hin, hout, swap_step hs hv hseed d hq hin hout, rfl⟩

/-! ### `remove_liquidity` -/

/-- A successful `remove_liquidity`. -/
structure LiquidityAccounts.RemoveEffect (w : World) (ctx : LiquidityAccounts) (lpAmount : ℕ)
    (a : LiquidityAccounts.Loaded) (q : Amm.RemoveLiquidityQuote) (l₁ l₂ l₃ : Ledger)
    (w' : World) : Prop where
  valid : ctx.Valid w a
  unpaused : a.toLoaded.Unpaused
  sound : q.Sound lpAmount a.pool.reserveA a.pool.reserveB (a.pool.state w.ledger).lpSupply
  burned : Burned w.ledger ⟨ctx.lpMint, ctx.userLp, ctx.user⟩ ctx.user lpAmount l₁
  paidA : Transferred l₁ ⟨ctx.vaultA, ctx.mintA, ctx.userA, ctx.pool⟩ ctx.pool q.amountA l₂
  paidB : Transferred l₂ ⟨ctx.vaultB, ctx.mintB, ctx.userB, ctx.pool⟩ ctx.pool q.amountB l₃
  step : PoolState.Step .withdraw (a.pool.state w.ledger)
    (({ a.pool with reserveA := q.newReserveA, reserveB := q.newReserveB } : Pool).state l₃)
  result : w' = { w with ledger := l₃ }.setPool ctx.pool
    { a.pool with reserveA := q.newReserveA, reserveB := q.newReserveB }

/-- What `remove_liquidity` can fail with. -/
def LiquidityAccounts.RemoveError (w : World) (ctx : LiquidityAccounts) (lpAmount : ℕ)
    (e : ProgramError AmmError) : Prop :=
  Refusal e ∨ ctx.user.isSigner ∧ ∃ P, w.pools ctx.pool = some P ∧
    ((¬ (P.state w.ledger).Seeded ∧ e = .custom .invalidLiquidityState) ∨
      ((P.state w.ledger).lpSupply < lpAmount + (P.state w.ledger).lockedLp ∧
        (e = .custom .insufficientLiquidity ∨ e = .custom .lockedLiquidityInvariant)))

/-- The user's LP account is none of the accounts of the pool. -/
theorem LiquidityAccounts.Valid.userLp_apart {w : World} {ctx : LiquidityAccounts}
    {a : LiquidityAccounts.Loaded} (hv : ctx.Valid w a) (hs : w.Shape) :
    ctx.vaultA ≠ ctx.userLp ∧ ctx.vaultB ≠ ctx.userLp ∧ a.pool.lockedLp ≠ ctx.userLp := by
  have hP := hs.pool _ _ hv.pool
  have hne := hv.user_ne.symm
  exact ⟨(hv.vaultA_eq ▸ hP.vaultA).ne_of_owner hv.userLp hne,
    (hv.vaultB_eq ▸ hP.vaultB).ne_of_owner hv.userLp hne,
    hP.lockedLp.ne_of_owner hv.userLp hne⟩

theorem remove_state {w : World} {ctx : LiquidityAccounts} {a : LiquidityAccounts.Loaded}
    {q : Amm.RemoveLiquidityQuote} {l₁ l₂ l₃ : Ledger} {n : ℕ} (hs : w.Shape)
    (hv : ctx.Valid w a)
    (hq : q.Sound n a.pool.reserveA a.pool.reserveB (a.pool.state w.ledger).lpSupply)
    (hburn : Burned w.ledger ⟨ctx.lpMint, ctx.userLp, ctx.user⟩ ctx.user n l₁)
    (hA : Transferred l₁ ⟨ctx.vaultA, ctx.mintA, ctx.userA, ctx.pool⟩ ctx.pool q.amountA l₂)
    (hB : Transferred l₂ ⟨ctx.vaultB, ctx.mintB, ctx.userB, ctx.pool⟩ ctx.pool q.amountB l₃) :
    ({ a.pool with reserveA := q.newReserveA, reserveB := q.newReserveB } : Pool).state l₃ =
      ⟨q.newReserveA, q.newReserveB, q.newLpSupply, (a.pool.state w.ledger).lockedLp,
        (a.pool.state w.ledger).vaultA - q.amountA,
        (a.pool.state w.ledger).vaultB - q.amountB⟩ := by
  have hap := hv.toValid.apart hs
  obtain ⟨hAu, hBu, hKu⟩ := hv.userLp_apart hs
  have hvA : l₃.balance ctx.vaultA + q.amountA = w.ledger.balance ctx.vaultA := by
    rw [hB.elsewhere hap.vaults hap.vaultA_userB]
    exact (hA.at_source hap.vaultA_userA).trans (hburn.elsewhere hAu)
  have hvB : l₃.balance ctx.vaultB + q.amountB = w.ledger.balance ctx.vaultB :=
    (hB.at_source hap.vaultB_userB).trans
      ((hA.elsewhere hap.vaults.symm hap.vaultB_userA).trans (hburn.elsewhere hBu))
  have hK : l₃.balance a.pool.lockedLp = w.ledger.balance a.pool.lockedLp :=
    (hB.elsewhere hap.lockedLp_vaultB hap.lockedLp_userB).trans
      ((hA.elsewhere hap.lockedLp_vaultA hap.lockedLp_userA).trans (hburn.elsewhere hKu))
  have hL : l₃.supply a.pool.lpMint = q.newLpSupply := by
    have hsup := hburn.supplies a.pool.lpMint
    have hnew := hq.newLpSupply
    rw [if_pos hv.lpMint_eq] at hsup
    rw [hB.supplies, hA.supplies]
    simp only [Pool.state] at hnew
    omega
  simp only [Pool.state, hL, hK, hv.vaultA_eq, hv.vaultB_eq, ← hvA, ← hvB, Nat.add_sub_cancel]

/-- After the calls of a withdrawal nothing can fail. -/
theorem remove_settles {w : World} {ctx : LiquidityAccounts} {a : LiquidityAccounts.Loaded}
    {q : Amm.RemoveLiquidityQuote} {l₁ l₂ l₃ : Ledger} {n : ℕ} (hs : w.Shape)
    (hv : ctx.Valid w a) (hseed : (a.pool.state w.ledger).Seeded)
    (hq : q.Sound n a.pool.reserveA a.pool.reserveB (a.pool.state w.ledger).lpSupply)
    (hkept : (a.pool.state w.ledger).lockedLp ≤ q.newLpSupply)
    (hburn : Burned w.ledger ⟨ctx.lpMint, ctx.userLp, ctx.user⟩ ctx.user n l₁)
    (hA : Transferred l₁ ⟨ctx.vaultA, ctx.mintA, ctx.userA, ctx.pool⟩ ctx.pool q.amountA l₂)
    (hB : Transferred l₂ ⟨ctx.vaultB, ctx.mintB, ctx.userB, ctx.pool⟩ ctx.pool q.amountB l₃) :
    (do
      let vaultA ← invoke (l₃.token ctx.vaultA)
      let vaultB ← invoke (l₃.token ctx.vaultB)
      let lpMint ← invoke (l₃.mint ctx.lpMint)
      ensure (lpMint.supply = q.newLpSupply) .lpSupplyInvariant
      ensureSolvent { a.pool with reserveA := q.newReserveA, reserveB := q.newReserveB }
        vaultA.amount vaultB.amount
      ensureSeeded { a.pool with reserveA := q.newReserveA, reserveB := q.newReserveB }
        q.newLpSupply a.lockedLp.amount
      pure ({ w with ledger := l₃ }.setPool ctx.pool
        { a.pool with reserveA := q.newReserveA, reserveB := q.newReserveB }) :
        Except (ProgramError AmmError) World) =
      .ok ({ w with ledger := l₃ }.setPool ctx.pool
        { a.pool with reserveA := q.newReserveA, reserveB := q.newReserveB }) := by
  have hstate := remove_state hs hv hq hburn hA hB
  have hafter := (PoolState.Step.withdraw hseed hq hkept).seeded hseed
  rw [← hstate] at hafter
  have hskel := hB.skeleton.trans (hA.skeleton.trans hburn.skeleton)
  have hL : l₃.supply ctx.lpMint = q.newLpSupply :=
    (congrArg l₃.supply hv.lpMint_eq.symm).trans (congrArg PoolState.lpSupply hstate)
  rw [invoke_token hskel hv.vaultA, ok_bind, invoke_token hskel hv.vaultB, ok_bind,
    invoke_mint hskel hv.lpMint, ok_bind, ensure, require_of hL, ok_bind,
    ensureSolvent_of (.inr hafter) (congrArg l₃.balance hv.vaultA_eq.symm)
      (congrArg l₃.balance hv.vaultB_eq.symm), ok_bind,
    ensureSeeded_of hafter (congrArg PoolState.lpSupply hstate).symm
      (hv.lockedLp_amount.trans (congrArg PoolState.lockedLp hstate).symm), ok_bind]
  rfl

theorem removeLiquidity_sat {w : World} (hs : w.Shape) (hp : w.PoolsValid)
    (ctx : LiquidityAccounts) (lpAmount minAOut minBOut : ℕ) :
    Sat (removeLiquidity w ctx lpAmount minAOut minBOut)
      (fun w' => ∃ a q l₁ l₂ l₃, ctx.RemoveEffect w lpAmount a q l₁ l₂ l₃ w')
      (ctx.RemoveError w lpAmount) := by
  have hE : ∀ e, Refusal e → ctx.RemoveError w lpAmount e := fun _ h => .inl h
  refine ((ctx.validate_sat w).weaken hE).bind fun a hv => ?_
  have hP := hp _ _ hv.pool
  refine .require (fun _ => hE _ trivial) fun hpos => ?_
  refine ((ensureUnpaused_sat a.toLoaded).weaken hE).bind fun _ hunp => ?_
  refine ((ensureChildren_sat _ a.toLoaded).weaken hE).bind fun _ _ => ?_
  refine ((ensureLockedAccount_sat ctx a).weaken hE).bind fun _ _ => ?_
  refine .step (ensureSolvent_of hP hv.vaultA_amount hv.vaultB_amount) ?_
  rcases hP with hu | hseed
  · exact .fail (ensureSeeded_of_unseeded hu _ _)
      (.inr ⟨hv.signer, a.pool, hv.pool, .inl ⟨hu.not_seeded, rfl⟩⟩)
  refine .step (ensureSeeded_of hseed hv.lpMint_supply hv.lockedLp_amount) ?_
  have hloc := hseed.locked
  have hmin : Amm.minimumLiquidity ≤ a.lpMint.supply := by
    rw [hv.lpMint_supply]; exact hloc.trans hseed.lockedLp_le
  have hq : Sat (quoted (Amm.quoteRemoveLiquidity lpAmount a.pool.reserveA a.pool.reserveB
      a.lpMint.supply)) (fun q => q.Sound lpAmount a.pool.reserveA a.pool.reserveB a.lpMint.supply)
      (ctx.RemoveError w lpAmount) := by
    refine .mapError (fun q hq => Amm.quoteRemoveLiquidity_ok hq) fun e he => ?_
    rcases Amm.quoteRemoveLiquidity_error he hseed.reserveA_pos hseed.reserveB_pos hmin
      hseed.reserveA_le hseed.reserveB_le (hv.lpMint_supply ▸ hseed.lpSupply_le) with
      ⟨-, rfl⟩ | ⟨-, rfl⟩ | ⟨hlt, rfl⟩
    · exact hE _ trivial
    · exact hE _ trivial
    · rw [hv.lpMint_supply] at hlt
      exact .inr ⟨hv.signer, a.pool, hv.pool, .inr ⟨by omega, .inl rfl⟩⟩
  refine hq.bind fun q hq => ?_
  rw [hv.lpMint_supply] at hq
  have hnew := hq.newLpSupply
  have hlk := hv.lockedLp_amount
  refine .require (fun h => .inr ⟨hv.signer, a.pool, hv.pool, .inr ⟨by omega, .inr rfl⟩⟩) fun hkept => ?_
  rw [hlk] at hkept
  refine .require (fun _ => hE _ trivial) fun _ => ?_
  refine Sat.bind (.mapError (fun l hl => token2022.burned hl) fun _ _ => hE _ trivial) ?_
  intro l₁ hburn
  refine Sat.bind (.mapError (fun l hl => token2022.transferred hl) fun _ _ => hE _ trivial) ?_
  intro l₂ hpaidA
  refine Sat.bind (.mapError (fun l hl => token2022.transferred hl) fun _ _ => hE _ trivial) ?_
  intro l₃ hpaidB
  rw [← hv.pool_key] at hpaidA hpaidB
  have hstate := remove_state hs hv hq hburn hpaidA hpaidB
  have hstep : PoolState.Step .withdraw (a.pool.state w.ledger) _ :=
    hstate ▸ PoolState.Step.withdraw hseed hq hkept
  exact .of_ok (remove_settles hs hv hseed hq hkept hburn hpaidA hpaidB)
    ⟨a, q, l₁, l₂, l₃, hv, hunp, hq, hburn, hpaidA, hpaidB, hstep, rfl⟩

/-! ### `add_liquidity` -/

/-- The terms of a deposit, by the quote they come from. -/
inductive DepositTerms.Sound (s : PoolState) (aDesired bDesired : ℕ) : DepositTerms → Prop where
  | first (hs : s.Unseeded) {q : Amm.InitialLiquidityQuote} (hq : q.Sound aDesired bDesired) :
      Sound s aDesired bDesired ⟨aDesired, bDesired, q.lpToUser, q.lpToLock⟩
  | later (hs : s.Seeded) {q : Amm.AddLiquidityQuote}
      (hq : q.Sound aDesired bDesired s.reserveA s.reserveB s.lpSupply) :
      Sound s aDesired bDesired ⟨q.amountA, q.amountB, q.lpMinted, 0⟩

/-- `lp_to_lock` was minted into the locked account, or there was none. -/
def LiquidityAccounts.Locked (ctx : LiquidityAccounts) (n : ℕ) (l l' : Ledger) : Prop :=
  (n = 0 ∧ l' = l) ∨ Minted l ⟨ctx.lpMint, ctx.lockedLp, ctx.pool⟩ ctx.pool n l'

/-- A successful `add_liquidity`. -/
structure LiquidityAccounts.AddEffect (w : World) (ctx : LiquidityAccounts)
    (aDesired bDesired : ℕ) (a : LiquidityAccounts.Loaded) (t : DepositTerms)
    (l₁ l₂ l₃ l₄ : Ledger) (w' : World) : Prop where
  valid : ctx.Valid w a
  unpaused : a.toLoaded.Unpaused
  sound : t.Sound (a.pool.state w.ledger) aDesired bDesired
  paidA : Transferred w.ledger ⟨ctx.userA, ctx.mintA, ctx.vaultA, ctx.user⟩ ctx.user t.amountA l₁
  paidB : Transferred l₁ ⟨ctx.userB, ctx.mintB, ctx.vaultB, ctx.user⟩ ctx.user t.amountB l₂
  locked : ctx.Locked t.lpToLock l₂ l₃
  minted : Minted l₃ ⟨ctx.lpMint, ctx.userLp, ctx.pool⟩ ctx.pool t.lpToUser l₄
  step : PoolState.Step .deposit (a.pool.state w.ledger)
    (({ a.pool with reserveA := a.pool.reserveA + t.amountA,
                    reserveB := a.pool.reserveB + t.amountB } : Pool).state l₄)
  result : w' = { w with ledger := l₄ }.setPool ctx.pool
    { a.pool with reserveA := a.pool.reserveA + t.amountA,
                  reserveB := a.pool.reserveB + t.amountB }

/-- What `add_liquidity` can fail with. -/
def LiquidityAccounts.AddError (w : World) (ctx : LiquidityAccounts) (aDesired bDesired : ℕ)
    (e : ProgramError AmmError) : Prop :=
  Refusal e ∨ ctx.user.isSigner ∧ ∃ P, w.pools ctx.pool = some P ∧
    (maxSupplyCap < P.reserveA + aDesired ∨ maxSupplyCap < P.reserveB + bDesired) ∧
    e = .custom .valueOutOfRange

theorem mintLocked_ok {l l' : Ledger} {ctx : LiquidityAccounts} {P : Pool} {n d : ℕ}
    (hk : ctx.pool = .pool P.mintA P.mintB) (h : mintLocked l ctx P n d = .ok l') :
    ctx.Locked n l l' := by
  unfold mintLocked at h
  split at h
  · rw [← hk] at h
    exact .inr (token2022.minted h)
  · exact .inl ⟨by omega, (pure_ok_iff.mp h).symm⟩

namespace LiquidityAccounts.Locked

variable {ctx : LiquidityAccounts} {n : ℕ} {l l' : Ledger}

theorem balances (h : ctx.Locked n l l') (k : Pubkey) :
    l'.balance k = l.balance k + if k = ctx.lockedLp then n else 0 := by
  rcases h with ⟨rfl, rfl⟩ | h
  · rw [ite_self, Nat.add_zero]
  · exact h.balances k

theorem supplies (h : ctx.Locked n l l') (m : Pubkey) :
    l'.supply m = l.supply m + if m = ctx.lpMint then n else 0 := by
  rcases h with ⟨rfl, rfl⟩ | h
  · rw [ite_self, Nat.add_zero]
  · exact h.supplies m

theorem moved (h : ctx.Locked n l l') : Moved l l' := by
  rcases h with ⟨-, rfl⟩ | h
  · exact .refl _
  · exact h.toMoved

end LiquidityAccounts.Locked

theorem depositTerms_sat {P : Pool} {l : Ledger} (h : (P.state l).Valid) {lp locked : ℕ}
    (hl : lp = (P.state l).lpSupply) (hk : locked = (P.state l).lockedLp)
    (aDesired bDesired : ℕ) :
    Sat (depositTerms P lp locked aDesired bDesired)
      (DepositTerms.Sound (P.state l) aDesired bDesired)
      (fun e => Refusal e ∨ (maxSupplyCap < P.reserveA + aDesired ∨
        maxSupplyCap < P.reserveB + bDesired) ∧ e = .custom .valueOutOfRange) := by
  unfold depositTerms
  rcases h with hu | hs
  · have ha : P.reserveA = 0 := hu.reserveA
    have hb : P.reserveB = 0 := hu.reserveB
    rw [if_pos (hl.trans hu.lpSupply)]
    refine .require_true ⟨ha, hb, hk.trans hu.lockedLp⟩ ?_
    refine Sat.bind (.mapError (fun q hq => Amm.quoteInitialLiquidity_ok hq) ?_) fun q hq => ?_
    · intro e he
      rcases Amm.quoteInitialLiquidity_error he with rfl | ⟨-, rfl⟩ | ⟨hr, rfl⟩
      · exact .inl trivial
      · exact .inl trivial
      · exact .inr ⟨by omega, rfl⟩
    · exact .pure (.first hu hq)
  · rw [if_neg (hl ▸ hs.lpSupply_pos.ne')]
    refine .step (ensureSeeded_of hs hl hk) ?_
    subst hl
    refine Sat.bind (.mapError (fun q hq => Amm.quoteAddLiquidity_ok hq) ?_) fun q hq => ?_
    · intro e he
      rcases Amm.quoteAddLiquidity_error he hs.reserveA_pos hs.reserveB_pos
        (hs.locked.trans hs.lockedLp_le) hs.sq_le with rfl | ⟨-, rfl⟩ | ⟨hr, rfl⟩
      · exact .inl trivial
      · exact .inl trivial
      · exact .inr ⟨hr, rfl⟩
    · exact .pure (.later hs hq)

/-- Nothing in the terms of a deposit overflows. -/
theorem DepositTerms.Sound.bounds {s : PoolState} {aDesired bDesired : ℕ} {t : DepositTerms}
    (h : t.Sound s aDesired bDesired) :
    s.reserveA + t.amountA ≤ maxSupplyCap ∧ s.reserveB + t.amountB ≤ maxSupplyCap ∧
      s.lpSupply + t.lpToUser + t.lpToLock ≤ maxSupplyCap := by
  cases h with
  | first hs hq =>
      have hcap : (PoolState.mk aDesired bDesired (_ + _) _ (s.vaultA + aDesired)
        (s.vaultB + bDesired)).Seeded := ((PoolState.Step.seed hs hq).unseeded hs).resolve_left
          fun hu => hq.amountA_pos.ne' hu.reserveA
      have hle := hcap.lpSupply_le
      rw [hs.reserveA, hs.reserveB, hs.lpSupply]
      dsimp only at hle ⊢
      exact ⟨by have := hq.amountA_le; omega, by have := hq.amountB_le; omega, by omega⟩
  | later hs hq =>
      exact ⟨hq.newReserveA ▸ hq.newReserveA_le, hq.newReserveB ▸ hq.newReserveB_le,
        hq.newLpSupply ▸ hq.newLpSupply_le⟩

/-- The terms of a deposit, as a step of the pool. -/
theorem DepositTerms.Sound.step {s : PoolState} {aDesired bDesired : ℕ} {t : DepositTerms}
    (h : t.Sound s aDesired bDesired) :
    PoolState.Step .deposit s ⟨s.reserveA + t.amountA, s.reserveB + t.amountB,
      s.lpSupply + t.lpToUser + t.lpToLock, s.lockedLp + t.lpToLock, s.vaultA + t.amountA,
      s.vaultB + t.amountB⟩ := by
  cases h with
  | first hs hq =>
      have := PoolState.Step.seed hs hq
      rw [hs.reserveA, hs.reserveB, hs.lpSupply, hs.lockedLp]
      simpa only [Nat.zero_add] using this
  | later hs hq =>
      have := PoolState.Step.deposit hs hq
      rwa [hq.newReserveA, hq.newReserveB, hq.newLpSupply] at this

theorem add_state {w : World} {ctx : LiquidityAccounts} {a : LiquidityAccounts.Loaded}
    {t : DepositTerms} {l₁ l₂ l₃ l₄ : Ledger} (hs : w.Shape) (hv : ctx.Valid w a)
    (hA : Transferred w.ledger ⟨ctx.userA, ctx.mintA, ctx.vaultA, ctx.user⟩ ctx.user t.amountA l₁)
    (hB : Transferred l₁ ⟨ctx.userB, ctx.mintB, ctx.vaultB, ctx.user⟩ ctx.user t.amountB l₂)
    (hlock : ctx.Locked t.lpToLock l₂ l₃)
    (hmint : Minted l₃ ⟨ctx.lpMint, ctx.userLp, ctx.pool⟩ ctx.pool t.lpToUser l₄) :
    ({ a.pool with reserveA := a.pool.reserveA + t.amountA,
                   reserveB := a.pool.reserveB + t.amountB } : Pool).state l₄ =
      ⟨(a.pool.state w.ledger).reserveA + t.amountA, (a.pool.state w.ledger).reserveB + t.amountB,
        (a.pool.state w.ledger).lpSupply + t.lpToUser + t.lpToLock,
        (a.pool.state w.ledger).lockedLp + t.lpToLock,
        (a.pool.state w.ledger).vaultA + t.amountA,
        (a.pool.state w.ledger).vaultB + t.amountB⟩ := by
  have hap := hv.toValid.apart hs
  obtain ⟨hAu, hBu, hKu⟩ := hv.userLp_apart hs
  have hvA : l₄.balance ctx.vaultA = w.ledger.balance ctx.vaultA + t.amountA := by
    rw [hmint.elsewhere hAu, hlock.balances, if_neg (hv.lockedLp_eq ▸ hap.lockedLp_vaultA.symm),
      Nat.add_zero, hB.elsewhere hap.vaultA_userB hap.vaults]
    exact hA.at_destination hap.vaultA_userA
  have hvB : l₄.balance ctx.vaultB = w.ledger.balance ctx.vaultB + t.amountB := by
    rw [hmint.elsewhere hBu, hlock.balances, if_neg (hv.lockedLp_eq ▸ hap.lockedLp_vaultB.symm),
      Nat.add_zero]
    refine (hB.at_destination hap.vaultB_userB).trans ?_
    rw [hA.elsewhere hap.vaultB_userA hap.vaults.symm]
  have hK : l₄.balance a.pool.lockedLp = w.ledger.balance a.pool.lockedLp + t.lpToLock := by
    rw [hmint.elsewhere hKu, hlock.balances, if_pos hv.lockedLp_eq,
      hB.elsewhere hap.lockedLp_userB hap.lockedLp_vaultB,
      hA.elsewhere hap.lockedLp_userA hap.lockedLp_vaultA]
  have hL : l₄.supply a.pool.lpMint =
      w.ledger.supply a.pool.lpMint + t.lpToUser + t.lpToLock := by
    rw [hmint.supplies, if_pos hv.lpMint_eq, hlock.supplies, if_pos hv.lpMint_eq, hB.supplies,
      hA.supplies]
    omega
  simp only [Pool.state, hL, hK, hv.vaultA_eq, hv.vaultB_eq, hvA, hvB]

/-- The deposit seeds an empty pool and keeps one in order. -/
theorem DepositTerms.Sound.seeded {s s' : PoolState} {aDesired bDesired : ℕ} {t : DepositTerms}
    (h : t.Sound s aDesired bDesired) (hs : s.Valid) (hstep : PoolState.Step .deposit s s')
    (hA : s'.reserveA = s.reserveA + t.amountA) : s'.Seeded := by
  rcases hs with hu | hseed
  · refine (hstep.unseeded hu).resolve_left fun hu' => ?_
    have hzero := hA.symm.trans hu'.reserveA
    cases h with
    | first _ hq => exact hq.amountA_pos.ne' (Nat.add_eq_zero_iff.mp hzero).2
    | later hs' => exact hu.not_seeded hs'
  · exact hstep.seeded hseed

/-- After the calls of a deposit nothing can fail. -/
theorem add_settles {w : World} {ctx : LiquidityAccounts} {a : LiquidityAccounts.Loaded}
    {aDesired bDesired : ℕ} {t : DepositTerms} {l₁ l₂ l₃ l₄ : Ledger} (hs : w.Shape)
    (hP : (a.pool.state w.ledger).Valid) (hv : ctx.Valid w a)
    (ht : t.Sound (a.pool.state w.ledger) aDesired bDesired)
    (hA : Transferred w.ledger ⟨ctx.userA, ctx.mintA, ctx.vaultA, ctx.user⟩ ctx.user t.amountA l₁)
    (hB : Transferred l₁ ⟨ctx.userB, ctx.mintB, ctx.vaultB, ctx.user⟩ ctx.user t.amountB l₂)
    (hlock : ctx.Locked t.lpToLock l₂ l₃)
    (hmint : Minted l₃ ⟨ctx.lpMint, ctx.userLp, ctx.pool⟩ ctx.pool t.lpToUser l₄) :
    (do
      let vaultA ← invoke (l₄.token ctx.vaultA)
      let vaultB ← invoke (l₄.token ctx.vaultB)
      let lpMint ← invoke (l₄.mint ctx.lpMint)
      let lockedLp ← invoke (l₄.token ctx.lockedLp)
      ensure (lpMint.supply = a.lpMint.supply + t.lpToUser + t.lpToLock) .lpSupplyInvariant
      ensureSolvent { a.pool with reserveA := a.pool.reserveA + t.amountA,
                                  reserveB := a.pool.reserveB + t.amountB }
        vaultA.amount vaultB.amount
      ensureSeeded { a.pool with reserveA := a.pool.reserveA + t.amountA,
                                 reserveB := a.pool.reserveB + t.amountB }
        (a.lpMint.supply + t.lpToUser + t.lpToLock) lockedLp.amount
      pure ({ w with ledger := l₄ }.setPool ctx.pool
        { a.pool with reserveA := a.pool.reserveA + t.amountA,
                      reserveB := a.pool.reserveB + t.amountB }) :
        Except (ProgramError AmmError) World) =
      .ok ({ w with ledger := l₄ }.setPool ctx.pool
        { a.pool with reserveA := a.pool.reserveA + t.amountA,
                      reserveB := a.pool.reserveB + t.amountB }) := by
  have hstate := add_state hs hv hA hB hlock hmint
  have hafter := ht.seeded hP (hstate ▸ ht.step) rfl
  have hskel := hmint.skeleton.trans (hlock.moved.skeleton.trans (hB.skeleton.trans hA.skeleton))
  have hexp : a.lpMint.supply + t.lpToUser + t.lpToLock = _ :=
    (congrArg (· + t.lpToUser + t.lpToLock) hv.lpMint_supply).trans
      (congrArg PoolState.lpSupply hstate).symm
  have hL : l₄.supply ctx.lpMint = a.lpMint.supply + t.lpToUser + t.lpToLock :=
    (congrArg l₄.supply hv.lpMint_eq.symm).trans hexp.symm
  rw [invoke_token hskel hv.vaultA, ok_bind, invoke_token hskel hv.vaultB, ok_bind,
    invoke_mint hskel hv.lpMint, ok_bind, invoke_token hskel hv.lockedLp, ok_bind, ensure,
    require_of hL, ok_bind, ensureSolvent_of (.inr hafter) (congrArg l₄.balance hv.vaultA_eq.symm)
      (congrArg l₄.balance hv.vaultB_eq.symm), ok_bind,
    ensureSeeded_of hafter hexp (congrArg l₄.balance hv.lockedLp_eq.symm), ok_bind]
  rfl

theorem addLiquidity_sat {w : World} (hs : w.Shape) (hp : w.PoolsValid)
    (ctx : LiquidityAccounts) (aDesired bDesired aMin bMin minLpOut : ℕ) :
    Sat (addLiquidity w ctx aDesired bDesired aMin bMin minLpOut)
      (fun w' => ∃ a t l₁ l₂ l₃ l₄, ctx.AddEffect w aDesired bDesired a t l₁ l₂ l₃ l₄ w')
      (ctx.AddError w aDesired bDesired) := by
  have hE : ∀ e, Refusal e → ctx.AddError w aDesired bDesired e := fun _ h => .inl h
  refine ((ctx.validate_sat w).weaken hE).bind fun a hv => ?_
  have hP := hp _ _ hv.pool
  refine .require (fun _ => hE _ trivial) fun hpos => ?_
  refine ((ensureUnpaused_sat a.toLoaded).weaken hE).bind fun _ hunp => ?_
  refine ((ensureChildren_sat _ a.toLoaded).weaken hE).bind fun _ _ => ?_
  refine ((ensureLockedAccount_sat ctx a).weaken hE).bind fun _ _ => ?_
  refine .step (ensureSolvent_of hP hv.vaultA_amount hv.vaultB_amount) ?_
  refine ((depositTerms_sat hP hv.lpMint_supply hv.lockedLp_amount aDesired bDesired).weaken
    ?_).bind fun t ht => ?_
  · rintro e (h | h)
    · exact .inl h
    · exact .inr ⟨hv.signer, a.pool, hv.pool, h⟩
  refine .require (fun _ => hE _ trivial) fun _ => ?_
  obtain ⟨hca, hcb, hcl⟩ := ht.bounds
  have hcap : maxSupplyCap < 2 ^ 64 := by decide
  have hlp := hv.lpMint_supply
  refine .okOr_some (checkedAdd_eq_some.mpr ⟨hca.trans_lt hcap, rfl⟩) ?_
  refine .okOr_some (checkedAdd_eq_some.mpr ⟨hcb.trans_lt hcap, rfl⟩) ?_
  refine .okOr_some (checkedAdd_eq_some.mpr ⟨by rw [hlp]; omega, rfl⟩) ?_
  refine .okOr_some (checkedAdd_eq_some.mpr ⟨by rw [hlp]; omega, rfl⟩) ?_
  refine Sat.bind (.mapError (fun l hl => token2022.transferred hl) fun _ _ => hE _ trivial) ?_
  intro l₁ hpaidA
  refine Sat.bind (.mapError (fun l hl => token2022.transferred hl) fun _ _ => hE _ trivial) ?_
  intro l₂ hpaidB
  refine Sat.bind (.mapError (fun l hl => mintLocked_ok hv.pool_key hl) fun _ _ => hE _ trivial) ?_
  intro l₃ hlock
  refine Sat.bind (.mapError (fun l hl => token2022.minted hl) fun _ _ => hE _ trivial) ?_
  intro l₄ hmint
  rw [← hv.pool_key] at hmint
  have hstep : PoolState.Step .deposit (a.pool.state w.ledger) _ :=
    add_state hs hv hpaidA hpaidB hlock hmint ▸ ht.step
  exact .of_ok (add_settles hs hP hv ht hpaidA hpaidB hlock hmint)
    ⟨a, t, l₁, l₂, l₃, l₄, hv, hunp, ht, hpaidA, hpaidB, hlock, hmint, hstep, rfl⟩

end StablecoinAmm
