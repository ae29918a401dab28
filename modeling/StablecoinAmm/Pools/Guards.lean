import StablecoinAmm.Pools.Value

/-!
# Pools — which checks can fail

A handler of the AMM checks the pool before and after its calls.  In a reachable world most of
these checks pass whatever the caller does: `Action.Error` lists the errors that remain.

* `pool_never_bricks`: a pool is empty or in order and, once seeded, stays so; no instruction
  ever finds a vault, the LP supply or the product wrong, none finds a seeded pool invalid, and
  no withdrawal of what the caller holds is refused for lack of liquidity.
* `funded_in_range`: a caller who has what it offers never meets a limit of the arithmetic: what
  is in the vaults and what it holds were both issued, and no more is issued than the cap.
-/

namespace StablecoinAmm
open Support Ledger

section
variable {w w' : World} {p : Pubkey} {P : Pool}

/-- Only the pool instructions fail with an error about a pool's numbers. -/
theorem Action.Error.amm {e : ProgramError AmmError} : ∀ {a : Action}, a.Error w (.amm e) →
    Refusal e ∨
      (∃ ctx x y xMin yMin lpMin, a = .addLiquidity ctx x y xMin yMin lpMin ∧
        ctx.AddError w x y e) ∨
      (∃ ctx n xMin yMin, a = .removeLiquidity ctx n xMin yMin ∧ ctx.RemoveError w n e) ∨
      ∃ ctx d x yMin, a = .swap ctx d x yMin ∧ ctx.SwapError w d x e
  | .addLiquidity .., ⟨_, rfl, h⟩ => .inr (.inl ⟨_, _, _, _, _, _, rfl, h⟩)
  | .removeLiquidity .., ⟨_, rfl, h⟩ => .inr (.inr (.inl ⟨_, _, _, _, rfl, h⟩))
  | .swap .., ⟨_, rfl, h⟩ => .inr (.inr (.inr ⟨_, _, _, _, rfl, h⟩))
  | .initializePool .., ⟨_, rfl, h⟩ => .inl h
  | .mintTo .., ⟨_, h, _⟩ | .burn .., ⟨_, h, _⟩ | .updateConfig .., ⟨_, h, _⟩
  | .setPause .., ⟨_, h, _⟩ => nomatch h
  | .initializeStablecoin .., ⟨_, h⟩ | .grantMinter .., ⟨_, h⟩ | .revokeMinter .., ⟨_, h⟩
  | .setWalletPolicy .., ⟨_, h⟩ | .acceptAdmin .., ⟨_, h⟩ | .createAccount .., ⟨_, h⟩
  | .transfer .., ⟨_, h⟩ | .burnDirect .., ⟨_, h⟩ | .setOwner .., ⟨_, h⟩
  | .closeAccount .., ⟨_, h⟩ => nomatch h

theorem Refusal.custom_ne {e e' : AmmError} (h : Refusal (.custom e))
    (h' : ¬ Refusal (.custom e')) : e ≠ e' := by
  rintro rfl
  exact h' h

/-- No step finds a vault short, the LP supply off or the product fallen. -/
theorem step_guards (hw : w.Inv) {a : Action} {e : AmmError}
    (h : step w a = .error (.amm (.custom e))) :
    e ≠ .vaultBalanceInvariant ∧ e ≠ .lpSupplyInvariant ∧ e ≠ .constantProductViolation := by
  rcases ((step_sat hw a).error h).amm with
    hr | ⟨_, _, _, _, _, _, -, hr | ⟨-, _, -, -, he⟩⟩ |
      ⟨_, _, _, _, -, hr | ⟨-, _, -, ⟨-, he⟩ | ⟨-, he | he⟩⟩⟩ |
      ⟨_, _, _, _, -, hr | ⟨-, _, -, ⟨-, he⟩ | ⟨-, he⟩⟩⟩
  all_goals first
    | (cases he; exact ⟨nofun, nofun, nofun⟩)
    | exact ⟨hr.custom_ne id, hr.custom_ne id, hr.custom_ne id⟩

/-- No instruction on a seeded pool finds it invalid. -/
theorem step_seeded_valid (hw : w.Inv) (hP : w.pools p = some P)
    (hseed : (P.state w.ledger).Seeded) {a : Action} (ha : a.eventOn p ≠ .outside) :
    step w a ≠ .error (.amm (.custom .invalidLiquidityState)) := by
  intro h
  rcases ((step_sat hw a).error h).amm with
    hr | ⟨_, _, _, _, _, _, -, hr | ⟨-, _, -, -, he⟩⟩ |
      ⟨ctx, _, _, _, rfl, hr | ⟨-, Q, hQ, ⟨hns, -⟩ | ⟨-, he | he⟩⟩⟩ |
      ⟨_, _, _, _, -, hr | ⟨-, _, -, ⟨-, he⟩ | ⟨-, he⟩⟩⟩
  · exact hr
  · exact hr
  · cases he
  · exact hr
  · -- the pool it is called on is this one
    have hp : ctx.pool = p := by by_contra hne; simp [Action.eventOn, hne] at ha
    rw [hp, hP] at hQ
    cases hQ
    exact hns hseed
  · cases he
  · cases he
  · exact hr
  · cases he
  · cases he

/-- A user's LP tokens are not the locked ones. -/
theorem holdings_add_locked_le (hw : w.Inv) (hP : w.pools p = some P) {user : Pubkey}
    (hu : user.isSigner) :
    w.ledger.holdings user P.lpMint + w.ledger.balance P.lockedLp ≤ w.ledger.supply P.lpMint := by
  rw [Nat.add_comm]
  exact hw.conserved.balance_add_holdings_le (hw.shape.pool p P hP).lockedLp
    (hw.shape.signer_ne hP hu).symm

/-- Nobody is refused what it holds. -/
theorem remove_held (hw : w.Inv) {ctx : LiquidityAccounts} (hP : w.pools ctx.pool = some P)
    {n aMin bMin : ℕ} (hn : n ≤ w.ledger.holdings ctx.user P.lpMint) {e : AmmError}
    (h : step w (.removeLiquidity ctx n aMin bMin) = .error (.amm (.custom e))) :
    e ≠ .lockedLiquidityInvariant ∧ e ≠ .insufficientLiquidity := by
  obtain ⟨_, ⟨⟩, hr | ⟨hu, Q, hQ, ⟨-, he⟩ | ⟨hlt, -⟩⟩⟩ := (step_sat hw _).error h
  · exact ⟨hr.custom_ne id, hr.custom_ne id⟩
  · cases he
    exact ⟨nofun, nofun⟩
  · rw [hP] at hQ
    cases hQ
    have hle := holdings_add_locked_le hw hP hu
    simp only [Pool.state] at hlt
    omega

/-- **A pool never bricks.** -/
theorem pool_never_bricks (hw : w.Reachable) :
    (∀ p P, w.pools p = some P → (P.state w.ledger).Unseeded ∨
      (P.state w.ledger).Seeded ∧ w.ledger.supply P.lpMint ≤ maxSupplyCap) ∧
    (∀ as w', Run step w as w' → ∀ p P, w.pools p = some P →
      ∃ P', w'.pools p = some P' ∧ P'.erase = P.erase ∧
        ((P.state w.ledger).Seeded → (P'.state w'.ledger).Seeded) ∧
        w.ledger.balance P.lockedLp ≤ w'.ledger.balance P'.lockedLp) ∧
    (∀ a e, step w a = .error (.amm (.custom e)) → e ≠ .vaultBalanceInvariant ∧
      e ≠ .lpSupplyInvariant ∧ e ≠ .constantProductViolation) ∧
    (∀ p P a, w.pools p = some P → (P.state w.ledger).Seeded → a.eventOn p ≠ .outside →
      step w a ≠ .error (.amm (.custom .invalidLiquidityState))) ∧
    (∀ ctx P n aMin bMin e, w.pools ctx.pool = some P →
      n ≤ w.ledger.holdings ctx.user P.lpMint →
      step w (.removeLiquidity ctx n aMin bMin) = .error (.amm (.custom e)) →
      e ≠ .lockedLiquidityInvariant ∧ e ≠ .insufficientLiquidity) := by
  have hi := hw.inv
  refine ⟨fun p P hP => ?_, fun as w' t p P hP => ?_, fun a e h => step_guards hi h,
    fun p P a hP hs ha => step_seeded_valid hi hP hs ha,
    fun ctx P n aMin bMin e hP hn h => remove_held hi hP hn h⟩
  · rcases hi.pools p P hP with hu | hs
    · exact .inl hu
    · exact .inr ⟨hs, hs.lpSupply_le⟩
  · obtain ⟨P', hP', he, hs⟩ := run_refines hi hP t
    exact ⟨P', hP', he, hs.seeded, hs.lockedLp_le⟩

/-- After a swap and a burn of LP tokens the lopsided pool is still in order; before them the
user's one LP token is worth too little to withdraw, which is what stops it. -/
theorem pool_never_bricks_lopsided :
    (∃ w' P', Run step lopsided lopsidedTrades w' ∧ w'.pools Lopsided.pool = some P' ∧
      (P'.state w'.ledger).Seeded) ∧
    step lopsided (.removeLiquidity Lopsided.accounts 1 0 0) =
      .error (.amm (.custom .zeroOutput)) := by
  have hrun : Run step lopsided lopsidedTrades (lopsided.afterAll lopsidedTrades) :=
    run_afterAll (by decide +kernel)
  obtain ⟨P', hP', -, hs, -⟩ :=
    (pool_never_bricks lopsided_reachable).2.1 _ _ hrun _ _ lopsided_pool
  refine ⟨⟨_, P', hrun, hP', hs lopsided_seeded⟩, ?_⟩
  rw [← failure_eq_some]
  decide +kernel

/-! ### Limits of the arithmetic -/

/-- The mint a swap takes. -/
def Pool.mintIn (P : Pool) : SwapDirection → Pubkey
  | .aToB => P.mintA
  | .bToA => P.mintB

/-- A mint that has an account of the symbol family is issued within its cap. -/
theorem supply_le_maxSupplyCap (hw : w.Inv) {k m o : Pubkey} (hk : w.ledger.HasAccount k m o)
    (hm : ∃ s, m = .mint s) : w.ledger.supply m ≤ maxSupplyCap := by
  obtain ⟨a, ha, rfl, -⟩ := hk
  obtain ⟨M, hM⟩ := hw.shape.token k a ha
  rcases hw.shape.mint _ M hM with ⟨-, c, hc⟩ | ⟨p, P, hp, -⟩
  · have hacc := hw.accounted _ c hc
    rw [← hw.shape.config_mint hc]
    exact hacc.supply_le.trans hacc.supplyCap_le
  · obtain ⟨s, hs⟩ := hm
    rw [hs] at hp
    cases hp

/-- A reserve and what a user holds of its mint were both issued. -/
theorem reserves_add_holdings_le (hw : w.Inv) (hP : w.pools p = some P) {user : Pubkey}
    (hu : user.isSigner) :
    P.reserveA + w.ledger.holdings user P.mintA ≤ maxSupplyCap ∧
      P.reserveB + w.ledger.holdings user P.mintB ≤ maxSupplyCap := by
  have hs := hw.shape.pool p P hP
  have hne := (hw.shape.signer_ne hP hu).symm
  obtain ⟨hvA, hvB⟩ := (hw.pools p P hP).vaults
  constructor
  · calc P.reserveA + w.ledger.holdings user P.mintA
        ≤ w.ledger.balance P.vaultA + w.ledger.holdings user P.mintA :=
          Nat.add_le_add_right hvA _
      _ ≤ w.ledger.supply P.mintA := hw.conserved.balance_add_holdings_le hs.vaultA hne
      _ ≤ maxSupplyCap := supply_le_maxSupplyCap hw hs.vaultA hs.placed.mintA
  · calc P.reserveB + w.ledger.holdings user P.mintB
        ≤ w.ledger.balance P.vaultB + w.ledger.holdings user P.mintB :=
          Nat.add_le_add_right hvB _
      _ ≤ w.ledger.supply P.mintB := hw.conserved.balance_add_holdings_le hs.vaultB hne
      _ ≤ maxSupplyCap := supply_le_maxSupplyCap hw hs.vaultB hs.placed.mintB

/-- An error of the arithmetic: an amount out of range, or an operation that overflows. -/
def AmmError.IsRange (e : AmmError) : Prop := e = .valueOutOfRange ∨ e = .mathOverflow

theorem Refusal.not_range {e : AmmError} (h : Refusal (.custom e)) : ¬ e.IsRange := by
  rintro (he | he)
  · exact h.custom_ne id he
  · exact h.custom_ne id he

theorem swap_in_range (hw : w.Inv) {ctx : PoolAccounts} (hP : w.pools ctx.pool = some P)
    {d : SwapDirection} {x yMin : ℕ} (hx : x ≤ w.ledger.holdings ctx.user (P.mintIn d))
    {e : AmmError} (h : step w (.swap ctx d x yMin) = .error (.amm (.custom e))) :
    ¬ e.IsRange := by
  obtain ⟨_, ⟨⟩, hr | ⟨hu, Q, hQ, ⟨-, he⟩ | ⟨hlt, -⟩⟩⟩ := (step_sat hw _).error h
  · exact hr.not_range
  · cases he
    rintro (he | he) <;> cases he
  · rw [hP] at hQ
    cases hQ
    obtain ⟨hA, hB⟩ := reserves_add_holdings_le hw hP hu
    cases d <;> simp only [Pool.reserves, Pool.mintIn] at hlt hx <;> omega

theorem add_in_range (hw : w.Inv) {ctx : LiquidityAccounts} (hP : w.pools ctx.pool = some P)
    {x y xMin yMin lpMin : ℕ} (hx : x ≤ w.ledger.holdings ctx.user P.mintA)
    (hy : y ≤ w.ledger.holdings ctx.user P.mintB) {e : AmmError}
    (h : step w (.addLiquidity ctx x y xMin yMin lpMin) = .error (.amm (.custom e))) :
    ¬ e.IsRange := by
  obtain ⟨_, ⟨⟩, hr | ⟨hu, Q, hQ, hlt, -⟩⟩ := (step_sat hw _).error h
  · exact hr.not_range
  · rw [hP] at hQ
    cases hQ
    obtain ⟨hA, hB⟩ := reserves_add_holdings_le hw hP hu
    omega

theorem remove_in_range (hw : w.Inv) {ctx : LiquidityAccounts} {n xMin yMin : ℕ} {e : AmmError}
    (h : step w (.removeLiquidity ctx n xMin yMin) = .error (.amm (.custom e))) :
    ¬ e.IsRange := by
  obtain ⟨_, ⟨⟩, hr | ⟨-, _, -, ⟨-, he⟩ | ⟨-, he | he⟩⟩⟩ := (step_sat hw _).error h
  · exact hr.not_range
  all_goals
    cases he
    rintro (he | he) <;> cases he

/-- **Range limits never block a funded user.** -/
theorem funded_in_range (hw : w.Reachable) (e : AmmError) :
    (∀ ctx P d x yMin, w.pools ctx.pool = some P →
      x ≤ w.ledger.holdings ctx.user (P.mintIn d) →
      step w (.swap ctx d x yMin) = .error (.amm (.custom e)) → ¬ e.IsRange) ∧
    (∀ ctx P x y xMin yMin lpMin, w.pools ctx.pool = some P →
      x ≤ w.ledger.holdings ctx.user P.mintA → y ≤ w.ledger.holdings ctx.user P.mintB →
      step w (.addLiquidity ctx x y xMin yMin lpMin) = .error (.amm (.custom e)) →
      ¬ e.IsRange) ∧
    (∀ ctx P n xMin yMin, w.pools ctx.pool = some P →
      n ≤ w.ledger.holdings ctx.user P.lpMint →
      step w (.removeLiquidity ctx n xMin yMin) = .error (.amm (.custom e)) → ¬ e.IsRange) :=
  ⟨fun _ _ _ _ _ hP hx h => swap_in_range hw.inv hP hx h,
    fun _ _ _ _ _ _ _ hP hx hy h => add_in_range hw.inv hP hx hy h,
    fun _ _ _ _ _ _ _ h => remove_in_range hw.inv h⟩

end

/-- The user is refused a swap of what it holds for its price, and one of what it does not hold
for the limit. -/
theorem funded_in_range_lopsided :
    (∃ e, step lopsided (.swap Lopsided.accounts.toPoolAccounts .aToB 999 1002001) =
      .error (.amm (.custom e)) ∧ ¬ e.IsRange) ∧
    ∃ e, step lopsided (.swap Lopsided.accounts.toPoolAccounts .aToB maxSupplyCap 0) =
      .error (.amm (.custom e)) ∧ e.IsRange := by
  have hslip : step lopsided (.swap Lopsided.accounts.toPoolAccounts .aToB 999 1002001) =
      .error (.amm (.custom .slippageExceeded)) := by
    rw [← failure_eq_some]
    decide +kernel
  have hlimit : step lopsided (.swap Lopsided.accounts.toPoolAccounts .aToB maxSupplyCap 0) =
      .error (.amm (.custom .valueOutOfRange)) := by
    rw [← failure_eq_some]
    decide +kernel
  have hheld : 999 ≤ lopsided.ledger.holdings Lopsided.user Lopsided.mintA := by
    have h : lopsided.ledger.heldBy Lopsided.user Lopsided.mintA Lopsided.userA = 999 := by
      decide +kernel
    rw [← h]
    exact (lopsided_reachable.inv.conserved.held _ _).apply_le _
  exact ⟨⟨_, hslip, (funded_in_range lopsided_reachable _).1 _ _ _ _ _ lopsided_pool hheld hslip⟩,
    _, hlimit, .inl rfl⟩

end StablecoinAmm
