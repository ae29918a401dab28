import StablecoinAmm.Pricing.Swaps
import StablecoinAmm.System.History

/-!
# Pools — the order of swaps

Swaps in one direction push the reserves of a pool one way (`Pool.Pushed`), and a quote is
monotone in the reserves.  So swaps that come before a trader's can only cost the trader if they
go the same way, and can only help if they go the other way; in that case they never run the
trader into the slippage limit (`swap_ordering`).
-/

namespace StablecoinAmm
open Support Ledger Amm

def SwapDirection.opposite : SwapDirection → SwapDirection
  | .aToB => .bToA
  | .bToA => .aToB

theorem Pool.reserves_opposite (P : Pool) (d : SwapDirection) :
    P.reserves d.opposite = (P.reserves d).swap := by
  cases d <;> rfl

/-! ### The quote of a successful swap -/

/-- What a swap that leads from `w` to `w'` pays its user. -/
def PoolAccounts.paid (ctx : PoolAccounts) (d : SwapDirection) (w w' : World) : ℕ :=
  w'.ledger.balance (ctx.transferOut d).destination -
    w.ledger.balance (ctx.transferOut d).destination

section
variable {w w' : World} {ctx : PoolAccounts} {d : SwapDirection} {amountIn minAmountOut : ℕ}

/-- The quote behind a swap, and its slippage check. -/
theorem swap_quote (h : swap w ctx d amountIn minAmountOut = .ok w') :
    ∃ P q l₁ l₂, w.pools ctx.pool = some P ∧
      quoteSwap amountIn (P.reserves d).1 (P.reserves d).2 P.feeBps = .ok q ∧
      minAmountOut ≤ q.amountOut ∧
      w.ledger.transferChecked (ctx.transferIn d) ctx.user amountIn P.decimals = .ok l₁ ∧
      l₁.transferChecked (ctx.transferOut d) (.pool P.mintA P.mintB) q.amountOut P.decimals =
        .ok l₂ ∧
      w'.ledger = l₂ := by
  simp only [swap, bind_ok_iff, ensure, require_ok_iff, quoted, invoke, mapError_ok_iff,
    pure_ok_iff] at h
  obtain ⟨a, ha, -, -, -, -, -, -, -, -, -, -, q, hq, -, hmin, l₁, hin, l₂, hout, -, -, -, -, -,
    -, -, -, -, -, rfl⟩ := h
  exact ⟨a.pool, q, l₁, l₂, ((ctx.validate_sat w).ok ha).pool, hq, hmin, hin, hout, rfl⟩

/-- The user's two accounts differ, because the stablecoins do. -/
theorem PoolAccounts.Valid.userA_ne {a : PoolAccounts.Loaded} (hv : ctx.Valid w a)
    (hs : w.Shape) : ctx.userA ≠ ctx.userB := by
  have hne := (hs.pool _ _ hv.pool).placed.mints_ne
  rw [hv.mintA_eq, hv.mintB_eq] at hne
  exact hv.userA.ne_of_mint hv.userB hne

/-- The user is paid what was quoted. -/
theorem swap_pays (hw : w.Inv) (h : swap w ctx d amountIn minAmountOut = .ok w') :
    ∃ P q, w.pools ctx.pool = some P ∧
      quoteSwap amountIn (P.reserves d).1 (P.reserves d).2 P.feeBps = .ok q ∧
      minAmountOut ≤ q.amountOut ∧ ctx.paid d w w' = q.amountOut := by
  obtain ⟨P, q, l₁, l₂, hP, hq, hmin, hin, hout, hl⟩ := swap_quote h
  refine ⟨P, q, hP, hq, hmin, ?_⟩
  obtain ⟨a, _, _, _, heff⟩ := (swap_sat hw.shape hw.pools ctx d amountIn minAmountOut).ok h
  have hap := heff.valid.apart hw.shape
  have hne := heff.valid.userA_ne hw.shape
  have hin := token2022.transferred hin
  have hout := token2022.transferred hout
  have hpaid : l₂.balance (ctx.transferOut d).destination =
      w.ledger.balance (ctx.transferOut d).destination + q.amountOut := by
    cases d with
    | aToB =>
        have hkept : l₁.balance ctx.userB = w.ledger.balance ctx.userB :=
          hin.elsewhere hne.symm hap.vaultA_userB.symm
        exact hkept ▸ hout.at_destination hap.vaultB_userB.symm
    | bToA =>
        have hkept : l₁.balance ctx.userA = w.ledger.balance ctx.userA :=
          hin.elsewhere hne hap.vaultB_userA.symm
        exact hkept ▸ hout.at_destination hap.vaultA_userA.symm
  rw [PoolAccounts.paid, hl, hpaid, Nat.add_sub_cancel_left]

end

/-! ### The slippage check -/

theorem ofMath_ne (e : MathError) : AmmError.ofMath e ≠ .slippageExceeded := by
  cases e <;> exact nofun

theorem PoolAccounts.validate_ne_slippage (w : World) (ctx : PoolAccounts) :
    ctx.validate w ≠ .error (.custom .slippageExceeded) := by
  simp [validate, PoolAccounts.load, StablecoinAmm.load, requirePool, requireConfig,
    requireUserAccount, requirePolicy, requireSeeds, requireHasOne, requireSigner, ensure,
    bind_error_iff, okOr_error_iff, pure, Except.pure]

/-- The slippage error is that of the quote. -/
theorem swap_slippage {w : World} {ctx : PoolAccounts} {d : SwapDirection}
    {amountIn minAmountOut : ℕ}
    (h : swap w ctx d amountIn minAmountOut = .error (.custom .slippageExceeded)) :
    ∃ P q, w.pools ctx.pool = some P ∧
      quoteSwap amountIn (P.reserves d).1 (P.reserves d).2 P.feeBps = .ok q ∧
      q.amountOut < minAmountOut := by
  simp only [swap, bind_error_iff, ctx.validate_ne_slippage w, false_or] at h
  obtain ⟨a, ha, h⟩ := h
  -- no other step of the handler has this error
  simp only [ensure, ensureUnpaused, ensureChildren, ensureSolvent, quoted, invoke, bind_error_iff,
    bind_ok_iff, require_error_iff, require_ok_iff, okOr_error_iff, okOr_ok_iff,
    mapError_error_iff, mapError_ok_iff, ProgramError.custom.injEq, reduceCtorEq, ofMath_ne,
    and_false, exists_false, exists_const, or_self, or_false, false_or, and_true, pure,
    Except.pure, exists_and_right, not_le, ge_iff_le] at h
  obtain ⟨-, -, -, -, -, q, hq, hlt⟩ := h
  exact ⟨a.pool, q, ((ctx.validate_sat w).ok ha).pool, hq, hlt⟩

/-! ### Pushing a pool -/

/-- From `P` to `P'` the pool was pushed in direction `d`, or left. -/
structure Pool.Pushed (d : SwapDirection) (P P' : Pool) : Prop where
  reserveIn : (P.reserves d).1 ≤ (P'.reserves d).1
  reserveOut : (P'.reserves d).2 ≤ (P.reserves d).2
  feeBps : P'.feeBps = P.feeBps

namespace Pool.Pushed

variable {d : SwapDirection} {P P₁ P' : Pool}

theorem refl (d : SwapDirection) (P : Pool) : Pushed d P P := ⟨le_rfl, le_rfl, rfl⟩

theorem trans (h : Pushed d P P₁) (h' : Pushed d P₁ P') : Pushed d P P' :=
  ⟨h.reserveIn.trans h'.reserveIn, h'.reserveOut.trans h.reserveOut, h'.feeBps.trans h.feeBps⟩

theorem of_swap {q : SwapQuote} {x : ℕ} (h : q.Sound x (P.reserves d).1 (P.reserves d).2) :
    Pushed d P (P.afterSwap q d) := by
  have hin : (P.reserves d).1 ≤ q.newReserveIn := h.newReserveIn ▸ Nat.le_add_right _ _
  have hout : q.newReserveOut ≤ (P.reserves d).2 := h.newReserveOut ▸ Nat.le_add_right _ _
  cases d with
  | aToB => exact ⟨hin, hout, rfl⟩
  | bToA => exact ⟨hin, hout, rfl⟩

/-- A push in one direction is a pull in the other. -/
theorem opposite (h : Pushed d.opposite P P') :
    (P'.reserves d).1 ≤ (P.reserves d).1 ∧ (P.reserves d).2 ≤ (P'.reserves d).2 := by
  have hin := h.reserveIn
  have hout := h.reserveOut
  rw [P.reserves_opposite, P'.reserves_opposite] at hin hout
  exact ⟨hout, hin⟩

end Pool.Pushed

/-- Seen from the pool `p`, the action is a swap in direction `d` or happens outside of it. -/
def Action.Pushes (p : Pubkey) (d : SwapDirection) (a : Action) : Prop :=
  a.eventOn p = .outside ∨ ∃ ctx amountIn minAmountOut, a = .swap ctx d amountIn minAmountOut

section
variable {w w' : World} {p : Pubkey} {P : Pool} {d : SwapDirection}

theorem Action.Effect.pushed (hP : w.pools p = some P) {a : Action} (ha : a.Pushes p d)
    (h : a.Effect w w') : ∃ P', w'.pools p = some P' ∧ P.Pushed d P' := by
  by_cases he : a.eventOn p = .outside
  · exact ⟨P, h.pool_kept hP he, .refl d P⟩
  · rcases ha with ho | ⟨ctx, x, m, rfl⟩
    · exact absurd ho he
    · obtain ⟨a, q, l₁, l₂, h⟩ := h
      have hp : ctx.pool = p := by
        by_contra hne
        exact he (if_neg hne)
      subst hp
      obtain rfl := Option.some.inj (hP.symm.trans h.valid.pool)
      rw [h.result]
      exact ⟨_, World.setPool_pools_self .., .of_swap h.sound⟩

theorem run_pushed {as : List Action} (hw : w.Inv) (hP : w.pools p = some P)
    (has : ∀ a ∈ as, a.Pushes p d) (t : Run step w as w') :
    ∃ P', w'.pools p = some P' ∧ P.Pushed d P' := by
  induction t generalizing P with
  | refl => exact ⟨P, hP, .refl d P⟩
  | more h _ ih =>
      have heff := step_effect hw h
      obtain ⟨P₁, hP₁, hpush⟩ := heff.pushed hP (has _ List.mem_cons_self)
      obtain ⟨P', hP', hpush'⟩ := ih (heff.inv hw) hP₁ fun a ha => has a (List.mem_cons_of_mem _ ha)
      exact ⟨P', hP', hpush.trans hpush'⟩

end

/-! ### The order of swaps -/

/-- **The quote is monotone.** -/
theorem quoteSwap_mono {x x' i i' o o' f f' : ℕ} {q q' : SwapQuote} (hx : x ≤ x') (hi : i' ≤ i)
    (ho : o ≤ o') (hf : f' ≤ f) (h : quoteSwap x i o f = .ok q)
    (h' : quoteSwap x' i' o' f' = .ok q') : q.amountOut ≤ q'.amountOut := by
  obtain ⟨-, rfl⟩ := quoteSwap_ok_iff.mp h
  obtain ⟨ha', rfl⟩ := quoteSwap_ok_iff.mp h'
  exact swapOut_mono hx hi ha'.reserveIn_pos ho hf

section
variable {w w' w₁ w₂ : World} {ctx : PoolAccounts} {d : SwapDirection} {as : List Action}
  {amountIn minAmountOut : ℕ}

/-- Swaps in the trader's direction do not raise what the trader is paid. -/
theorem paid_le_of_pushed (hw : w.Inv) (t : Run step w as w')
    (has : ∀ a ∈ as, a.Pushes ctx.pool d)
    (h₁ : swap w ctx d amountIn minAmountOut = .ok w₁)
    (h₂ : swap w' ctx d amountIn minAmountOut = .ok w₂) : ctx.paid d w' w₂ ≤ ctx.paid d w w₁ := by
  obtain ⟨P, q, hP, hq, -, hpaid⟩ := swap_pays hw h₁
  obtain ⟨P', q', hP', hq', -, hpaid'⟩ := swap_pays (t.invariant step_inv hw) h₂
  obtain ⟨P'', hP'', hpush⟩ := run_pushed hw hP has t
  obtain rfl := Option.some.inj (hP''.symm.trans hP')
  rw [hpaid, hpaid']
  exact quoteSwap_mono le_rfl hpush.reserveIn hpush.reserveOut hpush.feeBps.ge hq' hq

/-- After swaps in the other direction there is still a quote, and it is no smaller. -/
theorem quote_of_pulled (hw : w.Inv) (t : Run step w as w')
    (has : ∀ a ∈ as, a.Pushes ctx.pool d.opposite)
    {P : Pool} {q : SwapQuote} (hP : w.pools ctx.pool = some P)
    (hq : quoteSwap amountIn (P.reserves d).1 (P.reserves d).2 P.feeBps = .ok q) :
    ∃ P' q', w'.pools ctx.pool = some P' ∧
      quoteSwap amountIn (P'.reserves d).1 (P'.reserves d).2 P'.feeBps = .ok q' ∧
      q.amountOut ≤ q'.amountOut := by
  obtain ⟨P', hP', hpush⟩ := run_pushed hw hP has t
  obtain ⟨hin, hout⟩ := hpush.opposite
  obtain ⟨ha, rfl⟩ := quoteSwap_ok_iff.mp hq
  have hvalid := (t.invariant step_inv hw).pools _ _ hP'
  have hpos : 0 < (P'.reserves d).1 := by
    rcases hvalid with hu | hs
    · -- the pool had something to pay out, so it is not empty
      have hzero : (P'.reserves d).2 = 0 := by
        cases d with
        | aToB => exact hu.reserveB
        | bToA => exact hu.reserveA
      exact absurd (ha.reserveOut_pos.trans hout) (by omega)
    · exact (Pool.reserves_pos hs d).1
  have hmono := swapOut_mono (x := amountIn) le_rfl hin hpos hout hpush.feeBps.le
  have hpays := (swapOut_ne_zero_iff ha.reserveIn_pos).mpr ha.pays
  refine ⟨P', _, hP', quoteSwap_ok_iff.mpr ⟨?_, rfl⟩, hmono⟩
  obtain ⟨hcapIn, hcapOut⟩ := Pool.reserves_le hvalid d
  exact
    { ha with
      reserveIn_pos := hpos
      reserveIn_le := hcapIn
      reserveOut_pos := ha.reserveOut_pos.trans hout
      reserveOut_le := hcapOut
      feeBps_le := hpush.feeBps ▸ ha.feeBps_le
      newReserveIn_le := (Nat.add_le_add_right hin _).trans ha.newReserveIn_le
      pays := (swapOut_ne_zero_iff hpos).mp (by omega) }

/-- Swaps in the other direction do not lower it. -/
theorem le_paid_of_pulled (hw : w.Inv) (t : Run step w as w')
    (has : ∀ a ∈ as, a.Pushes ctx.pool d.opposite)
    (h₁ : swap w ctx d amountIn minAmountOut = .ok w₁)
    (h₂ : swap w' ctx d amountIn minAmountOut = .ok w₂) : ctx.paid d w w₁ ≤ ctx.paid d w' w₂ := by
  obtain ⟨P, q, hP, hq, -, hpaid⟩ := swap_pays hw h₁
  obtain ⟨P', q', hP', hq', -, hpaid'⟩ := swap_pays (t.invariant step_inv hw) h₂
  obtain ⟨P'', q'', hP'', hq'', hle⟩ := quote_of_pulled hw t has hP hq
  obtain rfl := Option.some.inj (hP''.symm.trans hP')
  obtain rfl := Except.ok.inj (hq''.symm.trans hq')
  rw [hpaid, hpaid']
  exact hle

/-- Nor do they run the swap into its slippage limit. -/
theorem slippage_of_pulled (hw : w.Inv) (t : Run step w as w')
    (has : ∀ a ∈ as, a.Pushes ctx.pool d.opposite)
    (h₁ : swap w ctx d amountIn minAmountOut = .ok w₁) :
    (∃ P' q', w'.pools ctx.pool = some P' ∧
      quoteSwap amountIn (P'.reserves d).1 (P'.reserves d).2 P'.feeBps = .ok q' ∧
      minAmountOut ≤ q'.amountOut) ∧
    swap w' ctx d amountIn minAmountOut ≠ .error (.custom .slippageExceeded) := by
  obtain ⟨P, q, hP, hq, hmin, -⟩ := swap_pays hw h₁
  obtain ⟨P', q', hP', hq', hle⟩ := quote_of_pulled hw t has hP hq
  refine ⟨⟨P', q', hP', hq', hmin.trans hle⟩, fun h => ?_⟩
  obtain ⟨P'', q'', hP'', hq'', hlt⟩ := swap_slippage h
  obtain rfl := Option.some.inj (hP''.symm.trans hP')
  obtain rfl := Except.ok.inj (hq''.symm.trans hq')
  exact absurd (hmin.trans hle) (Nat.not_le.mpr hlt)

end

/-- **The order of swaps affects a trader only one way.** -/
theorem swap_ordering :
    (∀ {x x' i i' o o' f f' q q'}, x ≤ x' → i' ≤ i → o ≤ o' → f' ≤ f →
      quoteSwap x i o f = .ok q → quoteSwap x' i' o' f' = .ok q' → q.amountOut ≤ q'.amountOut) ∧
    ∀ {w w' w₁ : World} {as : List Action} {ctx : PoolAccounts} {d : SwapDirection} {x m : ℕ},
      w.Reachable → Run step w as w' → step w (.swap ctx d x m) = .ok w₁ →
      ((∀ a ∈ as, a.Pushes ctx.pool d) → ∀ w₂, step w' (.swap ctx d x m) = .ok w₂ →
        ctx.paid d w' w₂ ≤ ctx.paid d w w₁) ∧
      ((∀ a ∈ as, a.Pushes ctx.pool d.opposite) →
        (∀ w₂, step w' (.swap ctx d x m) = .ok w₂ → ctx.paid d w w₁ ≤ ctx.paid d w' w₂) ∧
        (∃ P' q', w'.pools ctx.pool = some P' ∧
          quoteSwap x (P'.reserves d).1 (P'.reserves d).2 P'.feeBps = .ok q' ∧ m ≤ q'.amountOut) ∧
        step w' (.swap ctx d x m) ≠ .error (.amm (.custom .slippageExceeded))) := by
  refine ⟨fun hx hi ho hf h h' => quoteSwap_mono hx hi ho hf h h', ?_⟩
  intro w w' w₁ as ctx d x m hw t h₁
  replace h₁ := mapError_ok_iff.mp h₁
  constructor
  · intro has w₂ h₂
    exact paid_le_of_pushed hw.inv t has h₁ (mapError_ok_iff.mp h₂)
  · intro has
    obtain ⟨hquote, hne⟩ := slippage_of_pulled hw.inv t has h₁
    refine ⟨fun w₂ h₂ => ?_, hquote, fun h₂ => ?_⟩
    · exact le_paid_of_pulled hw.inv t has h₁ (mapError_ok_iff.mp h₂)
    · obtain ⟨e, he, heq⟩ := mapError_error_iff.mp h₂
      obtain rfl := StepError.amm.inj heq
      exact hne he

/-- In the pool of `lopsided`. -/
def lopsidedSwap (d : SwapDirection) (amountIn minAmountOut : ℕ) : Action :=
  .swap Lopsided.accounts.toPoolAccounts d amountIn minAmountOut

/-- Where three units buy 107,415, three hundred thousand the other way do not spoil the limit. -/
theorem swap_ordering_lopsided :
    ∃ w w' w₁ w₂, w.Reachable ∧ Run step w [lopsidedSwap .bToA 300000 0] w' ∧
      step w (lopsidedSwap .aToB 3 107415) = .ok w₁ ∧
      step w' (lopsidedSwap .aToB 3 107415) = .ok w₂ ∧
      Lopsided.accounts.toPoolAccounts.paid .aToB w w₁ ≤
        Lopsided.accounts.toPoolAccounts.paid .aToB w' w₂ := by
  have h₀ : Run step lopsided [lopsidedSwap .aToB 3 0] _ := run_afterAll (by decide +kernel)
  have h' : Run step _ [lopsidedSwap .bToA 300000 0] _ :=
    run_afterAll (w := lopsided.afterAll [lopsidedSwap .aToB 3 0]) (by decide +kernel)
  have h₁ : Run step _ [lopsidedSwap .aToB 3 107415] _ :=
    run_afterAll (w := lopsided.afterAll [lopsidedSwap .aToB 3 0]) (by decide +kernel)
  have h₂ : Run step _ [lopsidedSwap .aToB 3 107415] _ :=
    run_afterAll (w := (lopsided.afterAll [lopsidedSwap .aToB 3 0]).afterAll
      [lopsidedSwap .bToA 300000 0]) (by decide +kernel)
  have hw := lopsided_reachable.run h₀
  have hpush : ∀ a ∈ [lopsidedSwap .bToA 300000 0],
      a.Pushes Lopsided.accounts.pool SwapDirection.aToB.opposite := by
    simp [Action.Pushes, lopsidedSwap, SwapDirection.opposite]
  exact ⟨_, _, _, _, hw, h', h₁.of_one, h₂.of_one,
    ((swap_ordering.2 hw h' h₁.of_one).2 hpush).1 _ h₂.of_one⟩

end StablecoinAmm
