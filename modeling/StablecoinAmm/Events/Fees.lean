import StablecoinAmm.Events.Reconciliation
import StablecoinAmm.Pools.Extraction
import StablecoinAmm.Pricing.Swaps

/-!
# Events — what the fees come to

A pool keeps its fee in the reserves, and no account says how much it was.  The log does: every
`SwapExecuted` has the amount paid in and the reserves after it, and the product of the reserves
grows by the fee on it to the unit, but for what rounding leaves behind
(`quoteSwap_growth`).  Over a history without withdrawals the product grows by no less than the
fees in the log, and without deposits by no more than these and one unit of output for each swap
(`fees_accrue`).
-/

namespace StablecoinAmm
open Support Ledger

/-! ### One swap -/

/-- What is left of a payment's fee, and what rounding adds. -/
theorem Amm.quoteSwap_growth {amountIn reserveIn reserveOut feeBps : ℕ} {q : Amm.SwapQuote}
    (h : Amm.quoteSwap amountIn reserveIn reserveOut feeBps = .ok q) :
    Amm.feeDenominator * (reserveIn * reserveOut) + feeBps * (amountIn * q.newReserveOut) ≤
        Amm.feeDenominator * (q.newReserveIn * q.newReserveOut) ∧
      Amm.feeDenominator * (q.newReserveIn * q.newReserveOut) ≤
        Amm.feeDenominator * (reserveIn * reserveOut) +
          (feeBps * (amountIn * q.newReserveOut) + Amm.feeDenominator * q.newReserveIn) := by
  obtain ⟨ha, rfl⟩ := Amm.quoteSwap_ok_iff.mp h
  have hfee : feeBps + (Amm.swapFee feeBps).net = (Amm.swapFee feeBps).scale :=
    Nat.add_sub_cancel' (ha.feeBps_le.trans (by decide))
  have hgrow : Amm.feeDenominator * _ = Amm.feeDenominator * _ + _ + _ :=
    (Amm.swapFee feeBps).product_out reserveIn reserveOut amountIn hfee
  have hdust := (Amm.swapFee feeBps).dust_lt ha.reserveIn_pos reserveOut amountIn
  have hbase : (Amm.swapFee feeBps).base reserveIn amountIn ≤
      Amm.feeDenominator * (reserveIn + amountIn) := by
    rw [Nat.mul_add, Nat.mul_comm _ reserveIn, Nat.mul_comm _ amountIn]
    exact Nat.add_le_add_left (Nat.mul_le_mul_left _ (Amm.swapFee feeBps).net_le) _
  simp only [Amm.swapOut_eq]
  rw [hgrow]
  omega

namespace Event

/-- The payment, in units of the product of the reserves. -/
def traded (p : Pubkey) : Event → ℕ
  | .amm (.swapExecuted pool _ .aToB amountIn _ _ reserveB) =>
      if pool = p then amountIn * reserveB else 0
  | .amm (.swapExecuted pool _ .bToA amountIn _ reserveA _) =>
      if pool = p then amountIn * reserveA else 0
  | _ => 0

/-- One unit of output, in units of the product. -/
def unit (p : Pubkey) : Event → ℕ
  | .amm (.swapExecuted pool _ .aToB _ _ reserveA _) => if pool = p then reserveA else 0
  | .amm (.swapExecuted pool _ .bToA _ _ _ reserveB) => if pool = p then reserveB else 0
  | _ => 0

/-- Nothing but a trade on the pool counts. -/
theorem Of.untraded {p : Pubkey} {a : Action} {e : Event} (h : e.Of a) (ho : a.eventOn p ≠ .trade) :
    e.traded p = 0 ∧ e.unit p = 0 := by
  cases h with
  | @swapExecuted ctx d =>
      have hne : ctx.pool ≠ p := fun e => ho (if_pos e)
      cases d <;> exact ⟨if_neg hne, if_neg hne⟩
  | _ => exact ⟨rfl, rfl⟩

end Event

/-- The product of the reserves of the pool at `p`. -/
def World.productAt (w : World) (p : Pubkey) : ℕ :=
  (w.pools p).elim 0 fun P => P.reserveA * P.reserveB

theorem World.productAt_of {w : World} {p : Pubkey} {P : Pool} (hP : w.pools p = some P) :
    w.productAt p = P.reserveA * P.reserveB := by
  rw [productAt, hP]; rfl

/-- **The product grows by the fee**: `es` is what a step wrote. -/
structure Pool.Grown (p : Pubkey) (es : List Event) (feeBps k k' : ℕ) : Prop where
  ge : Amm.feeDenominator * k + feeBps * (es.map (Event.traded p)).sum ≤ Amm.feeDenominator * k'
  le : Amm.feeDenominator * k' ≤ Amm.feeDenominator * k +
    (feeBps * (es.map (Event.traded p)).sum + Amm.feeDenominator * (es.map (Event.unit p)).sum)

section
variable {w w' : World} {p : Pubkey} {P : Pool}

theorem PoolAccounts.SwapTrace.grown {ctx : PoolAccounts} {x xMin : ℕ} {a : PoolAccounts.Loaded}
    {q : Amm.SwapQuote} {l₁ l₂ : Ledger} :
    ∀ {d : SwapDirection}, ctx.SwapTrace w d x xMin a q l₁ l₂ w' →
      Pool.Grown ctx.pool [.amm (.swapExecuted ctx.pool ctx.user d x q.amountOut
        (a.pool.afterSwap q d).reserveA (a.pool.afterSwap q d).reserveB)] a.pool.feeBps
        (a.pool.reserveA * a.pool.reserveB)
        ((a.pool.afterSwap q d).reserveA * (a.pool.afterSwap q d).reserveB)
  | .aToB, h => by
      obtain ⟨hge, hle⟩ := Amm.quoteSwap_growth h.quote
      constructor
      · simpa [Event.traded, Pool.reserves, Pool.afterSwap] using hge
      · simpa [Event.traded, Event.unit, Pool.reserves, Pool.afterSwap] using hle
  | .bToA, h => by
      obtain ⟨hge, hle⟩ := Amm.quoteSwap_growth h.quote
      constructor
      · simpa [Event.traded, Pool.reserves, Pool.afterSwap, Nat.mul_comm a.pool.reserveB,
          Nat.mul_comm q.newReserveIn] using hge
      · simpa [Event.traded, Event.unit, Pool.reserves, Pool.afterSwap,
          Nat.mul_comm a.pool.reserveB, Nat.mul_comm q.newReserveIn] using hle

/-- A step that does not trade on the pool writes no trade on it. -/
theorem untraded_sum {a : Action} (ho : a.eventOn p ≠ .trade) :
    ((a.emitted w).map (Event.traded p)).sum = 0 ∧ ((a.emitted w).map (Event.unit p)).sum = 0 := by
  have hzero : ∀ e ∈ a.emitted w, e.traded p = 0 ∧ e.unit p = 0 := fun e he =>
    (a.emitted_of w he).untraded ho
  exact ⟨List.sum_eq_zero (List.forall_mem_map.mpr fun e he => (hzero e he).1),
    List.sum_eq_zero (List.forall_mem_map.mpr fun e he => (hzero e he).2)⟩

/-- Nothing but a withdrawal lowers the product. -/
theorem PoolState.Step.product_le {e : PoolState.Event} {s s' : PoolState} (h : Step e s s')
    (he : e ≠ .withdraw) : s.reserveA * s.reserveB ≤ s'.reserveA * s'.reserveB := by
  cases h with
  | seed hs =>
      rw [hs.reserveA, Nat.zero_mul]
      exact Nat.zero_le _
  | deposit _ hq =>
      dsimp only
      rw [hq.newReserveA, hq.newReserveB]
      exact Nat.mul_le_mul (Nat.le_add_right _ _) (Nat.le_add_right _ _)
  | withdraw => exact absurd rfl he
  | tradeAB hs hq => exact (Step.tradeAB hs hq).product.1
  | tradeBA hs hq => exact (Step.tradeBA hs hq).product.1
  | outside ha hb => rw [ha, hb]

theorem Pool.feeBps_of_erase {P P' : Pool} (h : P'.erase = P.erase) : P'.feeBps = P.feeBps :=
  (congrArg Pool.feeBps h : P'.erase.feeBps = P.erase.feeBps)

/-- **One step**, by what it is to the pool. -/
theorem step_grown (hw : w.Inv) (hP : w.pools p = some P) {a : Action} (h : step w a = .ok w')
    (hno : a.eventOn p ≠ .withdraw) :
    ∃ P', w'.pools p = some P' ∧ P'.feeBps = P.feeBps ∧
      Amm.feeDenominator * (P.reserveA * P.reserveB) +
          P.feeBps * ((a.emitted w).map (Event.traded p)).sum ≤
        Amm.feeDenominator * (P'.reserveA * P'.reserveB) ∧
      (a.eventOn p ≠ .deposit → Pool.Grown p (a.emitted w) P.feeBps (P.reserveA * P.reserveB)
        (P'.reserveA * P'.reserveB)) := by
  have heff := step_effect hw h
  by_cases ht : a.eventOn p = .trade
  · cases a with
    | swap ctx =>
        simp only [Action.eventOn, ite_eq_left_iff, reduceCtorEq, imp_false, not_not] at ht
        subst ht
        obtain ⟨a, q, _, l, ht⟩ := swap_trace hw.shape hw.pools (mapError_ok_iff.mp h)
        obtain rfl := Option.some.inj (hP.symm.trans ht.valid.pool)
        have hgrown := ht.grown
        rw [Action.emitted, ht.emitted, ht.result]
        exact ⟨_, World.setPool_pools_self .., Pool.feeBps_of_erase (Pool.erase_afterSwap ..),
          hgrown.ge, fun _ => hgrown⟩
    | addLiquidity | removeLiquidity =>
        simp only [Action.eventOn] at ht
        split at ht <;> cases ht
    | _ => cases ht
  · obtain ⟨htraded, hunit⟩ := untraded_sum (w := w) ht
    obtain ⟨P', hP', he, hs⟩ := heff.refines hw.shape (heff.inv hw).conserved hP
    have hle : P.reserveA * P.reserveB ≤ P'.reserveA * P'.reserveB := hs.product_le hno
    have hge := Nat.mul_le_mul_left Amm.feeDenominator hle
    refine ⟨P', hP', Pool.feeBps_of_erase he, by rw [htraded]; exact hge, fun hd => ?_⟩
    have ho : a.eventOn p = .outside := by
      cases hev : a.eventOn p with
      | outside => rfl
      | deposit => exact absurd hev hd
      | withdraw => exact absurd hev hno
      | trade => exact absurd hev ht
    obtain rfl := Option.some.inj ((heff.pool_kept hP ho).symm.trans hP')
    exact ⟨by rw [htraded]; exact le_rfl, by rw [htraded, hunit]; exact le_rfl⟩

/-- The pool at `p` charges `feeBps`, as it always has. -/
def World.Charges (p : Pubkey) (feeBps : ℕ) (w : World) : Prop :=
  w.Inv ∧ ∃ P, w.pools p = some P ∧ P.feeBps = feeBps

theorem step_charges {feeBps : ℕ} (w : World) (a : Action) (w' : World) (hw : w.Charges p feeBps)
    (h : step w a = .ok w') : w'.Charges p feeBps := by
  obtain ⟨hw, P, hP, hfee⟩ := hw
  have heff := step_effect hw h
  obtain ⟨P', hP', he, -⟩ := heff.refines hw.shape (heff.inv hw).conserved hP
  exact ⟨heff.inv hw, P', hP', (Pool.feeBps_of_erase he).trans hfee⟩

theorem step_fees_ge {feeBps : ℕ} (w : World) (a : Action) (w' : World)
    (hw : w.Charges p feeBps) (hno : a.eventOn p ≠ .withdraw) (h : step w a = .ok w') :
    Amm.feeDenominator * w.productAt p + ((a.emitted w).map fun e => feeBps * e.traded p).sum ≤
      Amm.feeDenominator * w'.productAt p + ((a.emitted w).map fun _ => 0).sum := by
  obtain ⟨hw, P, hP, rfl⟩ := hw
  obtain ⟨P', hP', -, hge, -⟩ := step_grown hw hP h hno
  simpa [World.productAt_of hP, World.productAt_of hP', List.sum_map_mul_left] using hge

theorem step_fees_le {feeBps : ℕ} (w : World) (a : Action) (w' : World)
    (hw : w.Charges p feeBps) (hno : a.eventOn p ≠ .withdraw ∧ a.eventOn p ≠ .deposit)
    (h : step w a = .ok w') :
    Amm.feeDenominator * w'.productAt p + ((a.emitted w).map fun _ => 0).sum ≤
      Amm.feeDenominator * w.productAt p +
        ((a.emitted w).map fun e => feeBps * e.traded p + Amm.feeDenominator * e.unit p).sum := by
  obtain ⟨hw, P, hP, rfl⟩ := hw
  obtain ⟨P', hP', -, -, hgrown⟩ := step_grown hw hP h hno.1
  simpa [World.productAt_of hP, World.productAt_of hP', List.sum_map_mul_left,
    List.sum_map_add] using (hgrown hno.2).le

/-- **Fees accrue.**  Over every history without a withdrawal from the pool, the product of its
reserves grows by no less than the fees on the swaps in the log, and without a deposit by no more
than these and a unit of output for each of them. -/
theorem fees_accrue (hw : w.Reachable) (hP : w.pools p = some P) {as : List Action}
    (t : Run step w as w') (hno : ∀ a ∈ as, a.eventOn p ≠ .withdraw) :
    ∃ P', w'.pools p = some P' ∧ P'.feeBps = P.feeBps ∧
      Amm.feeDenominator * (P.reserveA * P.reserveB) +
          P.feeBps * ((w.log as).map (Event.traded p)).sum ≤
        Amm.feeDenominator * (P'.reserveA * P'.reserveB) ∧
      ((∀ a ∈ as, a.eventOn p ≠ .deposit) →
        Amm.feeDenominator * (P'.reserveA * P'.reserveB) ≤
          Amm.feeDenominator * (P.reserveA * P.reserveB) +
            (P.feeBps * ((w.log as).map (Event.traded p)).sum +
              Amm.feeDenominator * ((w.log as).map (Event.unit p)).sum)) := by
  have hs : w.Charges p P.feeBps := ⟨hw.inv, P, hP, rfl⟩
  obtain ⟨-, P', hP', hfee⟩ := t.invariant step_charges hs
  have hge := t.bound step_charges step_fees_ge hs hno
  rw [World.productAt_of hP, World.productAt_of hP'] at hge
  simp only [List.sum_map_mul_left, List.map_const', List.sum_replicate, smul_zero,
    add_zero] at hge
  refine ⟨P', hP', hfee, hge, fun hnod => ?_⟩
  -- the bound from above is one from below in the opposite order
  have hle : Amm.feeDenominator * w'.productAt p + ((w.log as).map fun _ => 0).sum ≤
      Amm.feeDenominator * w.productAt p + ((w.log as).map fun e =>
        P.feeBps * e.traded p + Amm.feeDenominator * e.unit p).sum :=
    t.bound (M := ℕᵒᵈ) step_charges step_fees_le hs fun a ha => ⟨hno a ha, hnod a ha⟩
  rw [World.productAt_of hP, World.productAt_of hP'] at hle
  simpa only [List.sum_map_add, List.sum_map_mul_left, List.map_const', List.sum_replicate,
    smul_zero, add_zero] using hle

end

/-- Two swaps on the lopsided pool, one each way, at thirty basis points. -/
theorem fees_accrue_lopsided :
    ∃ P', (lopsided.afterAll lopsidedRoundTrip).pools Lopsided.pool = some P' ∧
      10000 * (1 * 1002001) + 30 * 1953198 ≤ 10000 * (P'.reserveA * P'.reserveB) := by
  obtain ⟨P', hP', -, hge, -⟩ :=
    fees_accrue lopsided_reachable lopsided_pool lopsidedRoundTrip_run (by decide)
  have htraded : ((lopsided.log lopsidedRoundTrip).map (Event.traded Lopsided.pool)).sum =
      1953198 := by decide +kernel
  rw [htraded] at hge
  exact ⟨P', hP', hge⟩

end StablecoinAmm
