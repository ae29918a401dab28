import StablecoinAmm.Events.Index
import StablecoinAmm.Issuance.Accounting

/-!
# Events — the log against the ledger

The events carry amounts that moved.  Added up over a log they account for the live ledger:
what was minted and not burned is the supply of a stablecoin, what was paid into a pool and not
out of it are its reserves, and the LP tokens minted and not burned are the LP supply
(`log_reconciles`).  Two things are missing from the log and have to be known otherwise: the
burns that holders send to Token-2022 themselves, and the minimum that the first deposit locks,
which `lp_minted` leaves out.
-/

namespace StablecoinAmm
open Support Ledger

/-! ### Amounts in an event -/

namespace Event

def minted (m : Pubkey) : Event → ℕ
  | .stablecoin (.tokensMinted mint _ _ amount _ _) => if m = mint then amount else 0
  | _ => 0

def burned (m : Pubkey) : Event → ℕ
  | .stablecoin (.tokensBurned mint _ _ amount _) => if m = mint then amount else 0
  | _ => 0

/-- Into the reserves of the pool `p`. -/
def paidIn (p : Pubkey) : Event → ℕ × ℕ
  | .amm (.liquidityAdded pool _ amountA amountB _ _ _ _) =>
      if pool = p then (amountA, amountB) else 0
  | .amm (.swapExecuted pool _ .aToB amountIn _ _ _) => if pool = p then (amountIn, 0) else 0
  | .amm (.swapExecuted pool _ .bToA amountIn _ _ _) => if pool = p then (0, amountIn) else 0
  | _ => 0

/-- Out of the reserves of the pool `p`. -/
def paidOut (p : Pubkey) : Event → ℕ × ℕ
  | .amm (.liquidityRemoved pool _ _ amountA amountB _ _ _) =>
      if pool = p then (amountA, amountB) else 0
  | .amm (.swapExecuted pool _ .aToB _ amountOut _ _) => if pool = p then (0, amountOut) else 0
  | .amm (.swapExecuted pool _ .bToA _ amountOut _ _) => if pool = p then (amountOut, 0) else 0
  | _ => 0

def lpMinted (p : Pubkey) : Event → ℕ
  | .amm (.liquidityAdded pool _ _ _ lpMinted _ _ _) => if pool = p then lpMinted else 0
  | _ => 0

def lpBurned (p : Pubkey) : Event → ℕ
  | .amm (.liquidityRemoved pool _ lpBurned _ _ _ _ _) => if pool = p then lpBurned else 0
  | _ => 0

/-- The event moves nothing in the pool `p`. -/
structure Elsewhere (p : Pubkey) (e : Event) : Prop where
  paidIn : e.paidIn p = 0
  paidOut : e.paidOut p = 0
  lpMinted : e.lpMinted p = 0
  lpBurned : e.lpBurned p = 0

end Event

section
variable {w w' : World}

/-! ### Stablecoins -/

/-- Before a stablecoin exists nobody mints or burns it. -/
theorem idle_of_none {s : Symbol} (hn : w.configs (.config (.mint s)) = none) {a : Action}
    (h : a.Effect w w') : a.issued (.mint s) = 0 ∧ a.redeemed (.mint s) = 0 := by
  cases a with
  | mintTo ctx amount =>
      obtain ⟨a, l, h⟩ := h
      refine ⟨if_neg ?_, rfl⟩
      intro hm
      rw [hm, ← h.valid.config_key, h.valid.config] at hn
      cases hn
  | burn ctx amount =>
      obtain ⟨c, l, h⟩ := h
      refine ⟨rfl, if_neg ?_⟩
      intro hm
      rw [hm, ← h.config_key, h.config] at hn
      cases hn
  | _ => exact ⟨rfl, rfl⟩

/-- The supply moves by what the action mints and burns, from before the stablecoin exists. -/
theorem step_supply (hw : w.Inv) {a : Action} (h : step w a = .ok w') (s : Symbol) :
    w'.ledger.supply (.mint s) + a.redeemed (.mint s) + a.directBurn (.mint s) =
      w.ledger.supply (.mint s) + a.issued (.mint s) := by
  have heff := step_effect hw h
  rcases hc : w.configs (.config (.mint s)) with _ | c
  · obtain ⟨hi, hr⟩ := idle_of_none hc heff
    rw [hi, hr, directBurn_of_none hw.shape hc heff]
    have hnone : ∀ {w : World}, w.Shape → w.configs (.config (.mint s)) = none →
        w.ledger.supply (.mint s) = 0 := by
      intro w hs hn
      rcases hM : w.ledger.mints (.mint s) with _ | M
      · exact supply_of_none hM
      · rcases hs.mint _ M hM with ⟨-, c, hc⟩ | ⟨p, P, hp, -⟩
        · cases hn.symm.trans hc
        · cases hp
    rw [hnone hw.shape hc]
    rcases hc' : w'.configs (.config (.mint s)) with _ | c'
    · rw [hnone (heff.inv hw).shape hc']
    · have hopen := (heff.config_new hc hc').supply
      rw [(heff.inv hw).shape.config_mint hc'] at hopen
      rw [hopen]
  · obtain ⟨c', -, hb⟩ := heff.booked hw.shape _ c hc
    have hsup := hb.supply
    rwa [hw.shape.config_mint hc] at hsup

/-- A sum over what one action writes, from what it may write. -/
theorem World.Recorded.sum_map {M : Type} [AddCommMonoid M] {a : Action} {f : Event → M} {v : M}
    (h : w.Recorded a w') (hf : ∀ e : Event, e.Of a → f e = v)
    (hv : a.isInstruction = false → v = 0) : ((a.emitted w).map f).sum = v := by
  have hlen := h.length
  cases ha : a.isInstruction with
  | true =>
      rw [ha, if_pos rfl] at hlen
      obtain ⟨e, he⟩ := List.length_eq_one_iff.mp hlen
      have hof : e.Of a := a.emitted_of w (he ▸ List.mem_singleton_self e)
      rw [he, List.map_singleton, List.sum_singleton, hf e hof]
  | false =>
      rw [ha] at hlen
      rw [List.length_eq_zero_iff.mp hlen, hv ha]; rfl

/-- The events of a successful action say what it mints and burns. -/
theorem step_minted (hw : w.Inv) {a : Action} (h : step w a = .ok w') (m : Pubkey) :
    ((a.emitted w).map (Event.minted m)).sum = a.issued m ∧
      ((a.emitted w).map (Event.burned m)).sum = a.redeemed m := by
  have hrec := step_recorded hw h
  constructor
  · apply hrec.sum_map
    · intro e he
      cases he <;> rfl
    · intro ha
      cases a <;> first | rfl | cases ha
  · apply hrec.sum_map
    · intro e he
      cases he <;> rfl
    · intro ha
      cases a <;> first | rfl | cases ha

/-! ### Pools -/

/-- The LP tokens locked in a pool by its first deposit. -/
def Pool.minimum (P : Pool) : ℕ := if P.reserveA = 0 then 0 else Amm.minimumLiquidity

theorem Pool.minimum_of_pos {P : Pool} (h : 0 < P.reserveA) : P.minimum = Amm.minimumLiquidity :=
  if_neg h.ne'

/-- **One step of a pool, in its books**: `es` is what the step wrote, `n` what it burned of the
LP tokens unwritten. -/
structure Pool.Reconciled (p : Pubkey) (es : List Event) (n : ℕ) (P P' : Pool) (l l' : Ledger) :
    Prop where
  reserves : (P'.reserveA, P'.reserveB) + (es.map (Event.paidOut p)).sum =
    (P.reserveA, P.reserveB) + (es.map (Event.paidIn p)).sum
  shares : l'.supply P.lpMint + (es.map (Event.lpBurned p)).sum + n + P.minimum =
    l.supply P.lpMint + (es.map (Event.lpMinted p)).sum + P'.minimum

/-- Only a pool in order is traded on or withdrawn from. -/
theorem PoolState.Step.before_seeded {e : PoolState.Event} {s s' : PoolState}
    (h : PoolState.Step e s s') (he : e = .trade ∨ e = .withdraw) : s.Seeded := by
  cases h with
  | withdraw hs | tradeAB hs | tradeBA hs => exact hs
  | seed | deposit | outside => simp at he

theorem PoolAccounts.SwapTrace.reconciled {ctx : PoolAccounts} {d : SwapDirection} {x xMin : ℕ}
    {a : PoolAccounts.Loaded} {q : Amm.SwapQuote} {l₁ l₂ : Ledger}
    (h : ctx.SwapTrace w d x xMin a q l₁ l₂ w') :
    Pool.Reconciled ctx.pool [.amm (.swapExecuted ctx.pool ctx.user d x q.amountOut
      (a.pool.afterSwap q d).reserveA (a.pool.afterSwap q d).reserveB)] 0 a.pool
      (a.pool.afterSwap q d) w.ledger l₂ := by
  have hin := h.sound.newReserveIn
  have hout := h.sound.newReserveOut
  have hseed := h.step.before_seeded (.inl rfl)
  have hpos : 0 < a.pool.reserveA := hseed.reserveA_pos
  have hpos' : 0 < (a.pool.afterSwap q d).reserveA := (h.step.seeded hseed).reserveA_pos
  have hsup : l₂.supply a.pool.lpMint = w.ledger.supply a.pool.lpMint :=
    (h.paidOut.supplies _).trans (h.paidIn.supplies _)
  constructor
  · cases d with
    | aToB | bToA =>
        simp only [Pool.reserves] at hin hout
        simp only [List.map_singleton, List.sum_singleton, Event.paidIn, Event.paidOut, if_true,
          Pool.afterSwap, Prod.mk_add_mk, Prod.mk.injEq]
        omega
  · simp only [List.map_singleton, List.sum_singleton, Event.lpBurned, Event.lpMinted,
      Pool.minimum_of_pos hpos, Pool.minimum_of_pos hpos', hsup]

theorem LiquidityAccounts.RemoveTrace.reconciled (hs : w.Shape) {ctx : LiquidityAccounts}
    {n xMin yMin : ℕ} {a : LiquidityAccounts.Loaded} {q : Amm.RemoveLiquidityQuote}
    {l₁ l₂ l₃ : Ledger} (h : ctx.RemoveTrace w n xMin yMin a q l₁ l₂ l₃ w') :
    Pool.Reconciled ctx.pool [.amm (.liquidityRemoved ctx.pool ctx.user n q.amountA q.amountB
      q.newReserveA q.newReserveB q.newLpSupply)] 0 a.pool
      { a.pool with reserveA := q.newReserveA, reserveB := q.newReserveB } w.ledger l₃ := by
  have hA := h.sound.newReserveA
  have hB := h.sound.newReserveB
  have hL := h.sound.newLpSupply
  have hpos : 0 < a.pool.reserveA := (h.step.before_seeded (.inr rfl)).reserveA_pos
  have hafter := congrArg PoolState.lpSupply
    (remove_state hs h.valid h.sound h.burned h.paidA h.paidB)
  simp only [Pool.state] at hL hafter
  constructor
  · simp only [List.map_singleton, List.sum_singleton, Event.paidIn, Event.paidOut, if_true,
      Prod.mk_add_mk, Prod.mk.injEq, add_zero]
    exact ⟨hA, hB⟩
  · rw [Pool.minimum_of_pos hpos, Pool.minimum_of_pos (P := { a.pool with reserveA := _, reserveB := _ })
      h.sound.newReserveA_pos, hafter]
    simp only [List.map_singleton, List.sum_singleton, Event.lpBurned, Event.lpMinted, if_true]
    omega

theorem LiquidityAccounts.AddTrace.reconciled (hs : w.Shape) {ctx : LiquidityAccounts}
    {x y xMin yMin nMin : ℕ} {a : LiquidityAccounts.Loaded} {t : DepositTerms}
    {l₁ l₂ l₃ l₄ : Ledger} (h : ctx.AddTrace w x y xMin yMin nMin a t l₁ l₂ l₃ l₄ w') :
    Pool.Reconciled ctx.pool [.amm (.liquidityAdded ctx.pool ctx.user t.amountA t.amountB t.lpToUser
      (a.pool.reserveA + t.amountA) (a.pool.reserveB + t.amountB)
      (a.lpMint.supply + t.lpToUser + t.lpToLock))] 0 a.pool
      { a.pool with reserveA := a.pool.reserveA + t.amountA,
                    reserveB := a.pool.reserveB + t.amountB } w.ledger l₄ := by
  have hafter := congrArg PoolState.lpSupply
    (add_state hs h.valid h.paidA h.paidB h.locked h.minted)
  simp only [Pool.state] at hafter
  -- the first deposit locks the minimum; a later one finds it locked
  have hmin : t.lpToLock + a.pool.minimum =
      ({ a.pool with reserveA := a.pool.reserveA + t.amountA,
                     reserveB := a.pool.reserveB + t.amountB } : Pool).minimum := by
    have hsound := h.sound
    generalize hst : a.pool.state w.ledger = st at hsound
    cases hsound with
    | first hu hq =>
        have hzero : a.pool.reserveA = 0 := by rw [← hst] at hu; exact hu.reserveA
        rw [Pool.minimum, if_pos hzero,
          Pool.minimum_of_pos (P := { a.pool with reserveA := _, reserveB := _ })
            (Nat.add_pos_right _ hq.amountA_pos), hq.lpToLock, add_zero]
    | later hs' hq =>
        have hpos : 0 < a.pool.reserveA := by rw [← hst] at hs'; exact hs'.reserveA_pos
        rw [Pool.minimum_of_pos hpos,
          Pool.minimum_of_pos (P := { a.pool with reserveA := _, reserveB := _ })
            (Nat.add_pos_left hpos _), Nat.zero_add]
  constructor
  · simp only [List.map_singleton, List.sum_singleton, Event.paidIn, Event.paidOut, if_true,
      Prod.mk_add_mk, add_zero]
  · rw [hafter, ← hmin]
    simp only [List.map_singleton, List.sum_singleton, Event.lpBurned, Event.lpMinted, if_true]
    omega

/-- The LP mints of different pools differ. -/
theorem World.Shape.lpMint_ne (hs : w.Shape) {p j : Pubkey} {P Q : Pool}
    (hP : w.pools p = some P) (hQ : w.pools j = some Q) (h : j ≠ p) : P.lpMint ≠ Q.lpMint := by
  rw [(hs.pool p P hP).placed.lpMint, (hs.pool j Q hQ).placed.lpMint]
  intro he
  exact h (Pubkey.lpMint.inj he).symm

/-- What is not an instruction of the pool changes its LP supply by direct burns alone. -/
theorem Action.Effect.lp_outside (hs : w.Shape) {p : Pubkey} {P : Pool}
    (hP : w.pools p = some P) : ∀ {a : Action}, a.Effect w w' → a.eventOn p = .outside →
      w'.ledger.supply P.lpMint + a.directBurn P.lpMint = w.ledger.supply P.lpMint
  | .initializeStablecoin .., ⟨_, _, h⟩, _ => by
      rw [h.result]
      exact (settled_setMint (h.supply.trans (supply_of_none h.mint_free).symm)).supply _
  | .grantMinter .., h, _ | .revokeMinter .., h, _ => by rw [h]; rfl
  | .setWalletPolicy .., ⟨_, _, h⟩, _ => by rw [h.result]; rfl
  | .mintTo .., ⟨_, _, h⟩, _ => by
      have hne := hs.mint_ne_lpMint h.valid.config hP
      rw [h.valid.config_mint] at hne
      rw [h.result]
      refine (h.minted.supplies _).trans ?_
      rw [if_neg hne.symm]; rfl
  | .burn .., ⟨_, _, h⟩, _ => by
      have hne := hs.mint_ne_lpMint h.config hP
      rw [h.config_mint] at hne
      have hsup := h.burned.supplies P.lpMint
      rw [if_neg hne.symm] at hsup
      rw [h.result]; exact hsup
  | .setPause ctx paused, ⟨_, M, u, h⟩, _ => by
      have hset : Settled w.ledger (w.ledger.setMint ctx.mint
          { M with pausable := some { u with paused } }) :=
        settled_setMint (supply_of h.mint).symm
      rw [h.result]; exact hset.supply _
  | .updateConfig .., ⟨_, h⟩, _ => by rw [h.result]; rfl
  | .acceptAdmin .., ⟨_, _, _, h⟩, _ => by rw [h]; rfl
  | .initializePool .., ⟨_, _, h⟩, _ => by
      rw [h.result]
      exact (settled_openPool h.mints_ne h.vaultA_free h.vaultB_free h.lpMint_free
        h.lockedLp_free).supply _
  | .addLiquidity ctx .., ⟨_, _, _, _, _, _, h⟩, ho => by
      have hp : ctx.pool ≠ p := fun e => by simp [Action.eventOn, e] at ho
      have hne : P.lpMint ≠ ctx.lpMint := h.valid.lpMint_eq ▸ hs.lpMint_ne hP h.valid.pool hp
      rw [h.result]
      refine (h.minted.supplies _).trans ?_
      rw [if_neg hne, h.locked.supplies, if_neg hne, h.paidB.supplies, h.paidA.supplies]; rfl
  | .removeLiquidity ctx .., ⟨_, _, _, _, _, h⟩, ho => by
      have hp : ctx.pool ≠ p := fun e => by simp [Action.eventOn, e] at ho
      have hne : P.lpMint ≠ ctx.lpMint := h.valid.lpMint_eq ▸ hs.lpMint_ne hP h.valid.pool hp
      have hsup := h.burned.supplies P.lpMint
      rw [if_neg hne] at hsup
      rw [h.result]
      exact ((h.paidB.supplies _).trans (h.paidA.supplies _)).trans hsup
  | .swap .., ⟨_, _, _, _, h⟩, _ => by
      rw [h.result]; exact (h.paidOut.supplies _).trans (h.paidIn.supplies _)
  | .createAccount .., ⟨_, _, _, _, h⟩, _ => by rw [h]; rfl
  | .transfer .., ⟨_, _, h, hw⟩, _ => by rw [hw]; exact h.supplies _
  | .burnDirect .., ⟨_, _, h, hw⟩, _ => by rw [hw]; exact h.supplies _
  | .setOwner .., ⟨_, _, _, _, _, _, h⟩, _ => by rw [h]; rfl
  | .closeAccount .., ⟨_, _, _, _, _, h⟩, _ => by rw [h]; rfl

/-- And what it writes moves nothing in the pool. -/
theorem Event.Of.elsewhere {p : Pubkey} {a : Action} {e : Event} (h : e.Of a)
    (ho : a.eventOn p = .outside) : e.Elsewhere p := by
  cases h with
  | liquidityAdded | liquidityRemoved =>
      simp only [Action.eventOn, ite_eq_right_iff, reduceCtorEq, imp_false] at ho
      constructor <;> first | exact if_neg ho | rfl
  | @swapExecuted _ d =>
      simp only [Action.eventOn, ite_eq_right_iff, reduceCtorEq, imp_false] at ho
      cases d <;> constructor <;> first | exact if_neg ho | rfl
  | _ => exact ⟨rfl, rfl, rfl, rfl⟩

/-- **One step of the chain, in the books of a pool.** -/
theorem step_reconciled (hw : w.Inv) {p : Pubkey} {P : Pool} (hP : w.pools p = some P)
    {a : Action} (h : step w a = .ok w') :
    ∃ P', w'.pools p = some P' ∧
      Pool.Reconciled p (a.emitted w) (a.directBurn P.lpMint) P P' w.ledger w'.ledger := by
  have heff := step_effect hw h
  by_cases ho : a.eventOn p = .outside
  · refine ⟨P, heff.pool_kept hP ho, ?_⟩
    have helse : ∀ e ∈ a.emitted w, e.Elsewhere p := fun e he => (a.emitted_of w he).elsewhere ho
    have hsum : ∀ {M : Type} [AddCommMonoid M] {f : Event → M},
        (∀ e : Event, e.Elsewhere p → f e = 0) → ((a.emitted w).map f).sum = 0 := fun hf =>
      List.sum_eq_zero (List.forall_mem_map.mpr fun e he => hf e (helse e he))
    constructor
    · rw [hsum fun _ h => h.paidOut, hsum fun _ h => h.paidIn]
    · rw [hsum fun _ h => h.lpBurned, hsum fun _ h => h.lpMinted, Nat.add_zero, Nat.add_zero,
        heff.lp_outside hw.shape hP ho]
  · cases a with
    | addLiquidity ctx =>
        simp only [Action.eventOn, ite_eq_right_iff, reduceCtorEq, imp_false, not_not] at ho
        subst ho
        obtain ⟨a, t, _, _, _, l, ht⟩ :=
          addLiquidity_trace hw.shape hw.pools (mapError_ok_iff.mp h)
        obtain rfl := Option.some.inj (hP.symm.trans ht.valid.pool)
        rw [Action.emitted, ht.emitted, ht.result]
        exact ⟨_, World.setPool_pools_self .., ht.reconciled hw.shape⟩
    | removeLiquidity ctx =>
        simp only [Action.eventOn, ite_eq_right_iff, reduceCtorEq, imp_false, not_not] at ho
        subst ho
        obtain ⟨a, q, _, _, l, ht⟩ :=
          removeLiquidity_trace hw.shape hw.pools (mapError_ok_iff.mp h)
        obtain rfl := Option.some.inj (hP.symm.trans ht.valid.pool)
        rw [Action.emitted, ht.emitted, ht.result]
        exact ⟨_, World.setPool_pools_self .., ht.reconciled hw.shape⟩
    | swap ctx =>
        simp only [Action.eventOn, ite_eq_right_iff, reduceCtorEq, imp_false, not_not] at ho
        subst ho
        obtain ⟨a, q, _, l, ht⟩ := swap_trace hw.shape hw.pools (mapError_ok_iff.mp h)
        obtain rfl := Option.some.inj (hP.symm.trans ht.valid.pool)
        rw [Action.emitted, ht.emitted, ht.result]
        exact ⟨_, World.setPool_pools_self .., ht.reconciled⟩
    | _ => exact absurd rfl ho

/-! ### Histories -/

/-- The reserves of the pool at `p`, none before it exists. -/
def World.reservesAt (w : World) (p : Pubkey) : ℕ × ℕ :=
  (w.pools p).elim 0 fun P => (P.reserveA, P.reserveB)

/-- The LP tokens of the pool at `p` beyond its locked minimum. -/
def World.sharesAt (w : World) (p : Pubkey) : ℤ :=
  w.ledger.supply (.lpMint p) - ((w.pools p).elim 0 Pool.minimum : ℕ)

/-- An instruction of a pool finds it. -/
theorem Action.Effect.eventOn_of_none {p : Pubkey} (hp : w.pools p = none) {a : Action}
    (h : a.Effect w w') : a.eventOn p = .outside := by
  have hne : ∀ {k : Pubkey} {P : Pool}, w.pools k = some P → k ≠ p := by
    rintro k P hP rfl
    cases hp.symm.trans hP
  cases a with
  | addLiquidity =>
      obtain ⟨_, _, _, _, _, _, h⟩ := h
      exact if_neg (hne h.valid.pool)
  | removeLiquidity =>
      obtain ⟨_, _, _, _, _, h⟩ := h
      exact if_neg (hne h.valid.pool)
  | swap =>
      obtain ⟨_, _, _, _, h⟩ := h
      exact if_neg (hne h.valid.pool)
  | _ => rfl

theorem World.reservesAt_of {p : Pubkey} {P : Pool} (hP : w.pools p = some P) :
    w.reservesAt p = (P.reserveA, P.reserveB) := by
  rw [reservesAt, hP]; rfl

theorem World.sharesAt_of (hs : w.Shape) {p : Pubkey} {P : Pool} (hP : w.pools p = some P) :
    w.sharesAt p = (w.ledger.supply P.lpMint : ℤ) - P.minimum := by
  rw [sharesAt, hP, (hs.pool p P hP).placed.lpMint]; rfl

theorem sum_cast {α : Type} (f : α → ℕ) (xs : List α) :
    (xs.map fun x => (f x : ℤ)).sum = ((xs.map f).sum : ℕ) := by
  rw [Nat.cast_list_sum, List.map_map]; rfl

/-- **One step**, whether or not the pool exists. -/
theorem step_flows (hw : w.Inv) (p : Pubkey) {a : Action} (h : step w a = .ok w') :
    w'.reservesAt p + ((a.emitted w).map (Event.paidOut p)).sum + 0 =
        w.reservesAt p + ((a.emitted w).map (Event.paidIn p)).sum ∧
      w'.sharesAt p + ((a.emitted w).map fun e => (e.lpBurned p : ℤ)).sum +
          (a.directBurn (.lpMint p) : ℤ) =
        w.sharesAt p + ((a.emitted w).map fun e => (e.lpMinted p : ℤ)).sum := by
  have hw' := step_inv _ _ _ hw h
  rw [sum_cast, sum_cast, add_zero]
  rcases hp : w.pools p with _ | P
  · have heff := step_effect hw h
    have ho := heff.eventOn_of_none hp
    have hsum : ∀ {M : Type} [AddCommMonoid M] {f : Event → M},
        (∀ e : Event, e.Elsewhere p → f e = 0) → ((a.emitted w).map f).sum = 0 := fun hf =>
      List.sum_eq_zero (List.forall_mem_map.mpr fun e he =>
        hf e ((a.emitted_of w he).elsewhere ho))
    have hmint := hw.shape.lpMint_of_none hp
    have hburn : a.directBurn (.lpMint p) = 0 := by
      cases a with
      | burnDirect c =>
          obtain ⟨_, -, hb, -⟩ := heff
          obtain ⟨M, hM, -⟩ := hb.live
          refine if_neg ?_
          intro hm
          rw [← hm, hmint] at hM
          cases hM
      | _ => rfl
    -- nothing before, and nothing but an empty pool after
    have hafter : w'.reservesAt p = 0 ∧ w'.sharesAt p = 0 := by
      rcases hp' : w'.pools p with _ | P'
      · rw [World.reservesAt, World.sharesAt, hp', supply_of_none (hw'.shape.lpMint_of_none hp')]
        exact ⟨rfl, rfl⟩
      · have hun := heff.pool_new hp hp'
        have hr : P'.reserveA = 0 := hun.reserveA
        have hr' : P'.reserveB = 0 := hun.reserveB
        have hl : w'.ledger.supply P'.lpMint = 0 := hun.lpSupply
        rw [World.reservesAt_of hp', World.sharesAt_of hw'.shape hp', hr, hr', hl, Pool.minimum,
          if_pos hr]
        exact ⟨rfl, rfl⟩
    rw [hsum fun _ h => h.paidOut, hsum fun _ h => h.paidIn, hsum fun _ h => h.lpBurned,
      hsum fun _ h => h.lpMinted, hburn, hafter.1, hafter.2, World.reservesAt, World.sharesAt, hp,
      supply_of_none hmint]
    exact ⟨rfl, rfl⟩
  · obtain ⟨P', hP', hrec⟩ := step_reconciled hw hp h
    have hlp : P'.lpMint = P.lpMint := by
      rw [(hw'.shape.pool p P' hP').placed.lpMint, (hw.shape.pool p P hp).placed.lpMint]
    have hshares := hrec.shares
    rw [World.reservesAt_of hp, World.reservesAt_of hP', World.sharesAt_of hw.shape hp,
      World.sharesAt_of hw'.shape hP', hlp, ← (hw.shape.pool p P hp).placed.lpMint]
    exact ⟨hrec.reserves, by omega⟩

/-- **The log reconciles with the ledger.**  After every history, the amounts in its events add
up to the supply of every stablecoin, the reserves of every pool and the supply of its LP tokens,
once the burns past the programs and the locked minimum are added. -/
theorem log_reconciles {addressBytes : Pubkey → List UInt8} {as : List Action}
    (h : Run step (World.genesis addressBytes) as w) :
    (∀ m c, w.configs (.config m) = some c →
      w.ledger.supply m + (((World.genesis addressBytes).log as).map (Event.burned m)).sum +
          (as.map (Action.directBurn m)).sum =
        (((World.genesis addressBytes).log as).map (Event.minted m)).sum) ∧
    ∀ p P, w.pools p = some P →
      (P.reserveA, P.reserveB) + (((World.genesis addressBytes).log as).map (Event.paidOut p)).sum =
        (((World.genesis addressBytes).log as).map (Event.paidIn p)).sum ∧
      w.ledger.supply P.lpMint + (((World.genesis addressBytes).log as).map (Event.lpBurned p)).sum +
          (as.map (Action.directBurn P.lpMint)).sum =
        (((World.genesis addressBytes).log as).map (Event.lpMinted p)).sum + P.minimum := by
  have hgen := inv_genesis addressBytes
  have hw : w.Inv := h.invariant step_inv hgen
  constructor
  · intro m c hc
    obtain ⟨s, rfl⟩ := hw.shape.isStablecoin_key ⟨c, hc⟩
    have hstep : ∀ w a w', World.Inv w → step w a = .ok w' →
        w'.ledger.supply (.mint s) + ((a.emitted w).map (Event.burned (.mint s))).sum +
            a.directBurn (.mint s) =
          w.ledger.supply (.mint s) + ((a.emitted w).map (Event.minted (.mint s))).sum := by
      intro w a w' hw h
      obtain ⟨hm, hb⟩ := step_minted hw h (.mint s)
      rw [hm, hb]
      exact step_supply hw h s
    have hsum := h.reconcile step_inv hstep hgen
    simpa [World.log, World.genesis, Ledger.supply, Ledger.empty] using hsum
  · intro p P hP
    have hres := h.reconcile step_inv (fun _ _ _ hw h => (step_flows hw p h).1) hgen
    have hlp := h.reconcile step_inv (fun _ _ _ hw h => (step_flows hw p h).2) hgen
    rw [World.reservesAt_of hP] at hres
    rw [sum_cast, sum_cast, sum_cast, World.sharesAt_of hw.shape hP,
      ← (hw.shape.pool p P hP).placed.lpMint] at hlp
    have hres₀ : (World.genesis addressBytes).reservesAt p = 0 := rfl
    have hlp₀ : (World.genesis addressBytes).sharesAt p = 0 := rfl
    rw [hres₀, zero_add, List.map_const', List.sum_replicate, smul_zero, add_zero] at hres
    rw [hlp₀, zero_add] at hlp
    exact ⟨hres, by unfold World.log; omega⟩

end

/-- Of the 1,001 LP tokens of the lopsided pool the log has one. -/
theorem log_reconciles_lopsided :
    (((World.genesis Lopsided.addressBytes).log Lopsided.history).map
        (Event.minted Lopsided.mintA)).sum = lopsided.ledger.supply Lopsided.mintA ∧
      (((World.genesis Lopsided.addressBytes).log Lopsided.history).map
        (Event.lpMinted Lopsided.pool)).sum + 1000 =
          lopsided.ledger.supply lopsidedPool.lpMint := by
  obtain ⟨hm, hp⟩ := log_reconciles lopsided_run
  obtain ⟨c, hc⟩ : ∃ c, lopsided.configs (.config Lopsided.mintA) = some c :=
    Option.isSome_iff_exists.mp (by decide +kernel)
  have hcoin := hm _ c hc
  have hpool := (hp _ _ lopsided_pool).2
  have hb : (((World.genesis Lopsided.addressBytes).log Lopsided.history).map
      (Event.burned Lopsided.mintA)).sum = 0 := by decide +kernel
  have hlb : (((World.genesis Lopsided.addressBytes).log Lopsided.history).map
      (Event.lpBurned Lopsided.pool)).sum = 0 := by decide +kernel
  have hd : (Lopsided.history.map (Action.directBurn Lopsided.mintA)).sum = 0 := by decide
  have hld : (Lopsided.history.map (Action.directBurn lopsidedPool.lpMint)).sum = 0 := by decide
  have hmin : lopsidedPool.minimum = 1000 := by decide
  rw [hb, hd, add_zero, add_zero] at hcoin
  rw [hlb, hld, add_zero, add_zero, hmin] at hpool
  exact ⟨hcoin.symm, hpool.symm⟩

end StablecoinAmm
