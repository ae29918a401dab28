import StablecoinAmm.Pools.Value

/-!
# Pools — no free extraction

While only one user trades on a pool, pool and user together neither gain nor lose: the sum of a
reserve and of what the user holds of its mint stays the same, and so does the difference of the
LP supply and what the user holds of it (`Exchanged`).  The value behind an LP token does not
fall meanwhile, so whoever ends with no fewer LP tokens left no less in the pool
(`SharePool.not_drained`), and has taken nothing out: `no_free_extraction`.
-/

namespace StablecoinAmm
open Support Ledger

/-! ### What a call does to a user's holdings -/

namespace Ledger

variable {l l' : Ledger} {u other m n : Pubkey} {signer : Pubkey} {amount : ℕ}

theorem Transferred.paid {c : TransferChecked} (t : Transferred l c signer amount l')
    (h : Conserved l) (hs : l.HasAccount c.source m u) (hd : l.HasAccount c.destination m other)
    (ho : other ≠ u) : l'.holdings u m + amount = l.holdings u m := by
  simpa [ho] using t.holdings (u := u) (n := m) h hs hd

theorem Transferred.received {c : TransferChecked} (t : Transferred l c signer amount l')
    (h : Conserved l) (hs : l.HasAccount c.source m other) (hd : l.HasAccount c.destination m u)
    (ho : other ≠ u) : l'.holdings u m = l.holdings u m + amount := by
  simpa [ho] using t.holdings (u := u) (n := m) h hs hd

/-- A transfer of one mint leaves the holdings of another. -/
theorem Transferred.unrelated {c : TransferChecked} (t : Transferred l c signer amount l')
    (h : Conserved l) {s d : Pubkey} (hs : l.HasAccount c.source m s)
    (hd : l.HasAccount c.destination m d) (hm : m ≠ n) :
    l'.holdings u n = l.holdings u n := by
  simpa [hm] using t.holdings (u := u) (n := n) h hs hd

theorem Burned.paid {c : BurnChecked} (t : Burned l c signer amount l') (h : Conserved l)
    (hs : l.HasAccount c.source m u) : l'.holdings u m + amount = l.holdings u m := by
  simpa using t.holdings (u := u) (n := m) h hs

theorem Burned.unrelated {c : BurnChecked} (t : Burned l c signer amount l') (h : Conserved l)
    {s : Pubkey} (hs : l.HasAccount c.source m s) (hm : m ≠ n) :
    l'.holdings u n = l.holdings u n := by
  simpa [hm] using t.holdings (u := u) (n := n) h hs

theorem Minted.received {c : MintToChecked} (t : Minted l c signer amount l') (h : Conserved l)
    (hd : l.HasAccount c.destination m u) :
    l'.holdings u m = l.holdings u m + amount := by
  simpa using t.holdings (u := u) (n := m) h hd

theorem Minted.unrelated {c : MintToChecked} (t : Minted l c signer amount l') (h : Conserved l)
    {d : Pubkey} (hd : l.HasAccount c.destination m d) (hne : d ≠ u ∨ m ≠ n) :
    l'.holdings u n = l.holdings u n := by
  have := t.holdings (u := u) (n := n) h hd
  rwa [if_neg (by tauto), Nat.add_zero] at this

/-- One mint is paid to another, and a second mint received from it: what the user holds of
these, and of a third mint. -/
theorem Transferred.traded {cᵢ cₒ : TransferChecked} {sᵢ sₒ : Pubkey} {x y : ℕ} {l₁ : Ledger}
    (hc : Conserved l) (tᵢ : Transferred l cᵢ sᵢ x l₁) (tₒ : Transferred l₁ cₒ sₒ y l')
    (hu : l.HasAccount cᵢ.source m u) (hv : l.HasAccount cᵢ.destination m other)
    (hv' : l.HasAccount cₒ.source n other) (hu' : l.HasAccount cₒ.destination n u)
    (ho : other ≠ u) (hmn : m ≠ n) {k : Pubkey} (hkm : k ≠ m) (hkn : k ≠ n) :
    l'.holdings u m + x = l.holdings u m ∧ l'.holdings u n = l.holdings u n + y ∧
      l'.holdings u k = l.holdings u k ∧ l'.supply k = l.supply k := by
  have hc₁ := tᵢ.conserved hc
  have hv₁ := hv'.of_skeleton tᵢ.skeleton
  have hu₁ := hu'.of_skeleton tᵢ.skeleton
  refine ⟨?_, ?_, ?_, (tₒ.supplies k).trans (tᵢ.supplies k)⟩
  · rw [tₒ.unrelated hc₁ hv₁ hu₁ hmn.symm]
    exact tᵢ.paid hc hu hv ho
  · rw [tₒ.received hc₁ hv₁ hu₁ ho, tᵢ.unrelated hc hu hv hmn]
  · rw [tₒ.unrelated hc₁ hv₁ hu₁ hkn.symm, tᵢ.unrelated hc hu hv hkm.symm]

end Ledger

theorem LiquidityAccounts.Locked.unrelated {ctx : LiquidityAccounts} {k : ℕ} {l l' : Ledger}
    {user m n : Pubkey} (h : ctx.Locked k l l') (hc : l.Conserved)
    (hk : l.HasAccount ctx.lockedLp m ctx.pool) (ho : ctx.pool ≠ user) :
    l'.holdings user n = l.holdings user n := by
  rcases h with ⟨-, rfl⟩ | h
  · rfl
  · exact h.unrelated hc hk (.inl ho)

/-! ### What an instruction does to pool and user -/

/-- Pool and user together keep what they had. -/
structure Exchanged (user : Pubkey) (P P' : Pool) (l l' : Ledger) : Prop where
  tokenA : P'.reserveA + l'.holdings user P.mintA = P.reserveA + l.holdings user P.mintA
  tokenB : P'.reserveB + l'.holdings user P.mintB = P.reserveB + l.holdings user P.mintB
  lp : l'.supply P.lpMint + l.holdings user P.lpMint =
    l.supply P.lpMint + l'.holdings user P.lpMint

theorem Exchanged.trans {user : Pubkey} {P P₁ P' : Pool} {l l₁ l' : Ledger}
    (he : P₁.erase = P.erase) (h₁ : Exchanged user P P₁ l l₁) (h₂ : Exchanged user P₁ P' l₁ l') :
    Exchanged user P P' l l' := by
  obtain ⟨hA, hB, hL⟩ := Pool.mints_of_erase he
  obtain ⟨a₁, b₁, c₁⟩ := h₁
  obtain ⟨a₂, b₂, c₂⟩ := h₂
  rw [hA] at a₂
  rw [hB] at b₂
  rw [hL] at c₂
  exact ⟨a₂.trans a₁, b₂.trans b₁, by omega⟩

section
variable {w w' : World}

/-- The accounts and mints of a pool instruction, told apart. -/
structure PoolAccounts.Held (w : World) (ctx : PoolAccounts) : Prop where
  vaultA : w.ledger.HasAccount ctx.vaultA ctx.mintA ctx.pool
  vaultB : w.ledger.HasAccount ctx.vaultB ctx.mintB ctx.pool
  userA : w.ledger.HasAccount ctx.userA ctx.mintA ctx.user
  userB : w.ledger.HasAccount ctx.userB ctx.mintB ctx.user
  user_ne : ctx.pool ≠ ctx.user
  mints_ne : ctx.mintA ≠ ctx.mintB
  lpMint_ne_mintA : ctx.lpMint ≠ ctx.mintA
  lpMint_ne_mintB : ctx.lpMint ≠ ctx.mintB

theorem PoolAccounts.Valid.held {ctx : PoolAccounts} {a : PoolAccounts.Loaded}
    (hv : ctx.Valid w a) (hs : w.Shape) : ctx.Held w := by
  have hP := hs.pool _ _ hv.pool
  have hpl := hP.placed
  obtain ⟨sA, hA⟩ := hpl.mintA
  obtain ⟨sB, hB⟩ := hpl.mintB
  refine
    { vaultA := hv.vaultA_eq ▸ hv.mintA_eq ▸ hP.vaultA
      vaultB := hv.vaultB_eq ▸ hv.mintB_eq ▸ hP.vaultB
      userA := hv.userA
      userB := hv.userB
      user_ne := hv.user_ne.symm
      mints_ne := hv.mintA_eq ▸ hv.mintB_eq ▸ hpl.mints_ne
      lpMint_ne_mintA := ?_
      lpMint_ne_mintB := ?_ }
  · rw [← hv.lpMint_eq, hpl.lpMint, ← hv.mintA_eq, hA]; exact nofun
  · rw [← hv.lpMint_eq, hpl.lpMint, ← hv.mintB_eq, hB]; exact nofun

theorem PoolAccounts.SwapEffect.exchanged {ctx : PoolAccounts} {x : ℕ}
    {a : PoolAccounts.Loaded} {q : Amm.SwapQuote} {l₁ l₂ : Ledger} (hw : w.Inv) :
    ∀ {d : SwapDirection}, ctx.SwapEffect w d x a q l₁ l₂ w' →
      Exchanged ctx.user a.pool (a.pool.afterSwap q d) w.ledger l₂
  | .aToB, h => by
      have hh := h.valid.held hw.shape
      have hin : q.newReserveIn = a.pool.reserveA + x := h.sound.newReserveIn
      have hout : q.newReserveOut + q.amountOut = a.pool.reserveB := h.sound.newReserveOut
      obtain ⟨hA, hB, hL, hsup⟩ := h.paidIn.traded hw.conserved h.paidOut hh.userA hh.vaultA
        hh.vaultB hh.userB hh.user_ne hh.mints_ne hh.lpMint_ne_mintA hh.lpMint_ne_mintB
      refine ⟨?_, ?_, ?_⟩
      · rw [h.valid.mintA_eq]; dsimp only [Pool.afterSwap]; omega
      · rw [h.valid.mintB_eq]; dsimp only [Pool.afterSwap]; omega
      · rw [h.valid.lpMint_eq, hsup, hL]
  | .bToA, h => by
      have hh := h.valid.held hw.shape
      have hin : q.newReserveIn = a.pool.reserveB + x := h.sound.newReserveIn
      have hout : q.newReserveOut + q.amountOut = a.pool.reserveA := h.sound.newReserveOut
      obtain ⟨hB, hA, hL, hsup⟩ := h.paidIn.traded hw.conserved h.paidOut hh.userB hh.vaultB
        hh.vaultA hh.userA hh.user_ne hh.mints_ne.symm hh.lpMint_ne_mintB hh.lpMint_ne_mintA
      refine ⟨?_, ?_, ?_⟩
      · rw [h.valid.mintA_eq]; dsimp only [Pool.afterSwap]; omega
      · rw [h.valid.mintB_eq]; dsimp only [Pool.afterSwap]; omega
      · rw [h.valid.lpMint_eq, hsup, hL]

theorem LiquidityAccounts.RemoveEffect.exchanged {ctx : LiquidityAccounts} {n : ℕ}
    {a : LiquidityAccounts.Loaded} {q : Amm.RemoveLiquidityQuote} {l₁ l₂ l₃ : Ledger}
    (hw : w.Inv) (h : ctx.RemoveEffect w n a q l₁ l₂ l₃ w') :
    Exchanged ctx.user a.pool
      { a.pool with reserveA := q.newReserveA, reserveB := q.newReserveB } w.ledger l₃ := by
  have hv := h.valid
  have hh := hv.toValid.held hw.shape
  have hc := hw.conserved
  have hc₁ := h.burned.conserved hc
  have hc₂ := h.paidA.conserved hc₁
  have hA₁ := hh.vaultA.of_skeleton h.burned.skeleton
  have hUA₁ := hh.userA.of_skeleton h.burned.skeleton
  have hskel := h.paidA.skeleton.trans h.burned.skeleton
  have hB₂ := hh.vaultB.of_skeleton hskel
  have hUB₂ := hh.userB.of_skeleton hskel
  have hqA := h.sound.newReserveA
  have hqB := h.sound.newReserveB
  have hA := (h.paidB.unrelated (u := ctx.user) hc₂ hB₂ hUB₂ hh.mints_ne.symm).trans
    (h.paidA.received hc₁ hA₁ hUA₁ hh.user_ne)
  rw [h.burned.unrelated hc hv.userLp hh.lpMint_ne_mintA] at hA
  have hB := h.paidB.received hc₂ hB₂ hUB₂ hh.user_ne
  rw [h.paidA.unrelated hc₁ hA₁ hUA₁ hh.mints_ne,
    h.burned.unrelated hc hv.userLp hh.lpMint_ne_mintB] at hB
  have hL := (h.paidB.unrelated (u := ctx.user) hc₂ hB₂ hUB₂ hh.lpMint_ne_mintB.symm).trans
    (h.paidA.unrelated hc₁ hA₁ hUA₁ hh.lpMint_ne_mintA.symm)
  have hburn := h.burned.paid hc hv.userLp
  have hsup := h.burned.supplies ctx.lpMint
  rw [if_pos rfl] at hsup
  refine ⟨?_, ?_, ?_⟩
  · rw [hv.mintA_eq, hA]; dsimp only; omega
  · rw [hv.mintB_eq, hB]; dsimp only; omega
  · rw [hv.lpMint_eq, h.paidB.supplies, h.paidA.supplies, hL]; omega

theorem LiquidityAccounts.AddEffect.exchanged {ctx : LiquidityAccounts} {x y : ℕ}
    {a : LiquidityAccounts.Loaded} {t : DepositTerms} {l₁ l₂ l₃ l₄ : Ledger} (hw : w.Inv)
    (hseed : (a.pool.state w.ledger).Seeded) (h : ctx.AddEffect w x y a t l₁ l₂ l₃ l₄ w') :
    Exchanged ctx.user a.pool
      { a.pool with reserveA := a.pool.reserveA + t.amountA,
                    reserveB := a.pool.reserveB + t.amountB } w.ledger l₄ := by
  have hv := h.valid
  have hh := hv.toValid.held hw.shape
  have hlk := hv.lockedLp_eq ▸ (hw.shape.pool _ _ hv.pool).lockedLp
  have hc := hw.conserved
  have hc₁ := h.paidA.conserved hc
  have hc₂ := h.paidB.conserved hc₁
  have hc₃ := Conserved.locked h.locked hc₂
  have hB₁ := hh.vaultB.of_skeleton h.paidA.skeleton
  have hUB₁ := hh.userB.of_skeleton h.paidA.skeleton
  have hlk₂ := hlk.of_skeleton (h.paidB.skeleton.trans h.paidA.skeleton)
  have hLp₃ := hv.userLp.of_skeleton
    (h.locked.moved.skeleton.trans (h.paidB.skeleton.trans h.paidA.skeleton))
  -- nothing is locked but with the first deposit
  have hlock : t.lpToLock = 0 := by
    cases h.sound with
    | first hs => exact absurd hseed hs.not_seeded
    | later => rfl
  have hA := (h.minted.unrelated (u := ctx.user) hc₃ hLp₃ (.inr hh.lpMint_ne_mintA)).trans
    (h.locked.unrelated hc₂ hlk₂ hh.user_ne)
  rw [h.paidB.unrelated hc₁ hUB₁ hB₁ hh.mints_ne.symm] at hA
  have hpaidA := h.paidA.paid hc hh.userA hh.vaultA hh.user_ne
  have hB := (h.minted.unrelated (u := ctx.user) hc₃ hLp₃ (.inr hh.lpMint_ne_mintB)).trans
    (h.locked.unrelated hc₂ hlk₂ hh.user_ne)
  have hpaidB := h.paidB.paid hc₁ hUB₁ hB₁ hh.user_ne
  rw [h.paidA.unrelated hc hh.userA hh.vaultA hh.mints_ne] at hpaidB
  have hL := h.minted.received hc₃ hLp₃
  rw [h.locked.unrelated hc₂ hlk₂ hh.user_ne,
    h.paidB.unrelated hc₁ hUB₁ hB₁ hh.lpMint_ne_mintB.symm,
    h.paidA.unrelated hc hh.userA hh.vaultA hh.lpMint_ne_mintA.symm] at hL
  have hsup := (h.minted.supplies ctx.lpMint).trans
    (congrArg (· + _) (h.locked.supplies ctx.lpMint))
  rw [if_pos rfl, if_pos rfl, h.paidB.supplies, h.paidA.supplies, hlock] at hsup
  refine ⟨?_, ?_, ?_⟩
  · rw [hv.mintA_eq, hA]; dsimp only; omega
  · rw [hv.mintB_eq, hB]; dsimp only; omega
  · rw [hv.lpMint_eq, hL, hsup]; omega

/-! ### Runs of one user -/

/-- A pool instruction of `user` on the pool `p`. -/
def Action.TradesOn (p user : Pubkey) : Action → Prop
  | .addLiquidity ctx .. => ctx.pool = p ∧ ctx.user = user
  | .removeLiquidity ctx .. => ctx.pool = p ∧ ctx.user = user
  | .swap ctx .. => ctx.pool = p ∧ ctx.user = user
  | _ => False

variable {p user : Pubkey} {P : Pool}

theorem Action.Effect.exchanged (hw : w.Inv) (hP : w.pools p = some P)
    (hseed : (P.state w.ledger).Seeded) : ∀ {a : Action}, a.TradesOn p user → a.Effect w w' →
    ∃ P', w'.pools p = some P' ∧ P'.erase = P.erase ∧
      Exchanged user P P' w.ledger w'.ledger
  | .addLiquidity .., htr, ⟨_, _, _, _, _, _, h⟩ => by
      obtain ⟨rfl, rfl⟩ := htr
      obtain rfl := Option.some.inj (hP.symm.trans h.valid.pool)
      rw [h.result]
      exact ⟨_, World.setPool_pools_self .., rfl, h.exchanged hw hseed⟩
  | .removeLiquidity .., htr, ⟨_, _, _, _, _, h⟩ => by
      obtain ⟨rfl, rfl⟩ := htr
      obtain rfl := Option.some.inj (hP.symm.trans h.valid.pool)
      rw [h.result]
      exact ⟨_, World.setPool_pools_self .., rfl, h.exchanged hw⟩
  | .swap .., htr, ⟨_, _, _, _, h⟩ => by
      obtain ⟨rfl, rfl⟩ := htr
      obtain rfl := Option.some.inj (hP.symm.trans h.valid.pool)
      rw [h.result]
      exact ⟨_, World.setPool_pools_self .., Pool.erase_afterSwap .., h.exchanged hw⟩

theorem run_exchanged (hw : w.Inv) (hP : w.pools p = some P)
    (hseed : (P.state w.ledger).Seeded) {as : List Action} (has : ∀ a ∈ as, a.TradesOn p user)
    (t : Run step w as w') :
    ∃ P', w'.pools p = some P' ∧ P'.erase = P.erase ∧
      Exchanged user P P' w.ledger w'.ledger := by
  induction t generalizing P with
  | refl => exact ⟨P, hP, rfl, rfl, rfl, rfl⟩
  | more h _ ih =>
      have heff := step_effect hw h
      have hw₁ := heff.inv hw
      obtain ⟨P₁, hP₁, he₁, hx⟩ := heff.exchanged hw hP hseed (has _ (by simp))
      obtain ⟨P₂, hP₂, -, hstep⟩ := heff.refines hw.shape hw₁.conserved hP
      obtain rfl := Option.some.inj (hP₁.symm.trans hP₂)
      obtain ⟨P', hP', he, hx'⟩ := ih hw₁ hP₁ (hstep.seeded hseed)
        fun a ha => has a (by simp [ha])
      exact ⟨P', hP', he.trans he₁, hx.trans he₁ hx'⟩

/-- **No free extraction.** -/
theorem no_free_extraction (hw : w.Reachable) (hP : w.pools p = some P)
    (hseed : (P.state w.ledger).Seeded) {as : List Action} (has : ∀ a ∈ as, a.TradesOn p user)
    (t : Run step w as w')
    (hlp : w.ledger.holdings user P.lpMint ≤ w'.ledger.holdings user P.lpMint) :
    ¬ (w.ledger.holdings user P.mintA ≤ w'.ledger.holdings user P.mintA ∧
      w.ledger.holdings user P.mintB ≤ w'.ledger.holdings user P.mintB ∧
      (w.ledger.holdings user P.mintA < w'.ledger.holdings user P.mintA ∨
        w.ledger.holdings user P.mintB < w'.ledger.holdings user P.mintB)) := by
  rintro ⟨hA, hB, hlt⟩
  obtain ⟨P', hP', -, hx⟩ := run_exchanged hw.inv hP hseed has t
  obtain ⟨P'', hP'', he, hs⟩ := run_refines hw.inv hP t
  obtain rfl := Option.some.inj (hP'.symm.trans hP'')
  obtain ⟨hxA, hxB, hxL⟩ := hx
  have hL : (P.state w.ledger).lpSupply ≤ (P'.state w'.ledger).lpSupply := by
    simp only [Pool.state, (Pool.mints_of_erase he).2.2]
    omega
  -- the pool is worth no less and has no fewer LP tokens out, so it kept its reserves
  obtain ⟨hrA, hrB⟩ := SharePool.not_drained (hs.worth_le hseed) hL
    (show P'.reserveA ≤ P.reserveA by omega) (show P'.reserveB ≤ P.reserveB by omega)
  have hrA' : P'.reserveA = P.reserveA := hrA
  have hrB' : P'.reserveB = P.reserveB := hrB
  omega

end

/-- From the lopsided pool: there and back. -/
def lopsidedRoundTrip : List Action :=
  [.swap Lopsided.accounts.toPoolAccounts .aToB 3 0,
    .swap Lopsided.accounts.toPoolAccounts .bToA 600000 0]

theorem lopsidedRoundTrip_run :
    Run step lopsided lopsidedRoundTrip (lopsided.afterAll lopsidedRoundTrip) :=
  run_afterAll (by decide +kernel)

theorem no_free_extraction_lopsided :
    ∃ w', Run step lopsided lopsidedRoundTrip w' ∧
      w'.ledger.holdings Lopsided.user (.lpMint Lopsided.pool) =
        lopsided.ledger.holdings Lopsided.user (.lpMint Lopsided.pool) ∧
      ¬ (lopsided.ledger.holdings Lopsided.user Lopsided.mintA ≤
          w'.ledger.holdings Lopsided.user Lopsided.mintA ∧
        lopsided.ledger.holdings Lopsided.user Lopsided.mintB ≤
          w'.ledger.holdings Lopsided.user Lopsided.mintB ∧
        (lopsided.ledger.holdings Lopsided.user Lopsided.mintA <
          w'.ledger.holdings Lopsided.user Lopsided.mintA ∨
        lopsided.ledger.holdings Lopsided.user Lopsided.mintB <
          w'.ledger.holdings Lopsided.user Lopsided.mintB)) := by
  have htrades : ∀ a ∈ lopsidedRoundTrip, a.TradesOn Lopsided.pool Lopsided.user := by
    simp [lopsidedRoundTrip, Action.TradesOn, Lopsided.accounts]
  have hrun := lopsidedRoundTrip_run
  obtain ⟨P', -, -, hx⟩ := run_exchanged lopsided_reachable.inv lopsided_pool lopsided_seeded
    htrades hrun
  -- swaps leave the LP supply, and with it what the user holds of it
  have hsup : (lopsided.afterAll lopsidedRoundTrip).ledger.supply lopsidedPool.lpMint =
      lopsided.ledger.supply lopsidedPool.lpMint := by decide +kernel
  have hlp := hx.lp
  rw [hsup] at hlp
  have hheld := (Nat.add_left_cancel hlp).symm
  exact ⟨_, hrun, hheld, no_free_extraction lopsided_reachable lopsided_pool lopsided_seeded
    htrades hrun hheld.ge⟩

end StablecoinAmm
