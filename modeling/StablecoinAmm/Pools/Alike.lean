import StablecoinAmm.Chain.Alike
import StablecoinAmm.Pools.Surplus

/-!
# Pools — an instruction in two worlds

Two worlds are `Alike` when their ledgers are and nothing else differs but counters of the
issuer.  An instruction of the AMM whose user is no donor ends alike in both (`swap_agree`,
`addLiquidity_agree`, `removeLiquidity_agree`, `initializePool_agree`): what it reads of a vault
is only whether the vault covers the reserve, which it does in both.
-/

namespace StablecoinAmm
open Support Ledger

/-- The worlds differ in what donors have and give, and in counters of the issuer. -/
structure World.Alike (donor : Pubkey → Prop) (w w' : World) : Prop where
  addressBytes : w'.addressBytes = w.addressBytes
  ledger : w.ledger.Alike donor w'.ledger
  configs : ∀ k, (w'.configs k).map MintConfig.erase = (w.configs k).map MintConfig.erase
  walletPolicies : w'.walletPolicies = w.walletPolicies
  pools : w'.pools = w.pools

section
variable {donor : Pubkey → Prop} {w w' : World}

namespace World.Alike

theorem refl (donor : Pubkey → Prop) (w : World) : w.Alike donor w :=
  ⟨rfl, .refl donor _, fun _ => rfl, rfl, rfl⟩

theorem symm (h : w.Alike donor w') : w'.Alike donor w :=
  ⟨h.addressBytes.symm, h.ledger.symm, fun k => (h.configs k).symm, h.walletPolicies.symm,
    h.pools.symm⟩

theorem trans {w₁ : World} (h : w.Alike donor w₁) (h' : w₁.Alike donor w') : w.Alike donor w' :=
  ⟨h'.addressBytes.trans h.addressBytes, h.ledger.trans h'.ledger,
    fun k => (h'.configs k).trans (h.configs k), h'.walletPolicies.trans h.walletPolicies,
    h'.pools.trans h.pools⟩

/-- The same write to the pool follows calls that keep the ledgers alike. -/
theorem write (h : w.Alike donor w') {l l' : Ledger} (hl : l.Alike donor l') (p : Pubkey)
    (P : Pool) :
    ({ w with ledger := l }.setPool p P).Alike donor ({ w' with ledger := l' }.setPool p P) where
  addressBytes := h.addressBytes
  ledger := hl
  configs := h.configs
  walletPolicies := h.walletPolicies
  pools := by simp only [setPool, h.pools]

end World.Alike

/-- The LP tokens that a pool has locked are not apart. -/
theorem World.Shape.lockedLp_not_apart (hs : w.Shape) {p : Pubkey} {P : Pool}
    (hP : w.pools p = some P) : ¬ w.ledger.Apart donor P.lockedLp := by
  have hsh := hs.pool p P hP
  refine hsh.lockedLp.not_apart (fun hp => ?_) fun q m => ?_
  · exact absurd rfl (hs.signer_ne hP hp)
  · rw [hsh.placed.lockedLp]; exact nofun

/-- No key has an account where a vault belongs. -/
theorem World.VaultsHeld.ne (hV : w.VaultsHeld) (hs : w.Shape) {k m o : Pubkey}
    (hk : w.ledger.HasAccount k m o) (ho : o.isSigner) (p n : Pubkey) : k ≠ .vault p n := by
  rintro rfl
  obtain ⟨a, ha, -⟩ := id hk
  obtain ⟨P, hP, hv⟩ := hV p n a ha
  have hsh := hs.pool p P hP
  rcases hv with hv | hv
  · exact (hv ▸ hsh.vaultA).ne_of_owner hk (hs.signer_ne hP ho).symm rfl
  · exact (hv ▸ hsh.vaultB).ne_of_owner hk (hs.signer_ne hP ho).symm rfl

/-- What a user has who is no donor is not apart. -/
theorem World.VaultsHeld.not_apart (hV : w.VaultsHeld) (hs : w.Shape) {k m o : Pubkey}
    (hk : w.ledger.HasAccount k m o) (hsig : o.isSigner) (ho : ¬ donor o) :
    ¬ w.ledger.Apart donor k :=
  hk.not_apart (fun _ => ho) (hV.ne hs hk hsig)

/-! ### Account validation -/

/-- What was read from two worlds, as far as the checks look at it. -/
structure PoolAccounts.Loaded.Alike (a b : PoolAccounts.Loaded) : Prop where
  pool : b.pool = a.pool
  configA : b.configA.erase = a.configA.erase
  configB : b.configB.erase = a.configB.erase
  vaultA : b.vaultA.erase = a.vaultA.erase
  vaultB : b.vaultB.erase = a.vaultB.erase
  lpMint : b.lpMint.erase = a.lpMint.erase
  userA : b.userA.erase = a.userA.erase
  userB : b.userB.erase = a.userB.erase
  policyA : b.policyA = a.policyA
  policyB : b.policyB = a.policyB

structure LiquidityAccounts.Loaded.Alike (a b : LiquidityAccounts.Loaded) : Prop
    extends a.toLoaded.Alike b.toLoaded where
  lockedLp : b.lockedLp.erase = a.lockedLp.erase

theorem PoolAccounts.load_agree (h : w.Alike donor w') (ctx : PoolAccounts) :
    Agree PoolAccounts.Loaded.Alike (ctx.load w) (ctx.load w') := by
  have htok := token_map h.ledger.skeleton
  have hmint := mint_map h.ledger.skeleton
  refine .require Iff.rfl fun _ _ => ?_
  refine .seq (by rw [h.pools]) fun pool _ _ => ?_
  refine .okOr (hmint _) fun mintA mintA' _ _ _ => ?_
  refine .okOr (hmint _) fun mintB mintB' _ _ _ => ?_
  refine .okOr (h.configs _) fun configA configA' _ _ hca => ?_
  refine .okOr (h.configs _) fun configB configB' _ _ hcb => ?_
  refine .okOr (htok _) fun vaultA vaultA' _ _ hva => ?_
  refine .okOr (htok _) fun vaultB vaultB' _ _ hvb => ?_
  refine .okOr (hmint _) fun lpMint lpMint' _ _ hlp => ?_
  refine .okOr (htok _) fun userA userA' _ _ hua => ?_
  refine .okOr (htok _) fun userB userB' _ _ hub => ?_
  refine .seq (by rw [h.walletPolicies]) fun policyA _ _ => ?_
  refine .seq (by rw [h.walletPolicies]) fun policyB _ _ => ?_
  exact .pure ⟨rfl, hca, hcb, hva, hvb, hlp, hua, hub, rfl, rfl⟩

theorem requireConfig_congr {c c' : MintConfig} (h : c'.erase = c.erase) (key mint : Pubkey) :
    requireConfig key mint c = requireConfig key mint c' := by
  rw [requireConfig, requireConfig, (World.MintConfig.erase_eq h).1]

theorem requireUserAccount_congr {a b : TokenAccount} (h : b.erase = a.erase)
    (key reserved mint user : Pubkey) :
    requireUserAccount key reserved mint user a = requireUserAccount key reserved mint user b := by
  rw [TokenAccount.eq_of_erase h]; rfl

theorem PoolAccounts.validate_agree (h : w.Alike donor w') (ctx : PoolAccounts) :
    Agree PoolAccounts.Loaded.Alike (ctx.validate w) (ctx.validate w') := by
  refine (ctx.load_agree h).bind fun a b _ _ hab => ?_
  refine .seq (by rw [hab.pool]) fun _ _ _ => ?_
  refine .seq (requireConfig_congr hab.configA ..) fun _ _ _ => ?_
  refine .seq (requireConfig_congr hab.configB ..) fun _ _ _ => ?_
  refine .seq (hab.pool ▸ requireUserAccount_congr hab.userA ..) fun _ _ _ => ?_
  refine .seq (hab.pool ▸ requireUserAccount_congr hab.userB ..) fun _ _ _ => ?_
  refine .seq (by rw [hab.policyA]) fun _ _ _ => ?_
  refine .seq (by rw [hab.policyB]) fun _ _ _ => ?_
  exact .pure hab

theorem LiquidityAccounts.validate_agree (h : w.Alike donor w') (ctx : LiquidityAccounts) :
    Agree LiquidityAccounts.Loaded.Alike (ctx.validate w) (ctx.validate w') := by
  have htok := token_map h.ledger.skeleton
  refine (ctx.toPoolAccounts.load_agree h).bind fun a b _ _ hab => ?_
  refine .okOr (htok _) fun lockedLp lockedLp' _ _ hll => ?_
  refine .okOr (htok _) fun userLp userLp' _ _ hul => ?_
  refine .seq (by rw [hab.pool]) fun _ _ _ => ?_
  refine .seq (by rw [hab.pool]) fun _ _ _ => ?_
  refine .seq (requireConfig_congr hab.configA ..) fun _ _ _ => ?_
  refine .seq (requireConfig_congr hab.configB ..) fun _ _ _ => ?_
  refine .seq (hab.pool ▸ requireUserAccount_congr hab.userA ..) fun _ _ _ => ?_
  refine .seq (hab.pool ▸ requireUserAccount_congr hab.userB ..) fun _ _ _ => ?_
  refine .seq (hab.pool ▸ requireUserAccount_congr hul ..) fun _ _ _ => ?_
  refine .seq (by rw [hab.policyA]) fun _ _ _ => ?_
  refine .seq (by rw [hab.policyB]) fun _ _ _ => ?_
  exact .pure { hab with lockedLp := hll }

section Checks
variable {ctx : PoolAccounts} {a b : PoolAccounts.Loaded}

theorem PoolAccounts.Loaded.Alike.unpaused (h : a.Alike b) :
    ensureUnpaused a.configA a.configB = ensureUnpaused b.configA b.configB := by
  obtain ⟨-, -, -, hA⟩ := World.MintConfig.erase_eq h.configA
  obtain ⟨-, -, -, hB⟩ := World.MintConfig.erase_eq h.configB
  rw [ensureUnpaused, ensureUnpaused, hA, hB]

theorem PoolAccounts.Loaded.Alike.children (h : a.Alike b) (ctx : PoolAccounts) :
    ensureChildren ctx a = ensureChildren ctx b := by
  rw [ensureChildren, ensureChildren, h.pool, TokenAccount.eq_of_erase h.vaultA,
    TokenAccount.eq_of_erase h.vaultB, Mint.eq_of_erase h.lpMint]

theorem LiquidityAccounts.Loaded.Alike.locked {a b : LiquidityAccounts.Loaded} (h : a.Alike b)
    (ctx : LiquidityAccounts) : ensureLockedAccount ctx a = ensureLockedAccount ctx b := by
  rw [ensureLockedAccount, ensureLockedAccount, TokenAccount.eq_of_erase h.lockedLp]

/-- Stablecoins stay within their caps. -/
theorem World.Inv.capped (hw : w.Inv) {m : Pubkey} {c : MintConfig}
    (hc : w.configs (.config m) = some c) : w.ledger.Capped m := by
  have hm : m = c.mint := Pubkey.config.inj (hw.shape.config _ c hc).1.key
  have ha := hw.accounted _ c hc
  exact ⟨hw.conserved, hm ▸ ha.supply_le.trans ha.supplyCap_le⟩

theorem PoolAccounts.Valid.capped (hw : w.Inv) (hv : ctx.Valid w a) :
    w.ledger.Capped ctx.mintA ∧ w.ledger.Capped ctx.mintB :=
  ⟨hw.capped (hv.configA_key ▸ hv.configA), hw.capped (hv.configB_key ▸ hv.configB)⟩

end Checks

/-! ### `swap` -/

section Swap
variable {ctx : PoolAccounts} {a : PoolAccounts.Loaded} {d : SwapDirection}

theorem PoolAccounts.Valid.transferIn_capped (hw : w.Inv) (hv : ctx.Valid w a) :
    ∀ d, w.ledger.Capped (ctx.transferIn d).mint
  | .aToB => (hv.capped hw).1
  | .bToA => (hv.capped hw).2

theorem PoolAccounts.Valid.transferOut_capped (hw : w.Inv) (hv : ctx.Valid w a) :
    ∀ d, w.ledger.Capped (ctx.transferOut d).mint
  | .aToB => (hv.capped hw).2
  | .bToA => (hv.capped hw).1

/-- The user pays from an account that is the same in both worlds. -/
theorem World.Alike.transferIn (h : w.Alike donor w') (hs : w.Shape) (hV : w.VaultsHeld)
    (hv : ctx.Valid w a) (hu : ¬ donor ctx.user) : ∀ d,
      w'.ledger.balance (ctx.transferIn d).source = w.ledger.balance (ctx.transferIn d).source
  | .aToB => h.ledger.balance _ (hV.not_apart hs hv.userA hv.signer hu)
  | .bToA => h.ledger.balance _ (hV.not_apart hs hv.userB hv.signer hu)

/-- The vault that pays has what it pays. -/
theorem PoolAccounts.Valid.covers (hs : w.Shape) (hv : ctx.Valid w a)
    (hP : (a.pool.state w.ledger).Valid) {q : Amm.SwapQuote} {x n : ℕ} {l : Ledger} :
    ∀ {d : SwapDirection}, q.Sound x (a.pool.reserves d).1 (a.pool.reserves d).2 →
      Transferred w.ledger (ctx.transferIn d) ctx.user n l →
      q.amountOut ≤ l.balance (ctx.transferOut d).source
  | .aToB, hq, hin => by
      have hap := hv.apart hs
      have hkept : l.balance ctx.vaultB = w.ledger.balance ctx.vaultB :=
        hin.elsewhere hap.vaultB_userA hap.vaults.symm
      refine (Nat.le_of_add_left_le hq.newReserveOut.le).trans (hP.vaults.2.trans ?_)
      exact (congrArg w.ledger.balance hv.vaultB_eq).trans_le hkept.ge
  | .bToA, hq, hin => by
      have hap := hv.apart hs
      have hkept : l.balance ctx.vaultA = w.ledger.balance ctx.vaultA :=
        hin.elsewhere hap.vaultA_userB hap.vaults
      refine (Nat.le_of_add_left_le hq.newReserveOut.le).trans (hP.vaults.1.trans ?_)
      exact (congrArg w.ledger.balance hv.vaultA_eq).trans_le hkept.ge

theorem swap_agree (h : w.Alike donor w') (hw : w.Inv) (hw' : w'.Inv) (hV : w.VaultsHeld)
    (ctx : PoolAccounts) (d : SwapDirection) (amountIn minAmountOut : ℕ) (hu : ¬ donor ctx.user) :
    Agree (World.Alike donor) (swap w ctx d amountIn minAmountOut)
      (swap w' ctx d amountIn minAmountOut) := by
  refine (ctx.validate_agree h).bind fun a b ha hb hab => ?_
  have hv := (ctx.validate_sat w).ok ha
  have hv' := (ctx.validate_sat w').ok hb
  have hP := hw.pools _ _ hv.pool
  have hP' := hw'.pools _ _ hv'.pool
  have hfee := (hw.shape.pool _ _ hv.pool).placed.feeBps
  have hfee' := (hw'.shape.pool _ _ hv'.pool).placed.feeBps
  refine .require Iff.rfl fun _ _ => ?_
  refine .seq hab.unpaused fun _ _ _ => ?_
  refine .seq (hab.children ctx) fun _ _ _ => ?_
  refine .step (ensureSolvent_of hP hv.vaultA_amount hv.vaultB_amount)
    (ensureSolvent_of hP' hv'.vaultA_amount hv'.vaultB_amount) ?_
  rw [hab.pool]
  refine .seq rfl fun oldK hold _ => ?_
  refine .seq rfl fun q hquote _ => ?_
  obtain ⟨-, rfl⟩ := checkedMul_eq_some.mp (okOr_ok_iff.mp hold)
  obtain ⟨hq, hseed⟩ := (quoteSwap_sat hP hfee d amountIn).ok hquote
  obtain ⟨hq', hseed'⟩ := (quoteSwap_sat hP' hfee' d amountIn).ok (hab.pool ▸ hquote)
  refine .require Iff.rfl fun _ _ => ?_
  -- the user pays the same, and either vault covers the payment
  refine .bind (.mapError (transferChecked_agree h.ledger.skeleton
    (by rw [h.transferIn hw.shape hV hv hu d]) (hv.transferIn_capped hw d)
    (hv'.transferIn_capped hw' d))) ?_
  rintro l₁ l₁' - - ⟨hin, hin'⟩
  have hl₁ := h.ledger.transferred hin hin'
  refine .bind (.mapError (transferChecked_agree hl₁.skeleton
    (iff_of_true (hv.covers hw.shape hP hq hin) (hv'.covers hw'.shape hP' hq' hin'))
    ((hv.transferOut_capped hw d).transferred hin)
    ((hv'.transferOut_capped hw' d).transferred hin'))) ?_
  rintro l₂ l₂' - - ⟨hout, hout'⟩
  rw [← hv.pool_key] at hout hout'
  have hend := swap_settles hw'.shape hv' hseed' d hq' hin' hout'
  rw [hab.pool] at hend
  exact .of_ok (swap_settles hw.shape hv hseed d hq hin hout) hend
    (h.write (hl₁.transferred hout hout') _ _)

end Swap

/-! ### The LP side -/

section Liquidity
variable {ctx : LiquidityAccounts} {a b : LiquidityAccounts.Loaded}

theorem PoolAccounts.Valid.lpMint_key {ctx : PoolAccounts} {a : PoolAccounts.Loaded}
    (hv : ctx.Valid w a) (hs : w.Shape) : ctx.lpMint = .lpMint ctx.pool := by
  rw [← hv.lpMint_eq, (hs.pool _ _ hv.pool).placed.lpMint]

/-- Both worlds show the same LP mint and the same locked account. -/
theorem LiquidityAccounts.Loaded.Alike.lp (hab : a.Alike b) (h : w.Alike donor w')
    (hs : w.Shape) (hv : ctx.Valid w a) (hv' : ctx.Valid w' b) :
    b.lpMint = a.lpMint ∧ b.lockedLp.amount = a.lockedLp.amount := by
  have hsup : b.lpMint.supply = a.lpMint.supply := by
    rw [← supply_of hv.lpMint, ← supply_of hv'.lpMint, hv.lpMint_key hs]
    exact h.ledger.lpSupply _
  refine ⟨by rw [Mint.eq_of_erase hab.lpMint, hsup], ?_⟩
  rw [← balance_of hv.lockedLp, ← balance_of hv'.lockedLp, ← hv.lockedLp_eq]
  exact h.ledger.balance _ (hs.lockedLp_not_apart hv.pool)

/-- Only a pool in order passes the check. -/
theorem ensureSeeded_ok {P : Pool} {l : Ledger} (h : (P.state l).Valid) {lp locked : ℕ} {u : Unit}
    (hok : ensureSeeded P lp locked = .ok u) : (P.state l).Seeded := by
  refine h.resolve_left fun hu => ?_
  cases (ensureSeeded_of_unseeded hu lp locked).symm.trans hok

/-- The vaults have what a withdrawal pays. -/
theorem LiquidityAccounts.Valid.coversA (hs : w.Shape) (hv : ctx.Valid w a)
    (hP : (a.pool.state w.ledger).Valid) {q : Amm.RemoveLiquidityQuote} {n L : ℕ} {l₁ : Ledger}
    (hq : q.Sound n a.pool.reserveA a.pool.reserveB L)
    (hburn : Burned w.ledger ⟨ctx.lpMint, ctx.userLp, ctx.user⟩ ctx.user n l₁) :
    q.amountA ≤ l₁.balance ctx.vaultA := by
  rw [hburn.elsewhere (hv.userLp_apart hs).1, ← hv.vaultA_eq]
  exact (Nat.le_of_add_left_le hq.newReserveA.le).trans hP.vaults.1

theorem LiquidityAccounts.Valid.coversB (hs : w.Shape) (hv : ctx.Valid w a)
    (hP : (a.pool.state w.ledger).Valid) {q : Amm.RemoveLiquidityQuote} {n L : ℕ} {l₁ l₂ : Ledger}
    (hq : q.Sound n a.pool.reserveA a.pool.reserveB L)
    (hburn : Burned w.ledger ⟨ctx.lpMint, ctx.userLp, ctx.user⟩ ctx.user n l₁)
    (hA : Transferred l₁ ⟨ctx.vaultA, ctx.mintA, ctx.userA, ctx.pool⟩ ctx.pool q.amountA l₂) :
    q.amountB ≤ l₂.balance ctx.vaultB := by
  have hap := hv.toValid.apart hs
  rw [hA.elsewhere hap.vaults.symm hap.vaultB_userA, hburn.elsewhere (hv.userLp_apart hs).2.1,
    ← hv.vaultB_eq]
  exact (Nat.le_of_add_left_le hq.newReserveB.le).trans hP.vaults.2

theorem removeLiquidity_agree (h : w.Alike donor w') (hw : w.Inv) (hw' : w'.Inv)
    (hV : w.VaultsHeld) (ctx : LiquidityAccounts) (lpAmount minAOut minBOut : ℕ)
    (hu : ¬ donor ctx.user) :
    Agree (World.Alike donor) (removeLiquidity w ctx lpAmount minAOut minBOut)
      (removeLiquidity w' ctx lpAmount minAOut minBOut) := by
  refine (ctx.validate_agree h).bind fun a b ha hb hab => ?_
  have hv := (ctx.validate_sat w).ok ha
  have hv' := (ctx.validate_sat w').ok hb
  have hP := hw.pools _ _ hv.pool
  have hP' := hw'.pools _ _ hv'.pool
  obtain ⟨hlp, hlk⟩ := hab.lp h hw.shape hv hv'
  refine .require Iff.rfl fun _ _ => ?_
  refine .seq hab.unpaused fun _ _ _ => ?_
  refine .seq (hab.children ctx.toPoolAccounts) fun _ _ _ => ?_
  refine .seq (hab.locked ctx) fun _ _ _ => ?_
  refine .step (ensureSolvent_of hP hv.vaultA_amount hv.vaultB_amount)
    (ensureSolvent_of hP' hv'.vaultA_amount hv'.vaultB_amount) ?_
  rw [hab.pool, hlp, hlk]
  refine .seq rfl fun _ hok _ => ?_
  refine .seq rfl fun q hquote _ => ?_
  have hseed := ensureSeeded_ok hP hok
  have hseed' := ensureSeeded_ok hP' (hab.pool ▸ hok)
  have hq := Amm.quoteRemoveLiquidity_ok (mapError_ok_iff.mp hquote)
  have hq' := hq
  rw [hv.lpMint_supply] at hq
  rw [← hab.pool, ← hlp, hv'.lpMint_supply] at hq'
  refine .require Iff.rfl fun hkept _ => ?_
  have hkept' := hkept
  rw [hv.lockedLp_amount] at hkept
  rw [← hlk, hv'.lockedLp_amount] at hkept'
  refine .require Iff.rfl fun _ _ => ?_
  -- LP tokens are the same in both worlds, and the vaults cover what is paid for them
  refine .bind (.mapError (burnChecked_agree h.ledger.skeleton
    (h.ledger.balance _ (hV.not_apart hw.shape hv.userLp hv.signer hu))
    (hv.lpMint_key hw.shape ▸ h.ledger.lpSupply _))) ?_
  rintro l₁ l₁' - - ⟨hburn, hburn'⟩
  have hl₁ := h.ledger.burned hburn hburn'
  have hc₁ := (hv.capped hw).1.burned hburn
  have hc₁' := (hv'.capped hw').1.burned hburn'
  refine .bind (.mapError (transferChecked_agree hl₁.skeleton
    (iff_of_true (hv.coversA hw.shape hP hq hburn) (hv'.coversA hw'.shape hP' hq' hburn'))
    hc₁ hc₁')) ?_
  rintro l₂ l₂' - - ⟨hpaidA, hpaidA'⟩
  have hl₂ := hl₁.transferred hpaidA hpaidA'
  have hc₂ := ((hv.capped hw).2.burned hburn).transferred hpaidA
  have hc₂' := ((hv'.capped hw').2.burned hburn').transferred hpaidA'
  rw [← hv.pool_key] at hpaidA hpaidA'
  refine .bind (.mapError (transferChecked_agree hl₂.skeleton
    (iff_of_true (hv.coversB hw.shape hP hq hburn hpaidA)
      (hv'.coversB hw'.shape hP' hq' hburn' hpaidA'))
    hc₂ hc₂')) ?_
  rintro l₃ l₃' - - ⟨hpaidB, hpaidB'⟩
  rw [← hv.pool_key] at hpaidB hpaidB'
  have hend := remove_settles hw'.shape hv' hseed' hq' hkept' hburn' hpaidA' hpaidB'
  rw [hab.pool, hlk] at hend
  exact .of_ok (remove_settles hw.shape hv hseed hq hkept hburn hpaidA hpaidB) hend
    (h.write (hl₂.transferred hpaidB hpaidB') _ _)

/-- The locked tokens are minted alike. -/
theorem mintLocked_agree {l l' : Ledger} {P : Pool} (hk : ctx.pool = .pool P.mintA P.mintB)
    (h : l'.skeleton = l.skeleton) {n d : ℕ}
    (hb : l'.balance ctx.lockedLp = l.balance ctx.lockedLp)
    (hs : l'.supply ctx.lpMint = l.supply ctx.lpMint) :
    Agree (fun l₁ l₁' => ctx.Locked n l l₁ ∧ ctx.Locked n l' l₁') (mintLocked l ctx P n d)
      (mintLocked l' ctx P n d) := by
  have key : Agree (fun _ _ => True) (mintLocked l ctx P n d) (mintLocked l' ctx P n d) := by
    unfold mintLocked
    split
    · exact (mintToChecked_agree h hb hs).imp fun _ _ _ _ _ => trivial
    · exact .pure trivial
  exact key.imp fun _ _ ht ht' _ => ⟨mintLocked_ok hk ht, mintLocked_ok hk ht'⟩

theorem Ledger.Alike.locked {l l' l₁ l₁' : Ledger} (h : l.Alike donor l') {n : ℕ}
    (t : ctx.Locked n l l₁) (t' : ctx.Locked n l' l₁') : l₁.Alike donor l₁' := by
  refine h.of_moved t.moved t'.moved (fun k hk => ?_) fun m hm => ?_
  · rw [t.balances, t'.balances, hk]
  · rw [t.supplies, t'.supplies, hm]

theorem addLiquidity_agree (h : w.Alike donor w') (hw : w.Inv) (hw' : w'.Inv)
    (hV : w.VaultsHeld) (ctx : LiquidityAccounts) (aDesired bDesired aMin bMin minLpOut : ℕ)
    (hu : ¬ donor ctx.user) :
    Agree (World.Alike donor) (addLiquidity w ctx aDesired bDesired aMin bMin minLpOut)
      (addLiquidity w' ctx aDesired bDesired aMin bMin minLpOut) := by
  refine (ctx.validate_agree h).bind fun a b ha hb hab => ?_
  have hv := (ctx.validate_sat w).ok ha
  have hv' := (ctx.validate_sat w').ok hb
  have hP := hw.pools _ _ hv.pool
  have hP' := hw'.pools _ _ hv'.pool
  have hkey := hv.lpMint_key hw.shape
  obtain ⟨hlp, hlk⟩ := hab.lp h hw.shape hv hv'
  refine .require Iff.rfl fun _ _ => ?_
  refine .seq hab.unpaused fun _ _ _ => ?_
  refine .seq (hab.children ctx.toPoolAccounts) fun _ _ _ => ?_
  refine .seq (hab.locked ctx) fun _ _ _ => ?_
  refine .step (ensureSolvent_of hP hv.vaultA_amount hv.vaultB_amount)
    (ensureSolvent_of hP' hv'.vaultA_amount hv'.vaultB_amount) ?_
  rw [hab.pool, hlp, hlk]
  refine .seq rfl fun t hterms _ => ?_
  have ht := (depositTerms_sat hP hv.lpMint_supply hv.lockedLp_amount aDesired bDesired).ok hterms
  rw [← hab.pool, ← hlp, ← hlk] at hterms
  have ht' := (depositTerms_sat hP' hv'.lpMint_supply hv'.lockedLp_amount aDesired bDesired).ok
    hterms
  refine .require Iff.rfl fun _ _ => ?_
  refine .seq rfl fun reserveA hrA _ => ?_
  refine .seq rfl fun reserveB hrB _ => ?_
  refine .seq rfl fun withUser hwu _ => ?_
  refine .seq rfl fun expected hexp _ => ?_
  obtain ⟨-, rfl⟩ := checkedAdd_eq_some.mp (okOr_ok_iff.mp hrA)
  obtain ⟨-, rfl⟩ := checkedAdd_eq_some.mp (okOr_ok_iff.mp hrB)
  obtain ⟨-, rfl⟩ := checkedAdd_eq_some.mp (okOr_ok_iff.mp hwu)
  obtain ⟨-, rfl⟩ := checkedAdd_eq_some.mp (okOr_ok_iff.mp hexp)
  -- nothing the user pays from or is paid into is apart
  have hnA := hV.not_apart hw.shape hv.userA hv.signer hu
  have hnB := hV.not_apart hw.shape hv.userB hv.signer hu
  have hnL := hV.not_apart hw.shape hv.userLp hv.signer hu
  have hnK : ¬ w.ledger.Apart donor ctx.lockedLp :=
    hv.lockedLp_eq ▸ hw.shape.lockedLp_not_apart hv.pool
  obtain ⟨hcA, hcB⟩ := hv.capped hw
  obtain ⟨hcA', hcB'⟩ := hv'.capped hw'
  refine .bind (.mapError (transferChecked_agree h.ledger.skeleton
    (by rw [h.ledger.balance _ hnA]) hcA hcA')) ?_
  rintro l₁ l₁' - - ⟨hpaidA, hpaidA'⟩
  have hl₁ := h.ledger.transferred hpaidA hpaidA'
  have hs₁ := hpaidA.skeleton
  refine .bind (.mapError (transferChecked_agree hl₁.skeleton
    (by rw [hl₁.balance _ fun ha => hnB (ha.of_skeleton hs₁.symm)]) (hcB.transferred hpaidA)
    (hcB'.transferred hpaidA'))) ?_
  rintro l₂ l₂' - - ⟨hpaidB, hpaidB'⟩
  have hl₂ := hl₁.transferred hpaidB hpaidB'
  have hs₂ := hpaidB.skeleton.trans hs₁
  refine .bind (.mapError (mintLocked_agree hv.pool_key hl₂.skeleton
    (hl₂.balance _ fun ha => hnK (ha.of_skeleton hs₂.symm)) (hkey ▸ hl₂.lpSupply _))) ?_
  rintro l₃ l₃' - - ⟨hlock, hlock'⟩
  have hl₃ := hl₂.locked hlock hlock'
  have hs₃ := hlock.moved.skeleton.trans hs₂
  refine .bind (.mapError (mintToChecked_agree hl₃.skeleton
    (hl₃.balance _ fun ha => hnL (ha.of_skeleton hs₃.symm)) (hkey ▸ hl₃.lpSupply _))) ?_
  rintro l₄ l₄' - - ⟨hmint, hmint'⟩
  rw [← hv.pool_key] at hmint hmint'
  have hend := add_settles hw'.shape hP' hv' ht' hpaidA' hpaidB' hlock' hmint'
  rw [hab.pool, hlp] at hend
  exact .of_ok (add_settles hw.shape hP hv ht hpaidA hpaidB hlock hmint) hend
    (h.write (hl₃.minted hmint hmint') _ _)

end Liquidity

/-! ### `initialize_pool` -/

theorem initializeAccount3_agree {l l' : Ledger} (h : l.Alike donor l')
    (account mint owner : Pubkey) (immutable : Bool) :
    Agree (Ledger.Alike donor) (l.initializeAccount3 account mint owner immutable)
      (l'.initializeAccount3 account mint owner immutable) := by
  have hfree := isNone_of_map (token_map h.skeleton account)
  refine .require (by simpa using hfree) fun _ _ => ?_
  refine .okOr (mint_map h.skeleton _) fun M M' _ _ hM => ?_
  rw [Mint.eq_of_erase hM]
  exact .pure (h.setToken ..)

theorem createVault_agree {l l' : Ledger} (h : l.Alike donor l') (vault mint pool : Pubkey) :
    Agree (Ledger.Alike donor) (createVault l vault mint pool) (createVault l' vault mint pool) := by
  refine .bind (.mapError (.of_map (mint_map h.skeleton mint) _)) fun M M' _ _ hM => ?_
  rw [Mint.eq_of_erase hM]
  refine .require Iff.rfl fun _ _ => ?_
  refine .require (isNone_of_map (token_map h.skeleton vault)) fun _ _ => ?_
  exact .mapError (initializeAccount3_agree h ..)

theorem initializeLpMint_agree {l l' : Ledger} (h : l.Alike donor l') (mint pool : Pubkey)
    (decimals : ℕ) :
    Agree (Ledger.Alike donor)
      (l.initializeMint2 mint decimals pool none [] .initialized none none)
      (l'.initializeMint2 mint decimals pool none [] .initialized none none) := by
  have hfree := isNone_of_map (mint_map h.skeleton mint)
  exact .require (by simpa using hfree) fun _ _ => .pure (h.setMint ..)

theorem initializePool_agree (h : w.Alike donor w') (ctx : InitializePool) (feeBps : ℕ) :
    Agree (World.Alike donor) (initializePool w ctx feeBps) (initializePool w' ctx feeBps) := by
  have hmint := mint_map h.ledger.skeleton
  refine .require Iff.rfl fun _ _ => ?_
  refine .okOr (hmint _) fun mintA mintA' _ _ hmA => ?_
  refine .okOr (hmint _) fun mintB mintB' _ _ hmB => ?_
  refine .okOr (h.configs _) fun configA configA' _ _ hca => ?_
  refine .okOr (h.configs _) fun configB configB' _ _ hcb => ?_
  rw [Mint.eq_of_erase hmA, Mint.eq_of_erase hmB]
  refine .require Iff.rfl fun _ _ => ?_
  refine .require (by rw [h.pools]) fun _ _ => ?_
  refine .seq (requireConfig_congr hca ..) fun _ _ _ => ?_
  refine .seq (requireConfig_congr hcb ..) fun _ _ _ => ?_
  refine .require Iff.rfl fun _ _ => ?_
  refine .require Iff.rfl fun _ _ => ?_
  refine .require Iff.rfl fun _ _ => ?_
  refine .require Iff.rfl fun _ _ => ?_
  refine .require Iff.rfl fun _ _ => ?_
  refine .require (by rw [h.addressBytes]) fun _ _ => ?_
  refine .require Iff.rfl fun _ _ => ?_
  refine .require Iff.rfl fun _ _ => ?_
  refine (createVault_agree h.ledger ..).bind fun l₁ l₁' _ _ hl₁ => ?_
  refine (createVault_agree hl₁ ..).bind fun l₂ l₂' _ _ hl₂ => ?_
  refine .require (isNone_of_map (mint_map hl₂.skeleton _)) fun _ _ => ?_
  refine .bind (.mapError (initializeLpMint_agree hl₂ ..)) fun l₃ l₃' _ _ hl₃ => ?_
  refine .require (isNone_of_map (token_map hl₃.skeleton _)) fun _ _ => ?_
  refine .bind (.mapError (initializeAccount3_agree hl₃ ..)) fun l₄ l₄' _ _ hl₄ => ?_
  exact .pure (h.write hl₄ _ _)

end

end StablecoinAmm
