import Mathlib.Data.Sym.Sym2
import StablecoinAmm.Funding.Addresses
import StablecoinAmm.Identity.Tickers

/-!
# Identity — pairs

A pool is for two stablecoins in the order of their addresses' bytes, so that a pair has one
pool address and not two.  The terms of a pool — its stablecoins, fee, decimals and accounts —
never change.  On the worlds that can be reached, `initialize_pool` asks for little: most of its
checks cannot fail once accounts and order are right (`initializePool_iff`), so every pair of
stablecoins gets its pool, once (`one_pool_per_pair`).
-/

namespace StablecoinAmm
open Support Ledger

/-! ### The order of addresses -/

section
variable {w w' : World}

/-- Addresses are what they are. -/
theorem Action.Effect.addressBytes_eq {a : Action} (h : a.Effect w w') :
    w'.addressBytes = w.addressBytes := by
  cases a with
  | initializeStablecoin =>
      obtain ⟨M, c, h⟩ := h
      rw [h.result]; rfl
  | grantMinter => rw [show w' = _ from h]; rfl
  | revokeMinter => rw [show w' = _ from h]; rfl
  | setWalletPolicy =>
      obtain ⟨c, a, h⟩ := h
      rw [h.result]; rfl
  | mintTo =>
      obtain ⟨a, l, h⟩ := h
      rw [h.result]; rfl
  | burn =>
      obtain ⟨c, l, h⟩ := h
      rw [h.result]; rfl
  | setPause =>
      obtain ⟨c, M, p, h⟩ := h
      rw [h.result]; rfl
  | updateConfig =>
      obtain ⟨c, h⟩ := h
      rw [h.result]; rfl
  | acceptAdmin =>
      obtain ⟨c, -, -, rfl⟩ := h
      rfl
  | initializePool =>
      obtain ⟨mA, mB, h⟩ := h
      rw [h.result]; rfl
  | addLiquidity =>
      obtain ⟨a, t, l₁, l₂, l₃, l₄, h⟩ := h
      rw [h.result]; rfl
  | removeLiquidity =>
      obtain ⟨a, q, l₁, l₂, l₃, h⟩ := h
      rw [h.result]; rfl
  | swap =>
      obtain ⟨a, q, l₁, l₂, h⟩ := h
      rw [h.result]; rfl
  | createAccount =>
      obtain ⟨M, -, -, -, rfl⟩ := h
      rfl
  | transfer =>
      obtain ⟨l, -, -, rfl⟩ := h
      rfl
  | burnDirect =>
      obtain ⟨l, -, -, rfl⟩ := h
      rfl
  | setOwner =>
      obtain ⟨a, -, -, -, -, -, rfl⟩ := h
      rfl
  | closeAccount =>
      obtain ⟨a, -, -, -, -, rfl⟩ := h
      rfl

/-- One of two different addresses comes first. -/
theorem bytes_trichotomy {x y : List UInt8} (h : x ≠ y) : x < y ∨ y < x := by
  by_contra hn
  push Not at hn
  exact h (List.le_antisymm hn.2 hn.1)

/-- What `initialize_pool` checked, and what stays of it. -/
structure World.Paired (w : World) (P : Pool) : Prop where
  mintA : w.IsStablecoin P.mintA
  mintB : w.IsStablecoin P.mintB
  order : w.addressBytes P.mintA < w.addressBytes P.mintB
  decimals : P.decimals = stablecoinDecimals

/-- A new pool comes with a new LP mint, and so from `initialize_pool`. -/
theorem pool_new_action (hw : w.Inv) {a : Action} (h : step w a = .ok w') {p : Pubkey} {P' : Pool}
    (hp : w.pools p = none) (hP' : w'.pools p = some P') :
    ∃ ctx feeBps, a = .initializePool ctx feeBps ∧ p = ctx.pool := by
  have heff := step_effect hw h
  have hshape := (heff.inv hw).shape.pool p P' hP'
  obtain ⟨M', hM', -⟩ := hshape.lpMint
  rw [hshape.placed.lpMint] at hM'
  have hnew : a.mintCreated = some (.lpMint p) := by
    by_contra hne
    have hkept := heff.mintKept hne
    rw [MintKept, hw.shape.lpMint_of_none hp, hM'] at hkept
    cases hkept
  cases a with
  | initializePool ctx feeBps =>
      exact ⟨ctx, feeBps, rfl, (Pubkey.lpMint.inj (Option.some.inj hnew)).symm⟩
  | initializeStablecoin ctx =>
      obtain ⟨M, c, heff⟩ := heff
      cases heff.mint_key.symm.trans (Option.some.inj hnew)
  | _ => cases hnew

end

/-! ### `initialize_pool` -/

/-- What it takes to create a pool. -/
structure InitializePool.Proper (w : World) (ctx : InitializePool) (feeBps : ℕ) : Prop where
  signer : ctx.payer.isSigner
  configA_key : ctx.configA = .config ctx.mintA
  configB_key : ctx.configB = .config ctx.mintB
  pool_key : ctx.pool = .pool ctx.mintA ctx.mintB
  vaultA_key : ctx.vaultA = .vault ctx.pool ctx.mintA
  vaultB_key : ctx.vaultB = .vault ctx.pool ctx.mintB
  lpMint_key : ctx.lpMint = .lpMint ctx.pool
  lockedLp_key : ctx.lockedLp = .lockedLp ctx.pool
  mintA : w.IsStablecoin ctx.mintA
  mintB : w.IsStablecoin ctx.mintB
  order : w.addressBytes ctx.mintA < w.addressBytes ctx.mintB
  feeBps_le : feeBps ≤ Amm.maxFeeBps
  pool_free : w.pools ctx.pool = none

section
variable {w w' : World} {ctx : InitializePool} {feeBps : ℕ}

theorem initializePool_proper (h : initializePool w ctx feeBps = .ok w') : ctx.Proper w feeBps := by
  simp only [initializePool, requireSigner, load, requireSeeds, requireFree, requireConfig, ensure,
    invoke, bind_ok_iff, require_ok_iff, okOr_ok_iff, mapError_ok_iff, pure_ok_iff, exists_const,
    Option.isNone_iff_eq_none] at h
  obtain ⟨hsigner, mA, hmA, mB, hmB, cA, hcA, cB, hcB, hpk, hpf, ⟨hckA, -⟩, ⟨hckB, -⟩, hva, hvb,
    hlp, hlk, -, horder, hfee, -⟩ := h
  exact ⟨hsigner, hckA, hckB, hpk, hva, hvb, hlp, hlk, ⟨cA, hckA ▸ hcA⟩, ⟨cB, hckB ▸ hcB⟩, horder,
    hfee, hpf⟩

/-- The mint of a stablecoin, as `initialize_pool` wants it. -/
theorem World.Described.poolable (hd : w.Described) (hs : w.Shape) {m : Pubkey}
    (hm : w.IsStablecoin m) :
    ∃ c M, w.configs (.config m) = some c ∧ c.mint = m ∧ w.ledger.mints m = some M ∧
      M.decimals = stablecoinDecimals ∧ M.extensions.all (· ∈ supportedMintExtensions) := by
  obtain ⟨c, hc⟩ := hm
  obtain ⟨M, T, hM, hdesc⟩ := hd _ c hc
  have hcm := hs.config_mint hc
  rw [hcm] at hM
  exact ⟨c, M, hc, hcm, hM, hdesc.decimals, by rw [hdesc.extensions]; decide⟩

/-- Nothing stands where a pool that does not exist would keep its tokens. -/
theorem World.Reachable.rooted (hw : w.Reachable) : w.Rooted := by
  have hinv : w.Inv ∧ w.Anchored ∧ w.Rooted := by
    refine Reachable.invariant (I := fun w => w.Inv ∧ w.Anchored ∧ w.Rooted) ?_ ?_ hw
    · rintro _ ⟨addressBytes, rfl⟩
      exact ⟨inv_genesis addressBytes, anchored_genesis addressBytes, rooted_genesis addressBytes⟩
    · rintro w a w' ⟨hw, hA, hR⟩ h
      have heff := step_effect hw h
      exact ⟨heff.inv hw, heff.anchored hw.shape hA, step_rooted hw hA hR h⟩
  exact hinv.2.2

theorem World.Rooted.token_free (hR : w.Rooted) {k p : Pubkey} (hp : w.pools p = none)
    (hk : k.parent = some p) : w.ledger.tokens k = none := by
  have hfree : w.inUse k = false := by
    by_contra hu
    obtain ⟨P, hP⟩ := hR k p hk (by simpa using hu)
    cases hp.symm.trans hP
  cases k with
  | vault | lockedLp => simpa [World.inUse] using hfree
  | _ => cases hk

theorem createVault_of {l : Ledger} {vault mint pool : Pubkey} {M : Mint}
    (hM : l.mints mint = some M) (he : M.extensions.all (· ∈ supportedMintExtensions))
    (hfree : l.tokens vault = none) :
    createVault l vault mint pool =
      .ok (l.setToken vault (emptyAccount mint pool M.defaultState false)) := by
  simp only [createVault, ensure, invoke, initializeAccount3, Ledger.mint, bind_ok_iff,
    require_ok_iff, okOr_ok_iff, mapError_ok_iff, pure_ok_iff, exists_const,
    Option.isNone_iff_eq_none]
  exact ⟨M, hM, he, hfree, hfree, M, hM, rfl⟩

/-- **Nothing else can go wrong.** -/
theorem initializePool_succeeds (hw : w.Reachable) (h : ctx.Proper w feeBps) :
    ∃ w', initializePool w ctx feeBps = .ok w' := by
  obtain ⟨cA, mA, hcA, hcAm, hmA, hdA, heA⟩ := hw.described.poolable hw.inv.shape h.mintA
  obtain ⟨cB, mB, hcB, hcBm, hmB, hdB, heB⟩ := hw.described.poolable hw.inv.shape h.mintB
  have hfree : ∀ {k}, k.parent = some ctx.pool → w.ledger.tokens k = none :=
    fun hk => hw.rooted.token_free h.pool_free hk
  have hfreeA : w.ledger.tokens ctx.vaultA = none := hfree (by rw [h.vaultA_key]; rfl)
  have hfreeB : w.ledger.tokens ctx.vaultB = none := hfree (by rw [h.vaultB_key]; rfl)
  have hfreeK : w.ledger.tokens ctx.lockedLp = none := hfree (by rw [h.lockedLp_key]; rfl)
  have hfreeL : w.ledger.mints ctx.lpMint = none := by
    rw [h.lpMint_key]
    exact hw.inv.shape.lpMint_of_none h.pool_free
  have hne : ctx.mintA ≠ ctx.mintB := fun he => List.lt_irrefl _ (he ▸ h.order)
  -- the accounts to be created are not in each other's way
  have hBA : ctx.vaultB ≠ ctx.vaultA := by
    rw [h.vaultA_key, h.vaultB_key]
    exact fun hv => hne (Pubkey.vault.inj hv).2.symm
  have hKA : ctx.lockedLp ≠ ctx.vaultA := by rw [h.lockedLp_key, h.vaultA_key]; exact nofun
  have hKB : ctx.lockedLp ≠ ctx.vaultB := by rw [h.lockedLp_key, h.vaultB_key]; exact nofun
  have hA : createVault w.ledger ctx.vaultA ctx.mintA ctx.pool = .ok _ :=
    createVault_of hmA heA hfreeA
  have hB : createVault (w.ledger.setToken ctx.vaultA
      (emptyAccount ctx.mintA ctx.pool mA.defaultState false)) ctx.vaultB ctx.mintB ctx.pool =
        .ok _ :=
    createVault_of hmB heB ((setToken_tokens_of_ne _ _ _ hBA).trans hfreeB)
  simp only [initializePool, requireSigner, load, requireSeeds, requireFree, requireConfig, ensure,
    invoke, initializeMint2, initializeAccount3, Ledger.mint, bind_ok_iff, require_ok_iff,
    okOr_ok_iff, mapError_ok_iff, pure_ok_iff, exists_const, Option.isNone_iff_eq_none]
  have hfreeK' : ∀ {a b M}, ((((w.ledger.setToken ctx.vaultA a).setToken ctx.vaultB b).setMint
      ctx.lpMint M).tokens ctx.lockedLp) = none := by
    intro a b M
    rw [setMint_tokens, setToken_tokens_of_ne _ _ _ hKB, setToken_tokens_of_ne _ _ _ hKA]
    exact hfreeK
  exact ⟨_, h.signer, mA, hmA, mB, hmB, cA, h.configA_key ▸ hcA, cB, h.configB_key ▸ hcB,
    h.pool_key, h.pool_free, ⟨h.configA_key, hcAm⟩, ⟨h.configB_key, hcBm⟩, h.vaultA_key,
    h.vaultB_key, h.lpMint_key, h.lockedLp_key, hne, h.order, h.feeBps_le,
    ⟨hdA.trans hdB.symm, hdA⟩, _, hA, _, hB, hfreeL, _, ⟨hfreeL, rfl⟩, hfreeK', _,
    ⟨hfreeK', _, setMint_mints_self .., rfl⟩, rfl⟩

end

/-! ### Pools -/

/-- The two stablecoins of a pool, in no order. -/
def Pool.pair (P : Pool) : Sym2 Pubkey := s(P.mintA, P.mintB)

section
variable {w w' : World}

/-- A step keeps stablecoins. -/
theorem step_isStablecoin (hw : w.Inv) {a : Action} (h : step w a = .ok w') {m : Pubkey}
    (hm : w.IsStablecoin m) : w'.IsStablecoin m :=
  run_isStablecoin hw (.one h) hm

theorem World.Paired.kept {P P' : Pool} (h : w.Paired P) (hw : w.Inv) {a : Action}
    (hstep : step w a = .ok w') (he : P'.erase = P.erase) : w'.Paired P' := by
  have hbytes := (step_effect hw hstep).addressBytes_eq
  cases P; cases P'
  simp only [Pool.erase, Pool.mk.injEq] at he
  obtain ⟨rfl, rfl, -, -, -, -, -, -, -, rfl⟩ := he
  exact ⟨step_isStablecoin hw hstep h.mintA, step_isStablecoin hw hstep h.mintB,
    hbytes ▸ h.order, h.decimals⟩

theorem step_paired (hw : w.Inv) (hd : w.Described) (hp : ∀ p P, w.pools p = some P → w.Paired P)
    {a : Action} (h : step w a = .ok w') : ∀ p P', w'.pools p = some P' → w'.Paired P' := by
  intro p P' hP'
  have heff := step_effect hw h
  rcases hP : w.pools p with _ | P
  · obtain ⟨ctx, feeBps, rfl, rfl⟩ := pool_new_action hw h hP hP'
    have hproper := initializePool_proper (mapError_ok_iff.mp h)
    obtain ⟨c, M, -, -, hM, hdec, -⟩ := hd.poolable hw.shape hproper.mintA
    have hbytes := heff.addressBytes_eq
    obtain ⟨mA, mB, heff⟩ := heff
    obtain rfl := Option.some.inj (hM.symm.trans heff.mintA)
    have hstable := fun {m} => step_isStablecoin (m := m) hw h
    rw [heff.result] at hP'
    obtain rfl := Option.some.inj ((World.setPool_pools_self ..).symm.trans hP')
    exact ⟨hstable hproper.mintA, hstable hproper.mintB, hbytes ▸ hproper.order, hdec⟩
  · obtain ⟨P₁, hP₁, he, -⟩ := heff.refines hw.shape (heff.inv hw).conserved hP
    obtain rfl := Option.some.inj (hP₁.symm.trans hP')
    exact (hp p P hP).kept hw h he

theorem World.Reachable.paired (hw : w.Reachable) {p : Pubkey} {P : Pool}
    (hP : w.pools p = some P) : w.Paired P := by
  have hinv : w.Inv ∧ w.Described ∧ ∀ p P, w.pools p = some P → w.Paired P := by
    refine Reachable.invariant
      (I := fun w => w.Inv ∧ w.Described ∧ ∀ p P, w.pools p = some P → w.Paired P) ?_ ?_ hw
    · rintro _ ⟨addressBytes, rfl⟩
      refine ⟨inv_genesis addressBytes, ?_, ?_⟩
      · intro _ _ hc; cases hc
      · intro _ _ hP; cases hP
    · rintro w a w' ⟨hw, hd, hp⟩ h
      exact ⟨step_inv _ _ _ hw h, step_described hw hd h, step_paired hw hd hp h⟩
  exact hinv.2.2 p P hP

/-- The order of the addresses decides which of the two pool addresses a pair has. -/
theorem World.Reachable.pool_of_pair (hw : w.Reachable) {p p' : Pubkey} {P P' : Pool}
    (hP : w.pools p = some P) (hP' : w.pools p' = some P') (h : P'.pair = P.pair) : p' = p := by
  have hkey := (hw.inv.shape.pool p P hP).placed.key
  have hkey' := (hw.inv.shape.pool p' P' hP').placed.key
  rcases Sym2.eq_iff.mp h with ⟨hA, hB⟩ | ⟨hA, hB⟩
  · rw [hkey, hkey', hA, hB]
  · -- both orders at once
    have horder := (hw.paired hP').order
    rw [hA, hB] at horder
    exact absurd horder (List.lt_asymm (hw.paired hP).order)

/-- The accounts of the pool for `x` and `y`, in this order. -/
def InitializePool.of (payer x y : Pubkey) : InitializePool where
  payer := payer
  mintA := x
  mintB := y
  configA := .config x
  configB := .config y
  pool := .pool x y
  vaultA := .vault (.pool x y) x
  vaultB := .vault (.pool x y) y
  lpMint := .lpMint (.pool x y)
  lockedLp := .lockedLp (.pool x y)

theorem InitializePool.Proper.eq_of {ctx : InitializePool} {feeBps : ℕ}
    (h : ctx.Proper w feeBps) : ctx = .of ctx.payer ctx.mintA ctx.mintB := by
  obtain ⟨payer, mintA, mintB, configA, configB, pool, vaultA, vaultB, lpMint, lockedLp⟩ := ctx
  obtain rfl : pool = .pool mintA mintB := h.pool_key
  obtain rfl : configA = .config mintA := h.configA_key
  obtain rfl : configB = .config mintB := h.configB_key
  obtain rfl : vaultA = .vault (.pool mintA mintB) mintA := h.vaultA_key
  obtain rfl : vaultB = .vault (.pool mintA mintB) mintB := h.vaultB_key
  obtain rfl : lpMint = .lpMint (.pool mintA mintB) := h.lpMint_key
  obtain rfl : lockedLp = .lockedLp (.pool mintA mintB) := h.lockedLp_key
  rfl

/-- The order in which a pool takes two stablecoins. -/
def World.inOrder (w : World) (x y : Pubkey) : Pubkey × Pubkey :=
  if w.addressBytes x < w.addressBytes y then (x, y) else (y, x)

theorem World.inOrder_of_lt {x y : Pubkey} (h : w.addressBytes x < w.addressBytes y) :
    w.inOrder x y = (x, y) := if_pos h

theorem World.inOrder_of_gt {x y : Pubkey} (h : w.addressBytes y < w.addressBytes x) :
    w.inOrder x y = (y, x) := if_neg (List.lt_asymm h)

/-- The accounts of the pool for two stablecoins. -/
def InitializePool.forPair (w : World) (payer x y : Pubkey) : InitializePool :=
  .of payer (w.inOrder x y).1 (w.inOrder x y).2

/-- In the right order, a pair without a pool gets one. -/
theorem initializePool_of (hw : w.Reachable) {payer x y : Pubkey} {feeBps : ℕ}
    (hsigner : payer.isSigner) (hx : w.IsStablecoin x) (hy : w.IsStablecoin y)
    (horder : w.addressBytes x < w.addressBytes y) (hfee : feeBps ≤ Amm.maxFeeBps)
    (hfree : ∀ p P, w.pools p = some P → P.pair ≠ s(x, y)) :
    ∃ w', step w (.initializePool (.of payer x y) feeBps) = .ok w' := by
  have hpool : w.pools (.pool x y) = none := by
    rcases hP : w.pools (.pool x y) with _ | P
    · rfl
    · obtain ⟨hA, hB⟩ := Pubkey.pool.inj (hw.inv.shape.pool _ P hP).placed.key
      exact absurd (by rw [Pool.pair, ← hA, ← hB]) (hfree _ P hP)
  have hproper : (InitializePool.of payer x y).Proper w feeBps :=
    ⟨hsigner, rfl, rfl, rfl, rfl, rfl, rfl, rfl, hx, hy, horder, hfee, hpool⟩
  obtain ⟨w', h⟩ := initializePool_succeeds hw hproper
  exact ⟨w', mapError_ok_iff.mpr h⟩

/-- There is no pool for the pair before there is one. -/
theorem initializePool_unpaired (hw : w.Reachable) {ctx : InitializePool} {feeBps : ℕ}
    (h : step w (.initializePool ctx feeBps) = .ok w') :
    ∀ p P, w.pools p = some P → P.pair ≠ s(ctx.mintA, ctx.mintB) := by
  have hproper := initializePool_proper (mapError_ok_iff.mp h)
  intro p P hP he
  obtain ⟨mA, mB, heff⟩ := step_effect hw.inv h
  obtain ⟨P₁, hP₁, herase, -⟩ := run_refines hw.inv hP (.one h)
  obtain ⟨hA, hB, -⟩ := Pool.mints_of_erase herase
  have hnew := heff.result ▸ World.setPool_pools_self ..
  have hp := World.Reachable.pool_of_pair (hw.run (.one h)) hP₁ hnew (by
    rw [Pool.pair, Pool.pair, hA, hB]
    exact he.symm)
  cases (hp ▸ hproper.pool_free).symm.trans hP

/-- The accounts with which the pool of a pair is created are those of the pair. -/
theorem initializePool_forPair {ctx : InitializePool} {feeBps : ℕ}
    (h : step w (.initializePool ctx feeBps) = .ok w') {x y : Pubkey}
    (hpair : s(ctx.mintA, ctx.mintB) = s(x, y)) : ctx = .forPair w ctx.payer x y := by
  have hproper := initializePool_proper (mapError_ok_iff.mp h)
  have hlt := hproper.order
  rw [InitializePool.forPair]
  rcases Sym2.eq_iff.mp hpair with ⟨rfl, rfl⟩ | ⟨rfl, rfl⟩
  · rw [World.inOrder_of_lt hlt]
    exact hproper.eq_of
  · rw [World.inOrder_of_gt hlt]
    exact hproper.eq_of

/-- Whether somebody who can pay can create the pool of two stablecoins. -/
theorem pairs_iff (hw : w.Reachable) {payer x y : Pubkey} {feeBps : ℕ} :
    (∃ w', step w (.initializePool (.forPair w payer x y) feeBps) = .ok w') ↔
      payer.isSigner ∧ w.IsStablecoin x ∧ w.IsStablecoin y ∧
        w.addressBytes x ≠ w.addressBytes y ∧ feeBps ≤ Amm.maxFeeBps ∧
        ∀ p P, w.pools p = some P → P.pair ≠ s(x, y) := by
  constructor
  · rintro ⟨w', h⟩
    have hproper := initializePool_proper (mapError_ok_iff.mp h)
    have hfree := initializePool_unpaired hw h
    have hlt := hproper.order
    have hA := hproper.mintA
    have hB := hproper.mintB
    simp only [InitializePool.forPair, InitializePool.of, World.inOrder] at hfree hlt hA hB
    refine ⟨hproper.signer, ?_⟩
    split_ifs at hfree hlt hA hB
    · exact ⟨hA, hB, fun he => List.lt_irrefl _ (he ▸ hlt), hproper.feeBps_le, hfree⟩
    · exact ⟨hB, hA, fun he => List.lt_irrefl _ (he ▸ hlt), hproper.feeBps_le,
        by rwa [Sym2.eq_swap]⟩
  · rintro ⟨hsigner, hx, hy, hne, hfee, hfree⟩
    rw [InitializePool.forPair]
    rcases bytes_trichotomy hne with hlt | hlt
    · rw [World.inOrder_of_lt hlt]
      exact initializePool_of hw hsigner hx hy hlt hfee hfree
    · rw [World.inOrder_of_gt hlt]
      exact initializePool_of hw hsigner hy hx hlt hfee (by rwa [Sym2.eq_swap])

/-- What it costs to create the pool of two stablecoins. -/
def Chain.pairCost (rt : Runtime) (s : Chain) (payer x y : Pubkey) : ℕ :=
  s.bank.cost ((InitializePool.forPair s.world payer x y).creations rt s.world)

/-- **One pool per pair.**  In every reachable state a pool is for two different stablecoins, at
the address derived from them in order, with the accounts derived from it; whatever happens
afterwards its terms stay, and there never is another pool for the pair; and anyone can create the
pool of two stablecoins, at any fee allowed, exactly when nobody has and the rent can be paid. -/
theorem one_pool_per_pair {rt : Runtime} {s : Chain} (hs : s.Reachable rt) :
    (∀ p P, s.world.pools p = some P → P.Placed p ∧ s.world.Paired P) ∧
    (∀ p P as w', s.world.pools p = some P → Run step s.world as w' →
      (∃ P', w'.pools p = some P' ∧ P'.erase = P.erase) ∧
        ∀ p' P', w'.pools p' = some P' → P'.pair = P.pair → p' = p) ∧
    ∀ payer x y feeBps destination,
      (∃ ctx s', ctx.payer = payer ∧ s(ctx.mintA, ctx.mintB) = s(x, y) ∧
        s.step rt (.act (.initializePool ctx feeBps) destination) = .ok s') ↔
      payer.isSigner ∧ s.world.IsStablecoin x ∧ s.world.IsStablecoin y ∧
        s.world.addressBytes x ≠ s.world.addressBytes y ∧ feeBps ≤ Amm.maxFeeBps ∧
        (∀ p P, s.world.pools p = some P → P.pair ≠ s(x, y)) ∧
        s.bank.Affords rt payer (s.pairCost rt payer x y) := by
  have hw := hs.world
  refine ⟨fun p P hP => ⟨(hw.inv.shape.pool p P hP).placed, hw.paired hP⟩, ?_, ?_⟩
  · intro p P as w' hP t
    obtain ⟨P₁, hP₁, he, -⟩ := run_refines hw.inv hP t
    refine ⟨⟨P₁, hP₁, he⟩, fun p' P' hP' hpair => ?_⟩
    obtain ⟨hA, hB, -⟩ := Pool.mints_of_erase he
    refine World.Reachable.pool_of_pair (hw.run t) hP₁ hP' (hpair.trans ?_)
    rw [Pool.pair, Pool.pair, hA, hB]
  · intro payer x y feeBps destination
    have hopened : ∀ ctx, (Action.initializePool ctx feeBps).opened ≠ [] :=
      fun _ => List.cons_ne_nil _ _
    have hpays : (∃ s', s.step rt (.act (.initializePool (.forPair s.world payer x y) feeBps)
          destination) = .ok s') ↔
        (∃ w', step s.world (.initializePool (.forPair s.world payer x y) feeBps) = .ok w') ∧
          s.bank.Affords rt payer (s.pairCost rt payer x y) :=
      Chain.creates_iff hs.inv (hopened _) destination
    rw [pairs_iff hw] at hpays
    constructor
    · rintro ⟨ctx, s', rfl, hpair, h⟩
      obtain ⟨hstep, -⟩ := Chain.creates_billed hs.inv (hopened _) h
      rw [initializePool_forPair hstep hpair] at h
      obtain ⟨⟨hsigner, hx, hy, hne, hfee, hfree⟩, hafford⟩ := hpays.mp ⟨s', h⟩
      exact ⟨hsigner, hx, hy, hne, hfee, hfree, hafford⟩
    · rintro ⟨hsigner, hx, hy, hne, hfee, hfree, hafford⟩
      obtain ⟨s', h⟩ := hpays.mpr ⟨⟨hsigner, hx, hy, hne, hfee, hfree⟩, hafford⟩
      refine ⟨_, s', rfl, ?_, h⟩
      simp only [InitializePool.forPair, InitializePool.of, World.inOrder]
      split_ifs
      · rfl
      · exact Sym2.eq_swap

end

open Lopsided in
/-- The pool of `issued` is in order, and will stay the only one for its pair. -/
theorem one_pool_per_pair_issued :
    ∃ P, issued.chain.world.Paired P ∧
      ∀ as w', Run step issued.chain.world as w' →
        ∀ p' P', w'.pools p' = some P' → P'.pair = P.pair → p' = pool := by
  obtain ⟨P, hP⟩ : ∃ P, issued.chain.world.pools pool = some P :=
    Option.isSome_iff_exists.mp (by decide +kernel)
  obtain ⟨hterms, hruns, -⟩ := one_pool_per_pair issued_reachable.chain
  exact ⟨P, (hterms _ _ hP).2, fun as w' t => (hruns _ _ as w' hP t).2⟩

end StablecoinAmm
