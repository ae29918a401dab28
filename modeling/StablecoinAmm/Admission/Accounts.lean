import StablecoinAmm.Admission.Calls
import StablecoinAmm.Identity.Pairs
import StablecoinAmm.Issuance.Pause

/-!
# Admission — the accounts of a pool

What a caller has to bring to `swap`, `add_liquidity` and `remove_liquidity`: its signature, the
accounts of one pool, and thawed accounts of its own (`PoolAccounts.Proper`).  In a reachable
world this, and a pool whose vaults are thawed and whose stablecoins are live (`World.Open`), is
all that account validation and the handlers' checks of the accounts ask for; in particular a
thawed account has its policy, and an LP account is never frozen (`World.SharesThawed`).
-/

namespace StablecoinAmm
open Support Ledger

/-! ### LP accounts -/

section
variable {w w' : World}

end

/-! ### What the caller brings -/

/-- The user signs, names the accounts of the pool `P`, and has thawed accounts of its own. -/
structure PoolAccounts.Proper (w : World) (ctx : PoolAccounts) (P : Pool) : Prop where
  signer : ctx.user.isSigner
  pool : w.pools ctx.pool = some P
  mintA : ctx.mintA = P.mintA
  mintB : ctx.mintB = P.mintB
  vaultA : ctx.vaultA = P.vaultA
  vaultB : ctx.vaultB = P.vaultB
  lpMint : ctx.lpMint = P.lpMint
  configA : ctx.configA = .config P.mintA
  configB : ctx.configB = .config P.mintB
  policyA : ctx.policyA = .walletPolicy P.mintA ctx.userA
  policyB : ctx.policyB = .walletPolicy P.mintB ctx.userB
  userA : w.ledger.Thawed ctx.userA P.mintA ctx.user
  userB : w.ledger.Thawed ctx.userB P.mintB ctx.user

structure LiquidityAccounts.Proper (w : World) (ctx : LiquidityAccounts) (P : Pool) : Prop
    extends ctx.toPoolAccounts.Proper w P where
  lockedLp : ctx.lockedLp = P.lockedLp
  userLp : w.ledger.HasAccount ctx.userLp P.lpMint ctx.user

/-- The pool can be used: both stablecoins are live and both vaults thawed. -/
structure World.Open (w : World) (p : Pubkey) (P : Pool) : Prop where
  liveA : w.ledger.Live P.mintA
  liveB : w.ledger.Live P.mintB
  vaultA : w.ledger.Thawed P.vaultA P.mintA p
  vaultB : w.ledger.Thawed P.vaultB P.mintB p

/-! ### Account validation passes -/

section
variable {w : World} {ctx : PoolAccounts} {a : PoolAccounts.Loaded}

theorem requireConfig_of {key mint : Pubkey} {c : MintConfig} (hk : key = .config mint)
    (hm : c.mint = mint) : requireConfig key mint c = .ok () := by
  rw [requireConfig, requireSeeds, require_of hk, ok_bind, ensure, require_of hm]

theorem requireUserAccount_of {key reserved mint user : Pubkey} {b : TokenAccount}
    (hne : key ≠ reserved) (hm : b.mint = mint) (ho : b.owner = user) :
    requireUserAccount key reserved mint user b = .ok () := by
  rw [requireUserAccount, ensure, require_of hne, ok_bind, ensure, require_of hm, ok_bind, ensure,
    require_of ho]

theorem requirePolicy_of {key mint account : Pubkey} {p : WalletPolicy}
    (hk : key = .walletPolicy mint account) (hs : p.status = .allowed) :
    requirePolicy key mint account p = .ok () := by
  rw [requirePolicy, requireSeeds, require_of hk, ok_bind, ensure, require_of hs]

end

/-- A stablecoin, with everything an instruction reads of it. -/
structure World.Issued (w : World) (m : Pubkey) (c : MintConfig) (M : Mint) : Prop where
  config : w.configs (.config m) = some c
  mint_eq : c.mint = m
  mint : w.ledger.mints m = some M
  decimals : M.decimals = stablecoinDecimals
  flag : M.isPaused = c.paused
  supply_le : M.supply ≤ maxSupplyCap

section
variable {w : World} {p m : Pubkey} {P : Pool}

theorem World.Reachable.issued (hw : w.Reachable) (hm : w.IsStablecoin m) :
    ∃ c M, w.Issued m c M := by
  obtain ⟨c, M, hc, hcm, hM, hd, -⟩ := hw.described.poolable hw.inv.shape hm
  obtain ⟨N, q, hN, hq, hp⟩ := hw.inv.shape.pausable hc
  obtain rfl := Option.some.inj (hM.symm.trans hN)
  have hacc := hw.inv.accounted _ c hc
  have hle := hacc.supply_le.trans hacc.supplyCap_le
  rw [hcm, supply_of hM] at hle
  exact ⟨c, M, hc, hcm, hM, hd, by rw [Mint.isPaused, hq, Option.elim_some, hp], hle⟩

theorem World.Issued.tradable {c : MintConfig} {M : Mint} (h : w.Issued m c M)
    (hl : w.ledger.Live m) : w.ledger.Tradable m stablecoinDecimals :=
  ⟨M, h.mint, (live_iff_of h.mint).mp hl, h.decimals⟩

theorem World.Issued.live_iff {c : MintConfig} {M : Mint} (h : w.Issued m c M) :
    w.ledger.Live m ↔ c.paused = false := by
  rw [live_iff_of h.mint, h.flag, Bool.not_eq_true]

/-- What is at an address, by what is known of it. -/
theorem Ledger.HasAccount.of_tokens {l : Ledger} {k o : Pubkey} {b : TokenAccount}
    (h : l.HasAccount k m o) (hb : l.tokens k = some b) : b.mint = m ∧ b.owner = o := by
  obtain ⟨b', hb', hm, ho⟩ := h
  obtain rfl := Option.some.inj (hb.symm.trans hb')
  exact ⟨hm, ho⟩

/-- The checks that validation and the handlers make of the accounts read. -/
structure PoolAccounts.Passes (ctx : PoolAccounts) (a : PoolAccounts.Loaded) : Prop where
  pool : ctx.requirePool a.pool = .ok ()
  configA : requireConfig ctx.configA ctx.mintA a.configA = .ok ()
  configB : requireConfig ctx.configB ctx.mintB a.configB = .ok ()
  userA : requireUserAccount ctx.userA a.pool.vaultA ctx.mintA ctx.user a.userA = .ok ()
  userB : requireUserAccount ctx.userB a.pool.vaultB ctx.mintB ctx.user a.userB = .ok ()
  policyA : requirePolicy ctx.policyA ctx.mintA ctx.userA a.policyA = .ok ()
  policyB : requirePolicy ctx.policyB ctx.mintB ctx.userB a.policyB = .ok ()
  children : ensureChildren ctx a = .ok ()

theorem PoolAccounts.Proper.passes (hs : w.Shape) {ctx : PoolAccounts} {a : PoolAccounts.Loaded}
    (h : ctx.Proper w a.pool) (hl : ctx.Loads w a) (hA : a.configA.mint = a.pool.mintA)
    (hB : a.configB.mint = a.pool.mintB) (hsA : a.policyA.status = .allowed)
    (hsB : a.policyB.status = .allowed) : ctx.Passes a := by
  have hP := hs.pool _ _ h.pool
  have hpl := hP.placed
  have hne : ctx.pool ≠ ctx.user := (hs.signer_ne h.pool h.signer).symm
  obtain ⟨huAm, huAo⟩ := h.userA.hasAccount.of_tokens hl.userA
  obtain ⟨huBm, huBo⟩ := h.userB.hasAccount.of_tokens hl.userB
  obtain ⟨hvAm, hvAo⟩ := hP.vaultA.of_tokens (h.vaultA ▸ hl.vaultA)
  obtain ⟨hvBm, hvBo⟩ := hP.vaultB.of_tokens (h.vaultB ▸ hl.vaultB)
  obtain ⟨L, hL, hLs⟩ := hP.lpMint
  obtain rfl : L = a.lpMint := Option.some.inj (hL.symm.trans (h.lpMint ▸ hl.lpMint))
  have huA : ctx.userA ≠ a.pool.vaultA := (hP.vaultA.ne_of_owner h.userA.hasAccount hne).symm
  have huB : ctx.userB ≠ a.pool.vaultB := (hP.vaultB.ne_of_owner h.userB.hasAccount hne).symm
  have hvaults : ctx.vaultA ≠ ctx.vaultB := by
    rw [h.vaultA, h.vaultB]
    exact hP.vaultA.ne_of_mint hP.vaultB hpl.mints_ne
  constructor
  case pool =>
    simp only [requirePool, requireSeeds, requireHasOne, require_of hpl.key,
      require_of h.mintA.symm, require_of h.mintB.symm, require_of h.vaultA.symm,
      require_of h.vaultB.symm, require_of h.lpMint.symm, ok_bind]
  case configA => exact requireConfig_of (h.mintA ▸ h.configA) (hA.trans h.mintA.symm)
  case configB => exact requireConfig_of (h.mintB ▸ h.configB) (hB.trans h.mintB.symm)
  case userA => exact requireUserAccount_of huA (huAm.trans h.mintA.symm) huAo
  case userB => exact requireUserAccount_of huB (huBm.trans h.mintB.symm) huBo
  case policyA => exact requirePolicy_of (h.mintA ▸ h.policyA) hsA
  case policyB => exact requirePolicy_of (h.mintB ▸ h.policyB) hsB
  case children =>
    have hmints : a.vaultA.mint = a.pool.mintA ∧ a.vaultB.mint = a.pool.mintB := ⟨hvAm, hvBm⟩
    have howners : a.vaultA.owner = ctx.pool ∧ a.vaultB.owner = ctx.pool := ⟨hvAo, hvBo⟩
    have hauth : a.lpMint.mintAuthority = some ctx.pool ∧ a.lpMint.freezeAuthority = none :=
      ⟨hLs.mintAuthority, hLs.freezeAuthority⟩
    simp only [ensureChildren, ensure, require_of hvaults, require_of hmints, require_of howners,
      require_of hLs.decimals, require_of hauth, ok_bind]

theorem World.Open.unpaused {a : PoolAccounts.Loaded} (ho : w.Open p P) {mA mB : Mint}
    (hA : w.Issued P.mintA a.configA mA) (hB : w.Issued P.mintB a.configB mB) :
    ensureUnpaused a.configA a.configB = .ok () := by
  have hcA := hA.live_iff.mp ho.liveA
  have hcB := hB.live_iff.mp ho.liveB
  exact require_of ⟨by simp [hcA], by simp [hcB]⟩ _

end

/-! ### And only then -/

/-- The policies a pool instruction was given. -/
def PoolAccounts.PolicyKeys (ctx : PoolAccounts) : Prop :=
  ctx.policyA = .walletPolicy ctx.mintA ctx.userA ∧ ctx.policyB = .walletPolicy ctx.mintB ctx.userB

theorem PoolAccounts.validate_policies {w : World} {ctx : PoolAccounts} {a : PoolAccounts.Loaded}
    (h : ctx.validate w = .ok a) : ctx.PolicyKeys := by
  simp only [PoolAccounts.validate, bind_ok_iff] at h
  obtain ⟨_, -, -, -, -, -, -, -, -, -, -, -, _, hA, _, hB, -⟩ := h
  exact ⟨((requirePolicy_sat ..).ok hA).1, ((requirePolicy_sat ..).ok hB).1⟩

theorem LiquidityAccounts.validate_policies {w : World} {ctx : LiquidityAccounts}
    {a : LiquidityAccounts.Loaded} (h : ctx.validate w = .ok a) :
    ctx.toPoolAccounts.PolicyKeys := by
  simp only [LiquidityAccounts.validate, bind_ok_iff] at h
  obtain ⟨_, -, _, -, _, -, -, -, -, -, -, -, -, -, -, -, -, -, -, -, _, hA, _, hB, -⟩ := h
  exact ⟨((requirePolicy_sat ..).ok hA).1, ((requirePolicy_sat ..).ok hB).1⟩

section
variable {w : World} {ctx : PoolAccounts} {a : PoolAccounts.Loaded}

theorem PoolAccounts.Valid.proper (hv : ctx.Valid w a) (hk : ctx.PolicyKeys)
    (huA : w.ledger.Thawed ctx.userA ctx.mintA ctx.user)
    (huB : w.ledger.Thawed ctx.userB ctx.mintB ctx.user) : ctx.Proper w a.pool where
  signer := hv.signer
  pool := hv.pool
  mintA := hv.mintA_eq.symm
  mintB := hv.mintB_eq.symm
  vaultA := hv.vaultA_eq.symm
  vaultB := hv.vaultB_eq.symm
  lpMint := hv.lpMint_eq.symm
  configA := hv.mintA_eq ▸ hv.configA_key
  configB := hv.mintB_eq ▸ hv.configB_key
  policyA := hv.mintA_eq ▸ hk.1
  policyB := hv.mintB_eq ▸ hk.2
  userA := hv.mintA_eq ▸ huA
  userB := hv.mintB_eq ▸ huB

theorem PoolAccounts.Valid.vaults (hv : ctx.Valid w a) (hs : w.Shape) :
    w.ledger.HasAccount ctx.vaultA ctx.mintA ctx.pool ∧
      w.ledger.HasAccount ctx.vaultB ctx.mintB ctx.pool := by
  have hP := hs.pool _ _ hv.pool
  exact ⟨hv.vaultA_eq ▸ hv.mintA_eq ▸ hP.vaultA, hv.vaultB_eq ▸ hv.mintB_eq ▸ hP.vaultB⟩

theorem PoolAccounts.Valid.isOpen (hv : ctx.Valid w a) (hA : w.ledger.Live ctx.mintA)
    (hB : w.ledger.Live ctx.mintB) (hvA : w.ledger.Thawed ctx.vaultA ctx.mintA ctx.pool)
    (hvB : w.ledger.Thawed ctx.vaultB ctx.mintB ctx.pool) : w.Open ctx.pool a.pool where
  liveA := hv.mintA_eq ▸ hA
  liveB := hv.mintB_eq ▸ hB
  vaultA := by rw [hv.vaultA_eq, hv.mintA_eq]; exact hvA
  vaultB := by rw [hv.vaultB_eq, hv.mintB_eq]; exact hvB

end

end StablecoinAmm
