import StablecoinAmm.Chain.World

/-!
# Amm — the accounts of a pool instruction

`swap` lists the accounts of a pool, of both stablecoins and of the user (`PoolAccounts`);
`add_liquidity` and `remove_liquidity` list these and the LP side (`LiquidityAccounts`), under
the same constraints.  Anchor reads every account before it checks any constraint, and checks
the constraints in the order of the fields; so do `validate` and the functions it calls.

The second half is `instructions/mod.rs`, the checks the handlers repeat.
-/

namespace StablecoinAmm
open Support

/-! ### `Swap`, `AddLiquidity`, `RemoveLiquidity` -/

structure PoolAccounts where
  user : Pubkey
  pool : Pubkey
  mintA : Pubkey
  mintB : Pubkey
  configA : Pubkey
  configB : Pubkey
  vaultA : Pubkey
  vaultB : Pubkey
  lpMint : Pubkey
  userA : Pubkey
  userB : Pubkey
  policyA : Pubkey
  policyB : Pubkey

structure LiquidityAccounts extends PoolAccounts where
  lockedLp : Pubkey
  userLp : Pubkey

/-- The accounts of a pool instruction, as they are before its calls. -/
structure PoolAccounts.Loaded where
  pool : Pool
  mintA : Mint
  mintB : Mint
  configA : MintConfig
  configB : MintConfig
  vaultA : TokenAccount
  vaultB : TokenAccount
  lpMint : Mint
  userA : TokenAccount
  userB : TokenAccount
  policyA : WalletPolicy
  policyB : WalletPolicy

structure LiquidityAccounts.Loaded extends PoolAccounts.Loaded where
  lockedLp : TokenAccount
  userLp : TokenAccount

def PoolAccounts.load (w : World) (ctx : PoolAccounts) :
    Except (ProgramError AmmError) PoolAccounts.Loaded := do
  requireSigner ctx.user
  let pool ← StablecoinAmm.load (w.pools ctx.pool)
  let mintA ← StablecoinAmm.load (w.ledger.mints ctx.mintA)
  let mintB ← StablecoinAmm.load (w.ledger.mints ctx.mintB)
  let configA ← StablecoinAmm.load (w.configs ctx.configA)
  let configB ← StablecoinAmm.load (w.configs ctx.configB)
  let vaultA ← StablecoinAmm.load (w.ledger.tokens ctx.vaultA)
  let vaultB ← StablecoinAmm.load (w.ledger.tokens ctx.vaultB)
  let lpMint ← StablecoinAmm.load (w.ledger.mints ctx.lpMint)
  let userA ← StablecoinAmm.load (w.ledger.tokens ctx.userA)
  let userB ← StablecoinAmm.load (w.ledger.tokens ctx.userB)
  let policyA ← StablecoinAmm.load (w.walletPolicies ctx.policyA)
  let policyB ← StablecoinAmm.load (w.walletPolicies ctx.policyB)
  pure { pool, mintA, mintB, configA, configB, vaultA, vaultB, lpMint, userA, userB, policyA,
         policyB }

/-- The seeds and `has_one`s of `pool`. -/
def PoolAccounts.requirePool (ctx : PoolAccounts) (pool : Pool) :
    Except (ProgramError AmmError) Unit := do
  requireSeeds ctx.pool (.pool pool.mintA pool.mintB)
  requireHasOne pool.mintA ctx.mintA
  requireHasOne pool.mintB ctx.mintB
  requireHasOne pool.vaultA ctx.vaultA
  requireHasOne pool.vaultB ctx.vaultB
  requireHasOne pool.lpMint ctx.lpMint

/-- `config_a` and `config_b`. -/
def requireConfig (key mint : Pubkey) (config : MintConfig) :
    Except (ProgramError AmmError) Unit := do
  requireSeeds key (.config mint)
  ensure (config.mint = mint) .invalidStablecoinConfig

/-- `user_a`, `user_b` and `user_lp`: not the pool's own account of that mint, of the right mint,
and owned by the user. -/
def requireUserAccount (key reserved mint user : Pubkey) (account : TokenAccount) :
    Except (ProgramError AmmError) Unit := do
  ensure (key ≠ reserved) .duplicateAccount
  ensure (account.mint = mint) .tokenAccountMintMismatch
  ensure (account.owner = user) .invalidTokenOwner

/-- `policy_a` and `policy_b`. -/
def requirePolicy (key mint account : Pubkey) (policy : WalletPolicy) :
    Except (ProgramError AmmError) Unit := do
  requireSeeds key (.walletPolicy mint account)
  ensure (policy.status = .allowed) .walletNotAllowed

/-- `Swap`. -/
def PoolAccounts.validate (w : World) (ctx : PoolAccounts) :
    Except (ProgramError AmmError) PoolAccounts.Loaded := do
  let a ← ctx.load w
  ctx.requirePool a.pool
  requireConfig ctx.configA ctx.mintA a.configA
  requireConfig ctx.configB ctx.mintB a.configB
  requireUserAccount ctx.userA a.pool.vaultA ctx.mintA ctx.user a.userA
  requireUserAccount ctx.userB a.pool.vaultB ctx.mintB ctx.user a.userB
  requirePolicy ctx.policyA ctx.mintA ctx.userA a.policyA
  requirePolicy ctx.policyB ctx.mintB ctx.userB a.policyB
  pure a

/-- `AddLiquidity` and `RemoveLiquidity`. -/
def LiquidityAccounts.validate (w : World) (ctx : LiquidityAccounts) :
    Except (ProgramError AmmError) LiquidityAccounts.Loaded := do
  let a ← ctx.toPoolAccounts.load w
  let lockedLp ← StablecoinAmm.load (w.ledger.tokens ctx.lockedLp)
  let userLp ← StablecoinAmm.load (w.ledger.tokens ctx.userLp)
  ctx.toPoolAccounts.requirePool a.pool
  requireHasOne a.pool.lockedLp ctx.lockedLp
  requireConfig ctx.configA ctx.mintA a.configA
  requireConfig ctx.configB ctx.mintB a.configB
  requireUserAccount ctx.userA a.pool.vaultA ctx.mintA ctx.user a.userA
  requireUserAccount ctx.userB a.pool.vaultB ctx.mintB ctx.user a.userB
  requireUserAccount ctx.userLp a.pool.lockedLp ctx.lpMint ctx.user userLp
  requirePolicy ctx.policyA ctx.mintA ctx.userA a.policyA
  requirePolicy ctx.policyB ctx.mintB ctx.userB a.policyB
  pure { a with lockedLp, userLp }

/-! ### `instructions/mod.rs` -/

def ensureUnpaused (configA configB : MintConfig) : Except (ProgramError AmmError) Unit :=
  ensure (¬ configA.paused ∧ ¬ configB.paused) .protocolPaused

/-- Vaults may hold donated surplus, so solvency is one-sided. -/
def ensureSolvent (pool : Pool) (vaultA vaultB : ℕ) : Except (ProgramError AmmError) Unit :=
  ensure (vaultA ≥ pool.reserveA ∧ vaultB ≥ pool.reserveB) .vaultBalanceInvariant

/-- Anyone can send LP tokens to the locked account, so its balance is bounded from below by the
minted minimum and from above by the live supply. -/
def ensureSeeded (pool : Pool) (lpSupply lockedLp : ℕ) : Except (ProgramError AmmError) Unit := do
  ensure (0 < pool.reserveA ∧ 0 < pool.reserveB ∧ lpSupply ≥ Amm.minimumLiquidity)
    .invalidLiquidityState
  ensure (lockedLp ≥ Amm.minimumLiquidity ∧ lockedLp ≤ lpSupply) .lockedLiquidityInvariant

def ensureChildren (ctx : PoolAccounts) (a : PoolAccounts.Loaded) :
    Except (ProgramError AmmError) Unit := do
  ensure (ctx.vaultA ≠ ctx.vaultB) .duplicateAccount
  ensure (a.vaultA.mint = a.pool.mintA ∧ a.vaultB.mint = a.pool.mintB) .tokenAccountMintMismatch
  ensure (a.vaultA.owner = ctx.pool ∧ a.vaultB.owner = ctx.pool) .invalidTokenOwner
  ensure (a.lpMint.decimals = a.pool.decimals) .decimalsMismatch
  ensure (a.lpMint.mintAuthority = some ctx.pool ∧ a.lpMint.freezeAuthority = none)
    .invalidMintAuthority

def ensureLockedAccount (ctx : LiquidityAccounts) (a : LiquidityAccounts.Loaded) :
    Except (ProgramError AmmError) Unit := do
  ensure (a.lockedLp.mint = ctx.lpMint) .tokenAccountMintMismatch
  ensure (a.lockedLp.owner = ctx.pool) .invalidTokenOwner

end StablecoinAmm
