import StablecoinAmm.Amm.Accounts

/-!
# Amm — the handlers

`initialize_pool`, `add_liquidity`, `remove_liquidity` and `swap`.  A handler's calls into
Token-2022 thread the ledger; what it reads after them (`reload`) it reads from the new one.
-/

namespace StablecoinAmm
open Support

/-- `.map_err(AmmError::from)?`. -/
def quoted {α : Type} (x : Except Amm.MathError α) : Except (ProgramError AmmError) α :=
  x.mapError fun e => .custom (.ofMath e)

/-! ### `initialize_pool` -/

structure InitializePool where
  payer : Pubkey
  mintA : Pubkey
  mintB : Pubkey
  configA : Pubkey
  configB : Pubkey
  pool : Pubkey
  vaultA : Pubkey
  vaultB : Pubkey
  lpMint : Pubkey
  lockedLp : Pubkey

def supportedMintExtensions : List ExtensionType :=
  [.defaultAccountState, .pausable, .metadataPointer, .tokenMetadata]

/-- Token-2022 applies the mint's default frozen state, so vaults start frozen. -/
def createVault (l : Ledger) (vault mint pool : Pubkey) : Except (ProgramError AmmError) Ledger := do
  let m ← invoke (l.mint mint)
  ensure (m.extensions.all (· ∈ supportedMintExtensions)) .unsupportedMintExtension
  ensure ((l.tokens vault).isNone) .childAccountInUse
  invoke (l.initializeAccount3 vault mint pool false)

def initializePool (w : World) (ctx : InitializePool) (feeBps : ℕ) :
    Except (ProgramError AmmError) World := do
  requireSigner ctx.payer
  let mintA ← load (w.ledger.mints ctx.mintA)
  let mintB ← load (w.ledger.mints ctx.mintB)
  let configA ← load (w.configs ctx.configA)
  let configB ← load (w.configs ctx.configB)
  requireSeeds ctx.pool (.pool ctx.mintA ctx.mintB)
  requireFree (w.pools ctx.pool)
  requireConfig ctx.configA ctx.mintA configA
  requireConfig ctx.configB ctx.mintB configB
  requireSeeds ctx.vaultA (.vault ctx.pool ctx.mintA)
  requireSeeds ctx.vaultB (.vault ctx.pool ctx.mintB)
  requireSeeds ctx.lpMint (.lpMint ctx.pool)
  requireSeeds ctx.lockedLp (.lockedLp ctx.pool)
  ensure (ctx.mintA ≠ ctx.mintB) .identicalMints
  ensure (w.addressBytes ctx.mintA < w.addressBytes ctx.mintB) .invalidMintOrder
  ensure (feeBps ≤ Amm.maxFeeBps) .feeTooHigh
  let decimals := mintA.decimals
  ensure (decimals = mintB.decimals ∧ decimals = stablecoinDecimals) .decimalsMismatch
  let ledger ← createVault w.ledger ctx.vaultA ctx.mintA ctx.pool
  let ledger ← createVault ledger ctx.vaultB ctx.mintB ctx.pool
  ensure ((ledger.mints ctx.lpMint).isNone) .childAccountInUse
  let ledger ← invoke (ledger.initializeMint2 ctx.lpMint decimals ctx.pool none [] .initialized
    none none)
  ensure ((ledger.tokens ctx.lockedLp).isNone) .childAccountInUse
  let ledger ← invoke (ledger.initializeAccount3 ctx.lockedLp ctx.lpMint ctx.pool false)
  let pool : Pool :=
    { mintA := ctx.mintA, mintB := ctx.mintB, vaultA := ctx.vaultA, vaultB := ctx.vaultB,
      lpMint := ctx.lpMint, lockedLp := ctx.lockedLp, reserveA := 0, reserveB := 0, feeBps,
      decimals }
  pure ({ w with ledger }.setPool ctx.pool pool)

/-! ### `add_liquidity` -/

structure DepositTerms where
  amountA : ℕ
  amountB : ℕ
  lpToUser : ℕ
  lpToLock : ℕ

/-- What a deposit is charged and minted: the first one in full, a later one at the pool's
ratio. -/
def depositTerms (pool : Pool) (lpSupply lockedLp amountADesired amountBDesired : ℕ) :
    Except (ProgramError AmmError) DepositTerms :=
  if lpSupply = 0 then do
    ensure (pool.reserveA = 0 ∧ pool.reserveB = 0 ∧ lockedLp = 0) .invalidLiquidityState
    let quote ← quoted (Amm.quoteInitialLiquidity amountADesired amountBDesired)
    pure { amountA := amountADesired, amountB := amountBDesired, lpToUser := quote.lpToUser,
           lpToLock := quote.lpToLock }
  else do
    ensureSeeded pool lpSupply lockedLp
    let quote ← quoted (Amm.quoteAddLiquidity amountADesired amountBDesired pool.reserveA
      pool.reserveB lpSupply)
    pure { amountA := quote.amountA, amountB := quote.amountB, lpToUser := quote.lpMinted,
           lpToLock := 0 }

/-- `if lp_to_lock > 0`, the mint into the locked account. -/
def mintLocked (l : Ledger) (ctx : LiquidityAccounts) (pool : Pool) (lpToLock lpDecimals : ℕ) :
    Except TokenError Ledger :=
  if lpToLock > 0 then
    l.mintToChecked { mint := ctx.lpMint, destination := ctx.lockedLp, authority := ctx.pool }
      (.pool pool.mintA pool.mintB) lpToLock lpDecimals
  else
    pure l

def addLiquidity (w : World) (ctx : LiquidityAccounts)
    (amountADesired amountBDesired amountAMin amountBMin minLpOut : ℕ) :
    Except (ProgramError AmmError) World := do
  let a ← ctx.validate w
  ensure (0 < amountADesired ∧ 0 < amountBDesired) .zeroAmount
  ensureUnpaused a.configA a.configB
  ensureChildren ctx.toPoolAccounts a.toLoaded
  ensureLockedAccount ctx a
  let pool := a.pool
  ensureSolvent pool a.vaultA.amount a.vaultB.amount
  let lpSupply := a.lpMint.supply
  let t ← depositTerms pool lpSupply a.lockedLp.amount amountADesired amountBDesired
  ensure (t.amountA ≥ amountAMin ∧ t.amountB ≥ amountBMin ∧ t.lpToUser ≥ minLpOut)
    .slippageExceeded
  -- what is stored and expected afterwards is fixed before the first call
  let reserveA ← okOr (checkedAdd 64 pool.reserveA t.amountA) (.custom .mathOverflow)
  let reserveB ← okOr (checkedAdd 64 pool.reserveB t.amountB) (.custom .mathOverflow)
  let withUser ← okOr (checkedAdd 64 lpSupply t.lpToUser) (.custom .mathOverflow)
  let expectedLpSupply ← okOr (checkedAdd 64 withUser t.lpToLock) (.custom .mathOverflow)
  let ledger ← invoke (w.ledger.transferChecked
    { source := ctx.userA, mint := ctx.mintA, destination := ctx.vaultA, authority := ctx.user }
    ctx.user t.amountA pool.decimals)
  let ledger ← invoke (ledger.transferChecked
    { source := ctx.userB, mint := ctx.mintB, destination := ctx.vaultB, authority := ctx.user }
    ctx.user t.amountB pool.decimals)
  let ledger ← invoke (mintLocked ledger ctx pool t.lpToLock a.lpMint.decimals)
  let ledger ← invoke (ledger.mintToChecked
    { mint := ctx.lpMint, destination := ctx.userLp, authority := ctx.pool }
    (.pool pool.mintA pool.mintB) t.lpToUser a.lpMint.decimals)
  let pool := { pool with reserveA, reserveB }
  let vaultA ← invoke (ledger.token ctx.vaultA)
  let vaultB ← invoke (ledger.token ctx.vaultB)
  let lpMint ← invoke (ledger.mint ctx.lpMint)
  let lockedLp ← invoke (ledger.token ctx.lockedLp)
  ensure (lpMint.supply = expectedLpSupply) .lpSupplyInvariant
  ensureSolvent pool vaultA.amount vaultB.amount
  ensureSeeded pool expectedLpSupply lockedLp.amount
  pure ({ w with ledger }.setPool ctx.pool pool)

/-! ### `remove_liquidity` -/

def removeLiquidity (w : World) (ctx : LiquidityAccounts) (lpAmount minAOut minBOut : ℕ) :
    Except (ProgramError AmmError) World := do
  let a ← ctx.validate w
  ensure (0 < lpAmount) .zeroAmount
  ensureUnpaused a.configA a.configB
  ensureChildren ctx.toPoolAccounts a.toLoaded
  ensureLockedAccount ctx a
  let pool := a.pool
  ensureSolvent pool a.vaultA.amount a.vaultB.amount
  let lpSupply := a.lpMint.supply
  ensureSeeded pool lpSupply a.lockedLp.amount
  let quote ← quoted (Amm.quoteRemoveLiquidity lpAmount pool.reserveA pool.reserveB lpSupply)
  -- the locked tokens are among the supply that remains
  ensure (quote.newLpSupply ≥ a.lockedLp.amount) .lockedLiquidityInvariant
  ensure (quote.amountA ≥ minAOut ∧ quote.amountB ≥ minBOut) .slippageExceeded
  let ledger ← invoke (w.ledger.burnChecked
    { mint := ctx.lpMint, source := ctx.userLp, authority := ctx.user } ctx.user lpAmount
    a.lpMint.decimals)
  let ledger ← invoke (ledger.transferChecked
    { source := ctx.vaultA, mint := ctx.mintA, destination := ctx.userA, authority := ctx.pool }
    (.pool pool.mintA pool.mintB) quote.amountA pool.decimals)
  let ledger ← invoke (ledger.transferChecked
    { source := ctx.vaultB, mint := ctx.mintB, destination := ctx.userB, authority := ctx.pool }
    (.pool pool.mintA pool.mintB) quote.amountB pool.decimals)
  let pool := { pool with reserveA := quote.newReserveA, reserveB := quote.newReserveB }
  let vaultA ← invoke (ledger.token ctx.vaultA)
  let vaultB ← invoke (ledger.token ctx.vaultB)
  let lpMint ← invoke (ledger.mint ctx.lpMint)
  ensure (lpMint.supply = quote.newLpSupply) .lpSupplyInvariant
  ensureSolvent pool vaultA.amount vaultB.amount
  ensureSeeded pool quote.newLpSupply a.lockedLp.amount
  pure ({ w with ledger }.setPool ctx.pool pool)

/-! ### `swap` -/

/-- The reserves a swap goes from and to. -/
def Pool.reserves (pool : Pool) : SwapDirection → ℕ × ℕ
  | .aToB => (pool.reserveA, pool.reserveB)
  | .bToA => (pool.reserveB, pool.reserveA)

/-- The user's deposit into the pool. -/
def PoolAccounts.transferIn (ctx : PoolAccounts) : SwapDirection → Ledger.TransferChecked
  | .aToB =>
      { source := ctx.userA, mint := ctx.mintA, destination := ctx.vaultA, authority := ctx.user }
  | .bToA =>
      { source := ctx.userB, mint := ctx.mintB, destination := ctx.vaultB, authority := ctx.user }

/-- The pool's payment to the user. -/
def PoolAccounts.transferOut (ctx : PoolAccounts) : SwapDirection → Ledger.TransferChecked
  | .aToB =>
      { source := ctx.vaultB, mint := ctx.mintB, destination := ctx.userB, authority := ctx.pool }
  | .bToA =>
      { source := ctx.vaultA, mint := ctx.mintA, destination := ctx.userA, authority := ctx.pool }

/-- The pool after a swap. -/
def Pool.afterSwap (pool : Pool) (quote : Amm.SwapQuote) : SwapDirection → Pool
  | .aToB => { pool with reserveA := quote.newReserveIn, reserveB := quote.newReserveOut }
  | .bToA => { pool with reserveA := quote.newReserveOut, reserveB := quote.newReserveIn }

def swap (w : World) (ctx : PoolAccounts) (direction : SwapDirection) (amountIn minAmountOut : ℕ) :
    Except (ProgramError AmmError) World := do
  let a ← ctx.validate w
  ensure (0 < amountIn) .zeroAmount
  ensureUnpaused a.configA a.configB
  ensureChildren ctx a
  let pool := a.pool
  ensureSolvent pool a.vaultA.amount a.vaultB.amount
  let reserveIn := (pool.reserves direction).1
  let reserveOut := (pool.reserves direction).2
  let oldK ← okOr (checkedMul 128 reserveIn reserveOut) (.custom .mathOverflow)
  let quote ← quoted (Amm.quoteSwap amountIn reserveIn reserveOut pool.feeBps)
  ensure (quote.amountOut ≥ minAmountOut) .slippageExceeded
  let ledger ← invoke (w.ledger.transferChecked (ctx.transferIn direction) ctx.user amountIn
    pool.decimals)
  let ledger ← invoke (ledger.transferChecked (ctx.transferOut direction)
    (.pool pool.mintA pool.mintB) quote.amountOut pool.decimals)
  -- the invariant of the quote once more, on the reserves about to be stored
  let newK ← okOr (checkedMul 128 quote.newReserveIn quote.newReserveOut) (.custom .mathOverflow)
  ensure (newK ≥ oldK) .constantProductViolation
  let pool := pool.afterSwap quote direction
  let vaultA ← invoke (ledger.token ctx.vaultA)
  let vaultB ← invoke (ledger.token ctx.vaultB)
  ensureSolvent pool vaultA.amount vaultB.amount
  pure ({ w with ledger }.setPool ctx.pool pool)

end StablecoinAmm
