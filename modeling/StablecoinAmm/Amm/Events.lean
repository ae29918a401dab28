import StablecoinAmm.Amm.Instructions

/-!
# Amm — events

`events.rs`, and the `emit!` that ends each handler, computed from the accounts before the
instruction in the handler's own steps, as for the stablecoin program.
-/

namespace StablecoinAmm
open Support

inductive AmmEvent where
  | poolInitialized (pool mintA mintB lpMint : Pubkey) (feeBps decimals : ℕ)
  | liquidityAdded (pool user : Pubkey)
      (amountA amountB lpMinted reserveA reserveB lpSupply : ℕ)
  | liquidityRemoved (pool user : Pubkey)
      (lpBurned amountA amountB reserveA reserveB lpSupply : ℕ)
  | swapExecuted (pool user : Pubkey) (direction : SwapDirection)
      (amountIn amountOut reserveA reserveB : ℕ)
  deriving DecidableEq

def InitializePool.emitted (w : World) (ctx : InitializePool) (feeBps : ℕ) : Option AmmEvent := do
  let mintA ← w.ledger.mints ctx.mintA
  pure (.poolInitialized ctx.pool ctx.mintA ctx.mintB ctx.lpMint feeBps mintA.decimals)

/-- `lp_minted` is what the user got; what the first deposit locks is in `lp_supply` alone. -/
def LiquidityAccounts.addEmitted (w : World) (ctx : LiquidityAccounts)
    (amountADesired amountBDesired : ℕ) : Option AmmEvent := do
  let pool ← w.pools ctx.pool
  let lpMint ← w.ledger.mints ctx.lpMint
  let lockedLp ← w.ledger.tokens ctx.lockedLp
  let t ← (depositTerms pool lpMint.supply lockedLp.amount amountADesired amountBDesired).toOption
  let reserveA ← checkedAdd 64 pool.reserveA t.amountA
  let reserveB ← checkedAdd 64 pool.reserveB t.amountB
  let withUser ← checkedAdd 64 lpMint.supply t.lpToUser
  let expectedLpSupply ← checkedAdd 64 withUser t.lpToLock
  pure (.liquidityAdded ctx.pool ctx.user t.amountA t.amountB t.lpToUser reserveA reserveB
    expectedLpSupply)

def LiquidityAccounts.removeEmitted (w : World) (ctx : LiquidityAccounts) (lpAmount : ℕ) :
    Option AmmEvent := do
  let pool ← w.pools ctx.pool
  let lpMint ← w.ledger.mints ctx.lpMint
  let quote ← (Amm.quoteRemoveLiquidity lpAmount pool.reserveA pool.reserveB
    lpMint.supply).toOption
  pure (.liquidityRemoved ctx.pool ctx.user lpAmount quote.amountA quote.amountB
    quote.newReserveA quote.newReserveB quote.newLpSupply)

/-- The reserves a swap reports: those of its quote, as the pool has them. -/
def SwapDirection.reported (quote : Amm.SwapQuote) : SwapDirection → ℕ × ℕ
  | .aToB => (quote.newReserveIn, quote.newReserveOut)
  | .bToA => (quote.newReserveOut, quote.newReserveIn)

def PoolAccounts.swapEmitted (w : World) (ctx : PoolAccounts) (direction : SwapDirection)
    (amountIn : ℕ) : Option AmmEvent := do
  let pool ← w.pools ctx.pool
  let reserves := pool.reserves direction
  let quote ← (Amm.quoteSwap amountIn reserves.1 reserves.2 pool.feeBps).toOption
  let reported := direction.reported quote
  pure (.swapExecuted ctx.pool ctx.user direction amountIn quote.amountOut reported.1 reported.2)

end StablecoinAmm
