import StablecoinAmm.Amm.Math

/-!
# Amm — accounts and errors

The pool account, the direction of a swap and the program's errors, with the conversion of
quote errors.  Bumps and reserved bytes are left out.
-/

namespace StablecoinAmm

structure Pool where
  mintA : Pubkey
  mintB : Pubkey
  vaultA : Pubkey
  vaultB : Pubkey
  lpMint : Pubkey
  lockedLp : Pubkey
  reserveA : ℕ
  reserveB : ℕ
  feeBps : ℕ
  decimals : ℕ
  deriving DecidableEq

inductive SwapDirection where
  | aToB
  | bToA
  deriving DecidableEq

inductive AmmError where
  | identicalMints
  | invalidMintOrder
  | feeTooHigh
  | decimalsMismatch
  | unsupportedMintExtension
  | invalidStablecoinConfig
  | protocolPaused
  | walletNotAllowed
  | slippageExceeded
  | vaultBalanceInvariant
  | lpSupplyInvariant
  | lockedLiquidityInvariant
  | duplicateAccount
  | tokenAccountMintMismatch
  | invalidTokenOwner
  | constantProductViolation
  | zeroAmount
  | invalidFee
  | insufficientLiquidity
  | insufficientInitialLiquidity
  | zeroOutput
  | invalidLiquidityState
  | valueOutOfRange
  | mathOverflow
  | childAccountInUse
  | invalidMintAuthority
  deriving DecidableEq

/-- `From<MathError>`. -/
def AmmError.ofMath : Amm.MathError → AmmError
  | .zeroAmount => .zeroAmount
  | .invalidFee => .invalidFee
  | .insufficientLiquidity => .insufficientLiquidity
  | .insufficientInitialLiquidity => .insufficientInitialLiquidity
  | .zeroOutput => .zeroOutput
  | .invalidLiquidityState => .invalidLiquidityState
  | .valueOutOfRange => .valueOutOfRange
  | .mathOverflow => .mathOverflow

end StablecoinAmm
