import StablecoinAmm.Stablecoin.Administration

/-!
# Stablecoin — minting and burning

`mint_to` and `burn`: the account constraints, then the handler with its checks on both sides of
the Token-2022 call.
-/

namespace StablecoinAmm
open Support

/-! ### `mint_to` -/

structure MintTo where
  minter : Pubkey
  mint : Pubkey
  config : Pubkey
  minterRole : Pubkey
  destination : Pubkey
  walletPolicy : Pubkey

/-- The accounts of `mint_to`, as they are before the call. -/
structure MintTo.Loaded where
  mint : Mint
  config : MintConfig
  minterRole : MinterRole
  destination : TokenAccount
  walletPolicy : WalletPolicy

def MintTo.validate (w : World) (ctx : MintTo) :
    Except (ProgramError StablecoinError) MintTo.Loaded := do
  requireSigner ctx.minter
  let mint ← load (w.ledger.mints ctx.mint)
  let config ← load (w.configs ctx.config)
  let minterRole ← load (w.minterRoles ctx.minterRole)
  let destination ← load (w.ledger.tokens ctx.destination)
  let walletPolicy ← load (w.walletPolicies ctx.walletPolicy)
  requireSeeds ctx.config (.config ctx.mint)
  requireHasOne config.mint ctx.mint
  requireSeeds ctx.minterRole (.minterRole ctx.config ctx.minter)
  ensure (minterRole.config = ctx.config) .unauthorized
  ensure (minterRole.authority = ctx.minter) .unauthorized
  ensure (destination.mint = ctx.mint) .tokenAccountMintMismatch
  requireSeeds ctx.walletPolicy (.walletPolicy ctx.mint ctx.destination)
  requireHasOne walletPolicy.mint ctx.mint
  pure { mint, config, minterRole, destination, walletPolicy }

def mintTo (w : World) (ctx : MintTo) (amount : ℕ) : Except (ProgramError StablecoinError) World := do
  let a ← ctx.validate w
  ensure (0 < amount) .zeroAmount
  ensure (¬ a.config.paused) .protocolPaused
  ensure (a.walletPolicy.status = .allowed) .walletNotAllowed
  let supply := a.mint.supply
  ensureSupplyTracked a.config supply
  let minted ← okOr (checkedAdd 64 a.minterRole.minted amount) (.custom .mathOverflow)
  ensure (minted ≤ a.minterRole.allowance) .allowanceExceeded
  let newSupply ← okOr (checkedAdd 64 supply amount) (.custom .mathOverflow)
  ensure (newSupply ≤ a.config.supplyCap) .supplyCapExceeded
  let totalMinted ← okOr (checkedAdd 128 a.config.totalMinted amount) (.custom .mathOverflow)
  let ledger ← invoke (w.ledger.mintToChecked
    { mint := ctx.mint, destination := ctx.destination, authority := ctx.config }
    (.config a.config.mint) amount a.mint.decimals)
  -- `reload`: the supply Token-2022 left behind
  let mint ← invoke (ledger.mint ctx.mint)
  ensure (mint.supply = newSupply) .counterInvariantViolation
  let minterRole := { a.minterRole with minted }
  let config := { a.config with totalMinted }
  ensureSupplyTracked config newSupply
  pure (({ w with ledger }.setMinterRole ctx.minterRole (some minterRole)).setConfig ctx.config
    config)

/-! ### `burn` -/

structure Burn where
  owner : Pubkey
  mint : Pubkey
  config : Pubkey
  source : Pubkey

structure Burn.Loaded where
  mint : Mint
  config : MintConfig
  source : TokenAccount

def Burn.validate (w : World) (ctx : Burn) :
    Except (ProgramError StablecoinError) Burn.Loaded := do
  requireSigner ctx.owner
  let mint ← load (w.ledger.mints ctx.mint)
  let config ← load (w.configs ctx.config)
  let source ← load (w.ledger.tokens ctx.source)
  requireSeeds ctx.config (.config ctx.mint)
  requireHasOne config.mint ctx.mint
  ensure (source.mint = ctx.mint) .tokenAccountMintMismatch
  ensure (source.owner = ctx.owner) .unauthorized
  pure { mint, config, source }

def burn (w : World) (ctx : Burn) (amount : ℕ) : Except (ProgramError StablecoinError) World := do
  let a ← ctx.validate w
  ensure (0 < amount) .zeroAmount
  ensure (¬ a.config.paused) .protocolPaused
  let supply := a.mint.supply
  ensureSupplyTracked a.config supply
  let totalBurned ← okOr (checkedAdd 128 a.config.totalBurned amount) (.custom .mathOverflow)
  let ledger ← invoke (w.ledger.burnChecked
    { mint := ctx.mint, source := ctx.source, authority := ctx.owner } ctx.owner amount
    a.mint.decimals)
  -- after the call, so that Token-2022 reports an insufficient balance itself
  let newSupply ← okOr (checkedSub supply amount) (.custom .mathOverflow)
  let mint ← invoke (ledger.mint ctx.mint)
  ensure (mint.supply = newSupply) .counterInvariantViolation
  let config := { a.config with totalBurned }
  ensureSupplyTracked config newSupply
  pure ({ w with ledger }.setConfig ctx.config config)

end StablecoinAmm
