import StablecoinAmm.Chain.World

/-!
# Stablecoin — creating and administering a mint

The instructions that create a stablecoin, hand out minter roles, set wallet policies, pause,
change the configuration and rotate the admin.  Each is the account list of its `Accounts`
struct, the constraints on it, and the handler.

Rent and lamports are left out here: an address is either in use or free, and a free one is
created.  What the payer needs for that, and what lamports sent to the address beforehand do, is
in `Chain.Lamports` and `System.Funding`.
-/

namespace StablecoinAmm
open Support

/-! ### `initialize_stablecoin` -/

structure InitializeStablecoin where
  payer : Pubkey
  mint : Pubkey
  config : Pubkey

def isAsciiAlphanumeric (b : UInt8) : Bool :=
  (48 ≤ b && b ≤ 57) || (65 ≤ b && b ≤ 90) || (97 ≤ b && b ≤ 122)

/-- The bytes of `symbol` before its zero padding. -/
def normalizeSymbol (symbol : Symbol) : Except (ProgramError StablecoinError) (List UInt8) := do
  -- what is accepted is ASCII, so that reading it as UTF-8 cannot fail afterwards
  let text := symbol.1.takeWhile (· ≠ 0)
  let padding := symbol.1.dropWhile (· ≠ 0)
  ensure (text ≠ [] ∧ text.all isAsciiAlphanumeric ∧ padding.all (· = 0)) .invalidSymbol
  pure text

def mintExtensions : List ExtensionType :=
  [.defaultAccountState, .pausable, .metadataPointer, .tokenMetadata]

def initializeStablecoin (w : World) (ctx : InitializeStablecoin) (symbol : Symbol)
    (name uri : List UInt8) (decimals supplyCap : ℕ) :
    Except (ProgramError StablecoinError) World := do
  requireSigner ctx.payer
  requireSeeds ctx.config (.config ctx.mint)
  requireFree (w.configs ctx.config)
  requireSeeds ctx.mint (.mint symbol)
  ensure (decimals = stablecoinDecimals) .unsupportedDecimals
  ensure (0 < supplyCap) .zeroSupplyCap
  ensure (supplyCap ≤ maxSupplyCap) .supplyCapTooLarge
  ensure (name ≠ [] ∧ name.length ≤ maxNameLen) .invalidName
  ensure (uri ≠ [] ∧ uri.length ≤ maxUriLen) .invalidUri
  let symbolText ← normalizeSymbol symbol
  ensure ((w.ledger.mints ctx.mint).isNone) .mintAccountInUse
  let metadata : TokenMetadata :=
    { updateAuthority := ctx.config, mint := ctx.mint, name, symbol := symbolText, uri }
  let ledger ← invoke (w.ledger.initializeMint2 ctx.mint decimals ctx.config (some ctx.config)
    mintExtensions .frozen (some { authority := ctx.config, paused := false }) (some metadata))
  let config : MintConfig :=
    { admin := ctx.payer, pendingAdmin := none, complianceAuthority := ctx.payer,
      mint := ctx.mint, symbol, decimals, supplyCap, totalMinted := 0, totalBurned := 0,
      paused := false }
  pure ({ w with ledger }.setConfig ctx.config config)

/-! ### `grant_minter` and `revoke_minter` -/

structure GrantMinter where
  admin : Pubkey
  config : Pubkey
  authority : Pubkey
  minterRole : Pubkey

def grantMinter (w : World) (ctx : GrantMinter) (allowance : ℕ) :
    Except (ProgramError StablecoinError) World := do
  requireSigner ctx.admin
  let config ← load (w.configs ctx.config)
  requireSeeds ctx.minterRole (.minterRole ctx.config ctx.authority)
  requireFree (w.minterRoles ctx.minterRole)
  requireSeeds ctx.config (.config config.mint)
  ensure (config.admin = ctx.admin) .unauthorized
  ensure (0 < allowance) .zeroAllowance
  ensure (ctx.authority ≠ .default) .invalidAuthority
  pure (w.setMinterRole ctx.minterRole
    (some { config := ctx.config, authority := ctx.authority, allowance, minted := 0 }))

structure RevokeMinter where
  admin : Pubkey
  config : Pubkey
  authority : Pubkey
  minterRole : Pubkey

def revokeMinter (w : World) (ctx : RevokeMinter) : Except (ProgramError StablecoinError) World := do
  requireSigner ctx.admin
  let config ← load (w.configs ctx.config)
  let role ← load (w.minterRoles ctx.minterRole)
  requireSeeds ctx.config (.config config.mint)
  ensure (config.admin = ctx.admin) .unauthorized
  requireSeeds ctx.minterRole (.minterRole ctx.config ctx.authority)
  ensure (role.config = ctx.config) .unauthorized
  ensure (role.authority = ctx.authority) .unauthorized
  pure (w.setMinterRole ctx.minterRole none)

/-! ### `set_wallet_policy` -/

structure SetWalletPolicy where
  complianceAuthority : Pubkey
  mint : Pubkey
  config : Pubkey
  tokenAccount : Pubkey
  walletPolicy : Pubkey

/-- `is_frozen`, on the live account. -/
def isFrozen (l : Ledger) (k : Pubkey) : Except TokenError Bool := do
  let a ← l.token k
  pure a.isFrozen

/-- The freeze or thaw that makes the account agree with `status`, if one is needed: Token-2022
rejects freezing a frozen account and thawing a thawed one. -/
def alignFrozen (l : Ledger) (ctx : SetWalletPolicy) (config : MintConfig)
    (status : PolicyStatus) : Except TokenError Ledger := do
  let frozen ← isFrozen l ctx.tokenAccount
  if status.isBlocked ≠ frozen then
    if status.isBlocked then
      l.freezeAccount ctx.tokenAccount ctx.mint ctx.config (.config config.mint)
    else
      l.thawAccount ctx.tokenAccount ctx.mint ctx.config (.config config.mint)
  else
    pure l

def setWalletPolicy (w : World) (ctx : SetWalletPolicy) (status : PolicyStatus)
    (unixTimestamp : ℤ) : Except (ProgramError StablecoinError) World := do
  requireSigner ctx.complianceAuthority
  let _ ← load (w.ledger.mints ctx.mint)
  let config ← load (w.configs ctx.config)
  let tokenAccount ← load (w.ledger.tokens ctx.tokenAccount)
  requireSeeds ctx.walletPolicy (.walletPolicy ctx.mint ctx.tokenAccount)
  requireSeeds ctx.config (.config ctx.mint)
  requireHasOne config.mint ctx.mint
  ensure (config.complianceAuthority = ctx.complianceAuthority) .unauthorized
  ensure (tokenAccount.mint = ctx.mint) .tokenAccountMintMismatch
  let ledger ← invoke (alignFrozen w.ledger ctx config status)
  -- read again from the account itself, whether or not a call was made
  let frozen ← invoke (isFrozen ledger ctx.tokenAccount)
  ensure (frozen = status.isBlocked) .policyStateMismatch
  let policy : WalletPolicy :=
    { mint := ctx.mint, tokenAccount := ctx.tokenAccount, owner := tokenAccount.owner, status,
      updatedAt := unixTimestamp, updatedBy := ctx.complianceAuthority }
  pure ({ w with ledger }.setWalletPolicy ctx.walletPolicy policy)

/-! ### `set_pause` -/

structure SetPause where
  authority : Pubkey
  mint : Pubkey
  config : Pubkey

/-- `pausable_is_paused`, on the live mint. -/
def pausableIsPaused (l : Ledger) (k : Pubkey) : Except TokenError Bool := do
  let m ← l.mint k
  let p ← okOr m.pausable .extensionNotFound
  pure p.paused

def setPause (w : World) (ctx : SetPause) (paused : Bool) :
    Except (ProgramError StablecoinError) World := do
  requireSigner ctx.authority
  let _ ← load (w.ledger.mints ctx.mint)
  let config ← load (w.configs ctx.config)
  requireSeeds ctx.config (.config ctx.mint)
  requireHasOne config.mint ctx.mint
  ensure (config.admin = ctx.authority ∨ config.complianceAuthority = ctx.authority) .unauthorized
  let live ← invoke (pausableIsPaused w.ledger ctx.mint)
  -- the flag of the mint and the one of the configuration have to agree before and after
  ensure (live = config.paused) .pauseStateDrift
  ensure (live ≠ paused) .pauseStateUnchanged
  let ledger ← invoke (w.ledger.pausableSet ctx.mint ctx.config paused (.config config.mint))
  let after ← invoke (pausableIsPaused ledger ctx.mint)
  ensure (after = paused) .pauseStateDrift
  pure ({ w with ledger }.setConfig ctx.config { config with paused })

/-! ### `update_config` and `accept_admin` -/

/-- Only the config PDA mints, so `total_minted` covers every issuance; owners may burn directly,
so the tracked outstanding supply bounds the live one from above. -/
def ensureSupplyTracked (config : MintConfig) (supply : ℕ) :
    Except (ProgramError StablecoinError) Unit := do
  let outstanding ← okOr (checkedSub config.totalMinted config.totalBurned)
    (.custom .counterInvariantViolation)
  ensure (outstanding ≥ supply) .counterInvariantViolation

structure UpdateConfig where
  admin : Pubkey
  mint : Pubkey
  config : Pubkey

/-- `if let Some(cap) = supply_cap`. -/
def updateSupplyCap (config : MintConfig) (supply : ℕ) :
    Option ℕ → Except (ProgramError StablecoinError) MintConfig
  | none => pure config
  | some cap => do
      ensure (0 < cap) .zeroSupplyCap
      ensure (cap ≤ maxSupplyCap) .supplyCapTooLarge
      ensureSupplyTracked config supply
      ensure (supply ≤ cap) .supplyCapBelowSupply
      pure { config with supplyCap := cap }

/-- `if let Some(authority) = compliance_authority`. -/
def updateComplianceAuthority (config : MintConfig) :
    Option Pubkey → Except (ProgramError StablecoinError) MintConfig
  | none => pure config
  | some authority => do
      ensure (authority ≠ .default) .invalidAuthority
      pure { config with complianceAuthority := authority }

/-- `if let Some(authority) = pending_admin`. -/
def updatePendingAdmin (config : MintConfig) :
    Option Pubkey → Except (ProgramError StablecoinError) MintConfig
  | none => pure config
  | some authority => do
      ensure (authority ≠ .default) .invalidPendingAdmin
      ensure (authority ≠ config.admin) .invalidPendingAdmin
      pure { config with pendingAdmin := some authority }

def updateConfig (w : World) (ctx : UpdateConfig) (supplyCap : Option ℕ)
    (complianceAuthority pendingAdmin : Option Pubkey) :
    Except (ProgramError StablecoinError) World := do
  requireSigner ctx.admin
  let mint ← load (w.ledger.mints ctx.mint)
  let config ← load (w.configs ctx.config)
  requireSeeds ctx.config (.config ctx.mint)
  requireHasOne config.mint ctx.mint
  ensure (config.admin = ctx.admin) .unauthorized
  ensure (supplyCap.isSome ∨ complianceAuthority.isSome ∨ pendingAdmin.isSome) .noConfigChange
  let config ← updateSupplyCap config mint.supply supplyCap
  let config ← updateComplianceAuthority config complianceAuthority
  let config ← updatePendingAdmin config pendingAdmin
  pure (w.setConfig ctx.config config)

structure AcceptAdmin where
  pendingAdmin : Pubkey
  config : Pubkey

def acceptAdmin (w : World) (ctx : AcceptAdmin) : Except (ProgramError StablecoinError) World := do
  requireSigner ctx.pendingAdmin
  let config ← load (w.configs ctx.config)
  requireSeeds ctx.config (.config config.mint)
  ensure (config.pendingAdmin = some ctx.pendingAdmin) .noPendingAdmin
  pure (w.setConfig ctx.config { config with admin := ctx.pendingAdmin, pendingAdmin := none })

end StablecoinAmm
