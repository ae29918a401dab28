import StablecoinAmm.Stablecoin.Issuance

/-!
# Stablecoin — events

`events.rs`, and the `emit!` that ends each handler.  An event is made of the handler's local
variables; `emitted` computes them again from the accounts before the instruction, in the
handler's own steps.  It is read only where the instruction succeeds, since a failed one leaves
no log.
-/

namespace StablecoinAmm
open Support

inductive StablecoinEvent where
  | stablecoinInitialized (mint config admin : Pubkey) (symbol : Symbol)
      (decimals supplyCap : ℕ)
  | minterGranted (config authority : Pubkey) (allowance : ℕ)
  | minterRevoked (config authority : Pubkey) (minted : ℕ)
  | walletPolicyChanged (mint tokenAccount owner : Pubkey) (status : PolicyStatus)
      (updatedBy : Pubkey) (updatedAt : ℤ)
  | tokensMinted (mint minter destination : Pubkey) (amount minterMinted supply : ℕ)
  | tokensBurned (mint owner source : Pubkey) (amount supply : ℕ)
  | pauseChanged (mint authority : Pubkey) (paused : Bool)
  | configUpdated (mint admin : Pubkey) (supplyCap : ℕ) (complianceAuthority : Pubkey)
      (pendingAdmin : Option Pubkey)
  | adminAccepted (mint previousAdmin admin : Pubkey)
  deriving DecidableEq

def InitializeStablecoin.emitted (ctx : InitializeStablecoin) (symbol : Symbol)
    (decimals supplyCap : ℕ) : Option StablecoinEvent :=
  some (.stablecoinInitialized ctx.mint ctx.config ctx.payer symbol decimals supplyCap)

def GrantMinter.emitted (ctx : GrantMinter) (allowance : ℕ) : Option StablecoinEvent :=
  some (.minterGranted ctx.config ctx.authority allowance)

def RevokeMinter.emitted (w : World) (ctx : RevokeMinter) : Option StablecoinEvent := do
  let role ← w.minterRoles ctx.minterRole
  pure (.minterRevoked ctx.config ctx.authority role.minted)

def SetWalletPolicy.emitted (w : World) (ctx : SetWalletPolicy) (status : PolicyStatus)
    (unixTimestamp : ℤ) : Option StablecoinEvent := do
  let tokenAccount ← w.ledger.tokens ctx.tokenAccount
  pure (.walletPolicyChanged ctx.mint ctx.tokenAccount tokenAccount.owner status
    ctx.complianceAuthority unixTimestamp)

def MintTo.emitted (w : World) (ctx : MintTo) (amount : ℕ) : Option StablecoinEvent := do
  let minterRole ← w.minterRoles ctx.minterRole
  let mint ← w.ledger.mints ctx.mint
  let minted ← checkedAdd 64 minterRole.minted amount
  let newSupply ← checkedAdd 64 mint.supply amount
  pure (.tokensMinted ctx.mint ctx.minter ctx.destination amount minted newSupply)

def Burn.emitted (w : World) (ctx : Burn) (amount : ℕ) : Option StablecoinEvent := do
  let mint ← w.ledger.mints ctx.mint
  let newSupply ← checkedSub mint.supply amount
  pure (.tokensBurned ctx.mint ctx.owner ctx.source amount newSupply)

def SetPause.emitted (ctx : SetPause) (paused : Bool) : Option StablecoinEvent :=
  some (.pauseChanged ctx.mint ctx.authority paused)

/-- Reported from the configuration as it has just been written. -/
def UpdateConfig.emitted (w : World) (ctx : UpdateConfig) (supplyCap : Option ℕ)
    (complianceAuthority pendingAdmin : Option Pubkey) : Option StablecoinEvent := do
  let mint ← w.ledger.mints ctx.mint
  let config ← w.configs ctx.config
  let config ← (updateSupplyCap config mint.supply supplyCap).toOption
  let config ← (updateComplianceAuthority config complianceAuthority).toOption
  let config ← (updatePendingAdmin config pendingAdmin).toOption
  pure (.configUpdated config.mint config.admin config.supplyCap config.complianceAuthority
    config.pendingAdmin)

def AcceptAdmin.emitted (w : World) (ctx : AcceptAdmin) : Option StablecoinEvent := do
  let config ← w.configs ctx.config
  pure (.adminAccepted config.mint config.admin ctx.pendingAdmin)

end StablecoinAmm
