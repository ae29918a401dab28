import StablecoinAmm.Amm.Instructions
import StablecoinAmm.Stablecoin.Issuance
import StablecoinAmm.Support.Runs

/-!
# System — steps and runs

A step is an instruction of either program, or one of Token-2022's that an outsider sends
directly.  Outsiders sign for external addresses only and create token accounts at external
addresses only: every other address is derived, and Token-2022 is handed its signature by the
program that owns the seeds.

Here the owner of an account signs for it.  Delegates, and owners that guard their accounts or
ask for memos, come with `System.Cluster`, and lamports with `System.Funding`.  Close authorities
are left out; an account is closed empty.
-/

namespace StablecoinAmm
open Support

inductive Action where
  | initializeStablecoin (ctx : InitializeStablecoin) (symbol : Symbol) (name uri : List UInt8)
      (decimals supplyCap : ℕ)
  | grantMinter (ctx : GrantMinter) (allowance : ℕ)
  | revokeMinter (ctx : RevokeMinter)
  | setWalletPolicy (ctx : SetWalletPolicy) (status : PolicyStatus) (unixTimestamp : ℤ)
  | mintTo (ctx : MintTo) (amount : ℕ)
  | burn (ctx : Burn) (amount : ℕ)
  | setPause (ctx : SetPause) (paused : Bool)
  | updateConfig (ctx : UpdateConfig) (supplyCap : Option ℕ)
      (complianceAuthority pendingAdmin : Option Pubkey)
  | acceptAdmin (ctx : AcceptAdmin)
  | initializePool (ctx : InitializePool) (feeBps : ℕ)
  | addLiquidity (ctx : LiquidityAccounts)
      (amountADesired amountBDesired amountAMin amountBMin minLpOut : ℕ)
  | removeLiquidity (ctx : LiquidityAccounts) (lpAmount minAOut minBOut : ℕ)
  | swap (ctx : PoolAccounts) (direction : SwapDirection) (amountIn minAmountOut : ℕ)
  /-- A new token account of an existing mint, for any owner. -/
  | createAccount (account mint owner : Pubkey) (immutableOwner : Bool)
  | transfer (c : Ledger.TransferChecked) (amount decimals : ℕ)
  | burnDirect (c : Ledger.BurnChecked) (amount decimals : ℕ)
  /-- `SetAuthority` with `AuthorityType::AccountOwner`. -/
  | setOwner (account authority newOwner : Pubkey)
  | closeAccount (account authority : Pubkey)

/-- Why a step fails, by the program that fails. -/
inductive StepError where
  | stablecoin (e : ProgramError StablecoinError)
  | amm (e : ProgramError AmmError)
  | token (e : TokenError)
  deriving DecidableEq

/-- A Token-2022 instruction that carries the signature of `signer`. -/
def World.direct (w : World) (signer : Pubkey) (x : Except TokenError Ledger) :
    Except StepError World := do
  require signer.isSigner (.token .missingRequiredSignature)
  let ledger ← x.mapError .token
  pure { w with ledger }

def step (w : World) : Action → Except StepError World
  | .initializeStablecoin ctx symbol name uri decimals supplyCap =>
      (initializeStablecoin w ctx symbol name uri decimals supplyCap).mapError .stablecoin
  | .grantMinter ctx allowance => (grantMinter w ctx allowance).mapError .stablecoin
  | .revokeMinter ctx => (revokeMinter w ctx).mapError .stablecoin
  | .setWalletPolicy ctx status unixTimestamp =>
      (setWalletPolicy w ctx status unixTimestamp).mapError .stablecoin
  | .mintTo ctx amount => (mintTo w ctx amount).mapError .stablecoin
  | .burn ctx amount => (burn w ctx amount).mapError .stablecoin
  | .setPause ctx paused => (setPause w ctx paused).mapError .stablecoin
  | .updateConfig ctx supplyCap complianceAuthority pendingAdmin =>
      (updateConfig w ctx supplyCap complianceAuthority pendingAdmin).mapError .stablecoin
  | .acceptAdmin ctx => (acceptAdmin w ctx).mapError .stablecoin
  | .initializePool ctx feeBps => (initializePool w ctx feeBps).mapError .amm
  | .addLiquidity ctx aDesired bDesired aMin bMin minLpOut =>
      (addLiquidity w ctx aDesired bDesired aMin bMin minLpOut).mapError .amm
  | .removeLiquidity ctx lpAmount minAOut minBOut =>
      (removeLiquidity w ctx lpAmount minAOut minBOut).mapError .amm
  | .swap ctx direction amountIn minAmountOut =>
      (swap w ctx direction amountIn minAmountOut).mapError .amm
  | .createAccount account mint owner immutableOwner =>
      w.direct account (w.ledger.initializeAccount3 account mint owner immutableOwner)
  | .transfer c amount decimals =>
      w.direct c.authority (w.ledger.transferChecked c c.authority amount decimals)
  | .burnDirect c amount decimals =>
      w.direct c.authority (w.ledger.burnChecked c c.authority amount decimals)
  | .setOwner account authority newOwner =>
      w.direct authority (w.ledger.setOwner account authority newOwner authority)
  | .closeAccount account authority =>
      w.direct authority (w.ledger.closeAccount account authority authority)

/-- The state of the chain before either program has been used. -/
def IsGenesis (w : World) : Prop := ∃ addressBytes, w = World.genesis addressBytes

/-- Some run from genesis ends in `w`. -/
def World.Reachable (w : World) : Prop := Support.Reachable step IsGenesis w

end StablecoinAmm
