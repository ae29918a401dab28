import Mathlib.Data.Int.Notation
import StablecoinAmm.Chain.Address

/-!
# Stablecoin — accounts and errors

The accounts the issuer program owns, its constants and its errors.  Bumps and reserved bytes
are left out.
-/

namespace StablecoinAmm

def stablecoinDecimals : ℕ := 6
def maxSupplyCap : ℕ := 1000000000000000
def maxNameLen : ℕ := 32
def maxUriLen : ℕ := 200

structure MintConfig where
  admin : Pubkey
  pendingAdmin : Option Pubkey
  complianceAuthority : Pubkey
  mint : Pubkey
  symbol : Symbol
  decimals : ℕ
  supplyCap : ℕ
  totalMinted : ℕ
  totalBurned : ℕ
  paused : Bool
  deriving DecidableEq

structure MinterRole where
  config : Pubkey
  authority : Pubkey
  allowance : ℕ
  minted : ℕ
  deriving DecidableEq

inductive PolicyStatus where
  | allowed
  | blocked
  deriving DecidableEq

def PolicyStatus.isBlocked (s : PolicyStatus) : Bool := s = .blocked

structure WalletPolicy where
  mint : Pubkey
  tokenAccount : Pubkey
  owner : Pubkey
  status : PolicyStatus
  updatedAt : ℤ
  updatedBy : Pubkey
  deriving DecidableEq

inductive StablecoinError where
  | unsupportedDecimals
  | zeroSupplyCap
  | supplyCapTooLarge
  | invalidSymbol
  | invalidName
  | invalidUri
  | mathOverflow
  | mintNotRentExempt
  | unauthorized
  | zeroAmount
  | invalidAuthority
  | zeroAllowance
  | allowanceExceeded
  | supplyCapExceeded
  | walletNotAllowed
  | protocolPaused
  | counterInvariantViolation
  | tokenAccountMintMismatch
  | policyStateMismatch
  | pauseStateDrift
  | pauseStateUnchanged
  | supplyCapBelowSupply
  | noConfigChange
  | invalidPendingAdmin
  | noPendingAdmin
  | mintAccountInUse
  deriving DecidableEq

end StablecoinAmm
