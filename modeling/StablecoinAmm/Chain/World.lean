import StablecoinAmm.Amm.State
import StablecoinAmm.Chain.Ledger
import StablecoinAmm.Stablecoin.State

/-!
# Chain — the world the programs run in

All accounts, by owner and kind, and how an instruction reads them.  An instruction names its
accounts; reading one that does not exist, or is of another kind or program, fails in account
validation.  A failed instruction changes nothing, so handlers return the new world or an error.
-/

namespace StablecoinAmm
open Support

structure World where
  /-- The thirty-two bytes of each address.  Derived addresses are hashes, so nothing is assumed
  about their order. -/
  addressBytes : Pubkey → List UInt8
  ledger : Ledger
  configs : Pubkey → Option MintConfig
  minterRoles : Pubkey → Option MinterRole
  walletPolicies : Pubkey → Option WalletPolicy
  pools : Pubkey → Option Pool

/-- No account of either program, and no mint or token account. -/
def World.genesis (addressBytes : Pubkey → List UInt8) : World where
  addressBytes
  ledger := .empty
  configs := fun _ => none
  minterRoles := fun _ => none
  walletPolicies := fun _ => none
  pools := fun _ => none

/-! ### Errors -/

/-- Failures of account validation, before the handler's own code runs. -/
inductive AnchorError where
  | accountNotSigner
  | accountNotInitialized
  | accountAlreadyInUse
  | constraintSeeds
  | constraintHasOne
  deriving DecidableEq

/-- What an instruction of a program with errors `ε` fails with. -/
inductive ProgramError (ε : Type) where
  | anchor (e : AnchorError)
  | token (e : TokenError)
  | custom (e : ε)
  deriving DecidableEq

variable {ε : Type}

/-- `require!`. -/
def ensure (c : Prop) [Decidable c] (e : ε) : Except (ProgramError ε) Unit :=
  require c (.custom e)

/-- The result of a call into Token-2022. -/
def invoke {α : Type} (x : Except TokenError α) : Except (ProgramError ε) α :=
  x.mapError .token

/-! ### Account validation -/

/-- `Signer`. -/
def requireSigner (k : Pubkey) : Except (ProgramError ε) Unit :=
  require k.isSigner (.anchor .accountNotSigner)

/-- `seeds = [..]`: the account is the one its seeds derive. -/
def requireSeeds (k derived : Pubkey) : Except (ProgramError ε) Unit :=
  require (k = derived) (.anchor .constraintSeeds)

/-- `has_one` without an error of its own. -/
def requireHasOne (stored k : Pubkey) : Except (ProgramError ε) Unit :=
  require (stored = k) (.anchor .constraintHasOne)

/-- `init`: the address is still free. -/
def requireFree {α : Type} (o : Option α) : Except (ProgramError ε) Unit :=
  require o.isNone (.anchor .accountAlreadyInUse)

/-- An account of the expected kind, or the error of its absence. -/
def load {α : Type} (o : Option α) : Except (ProgramError ε) α :=
  okOr o (.anchor .accountNotInitialized)

/-! ### Writing accounts back -/

namespace World

def setConfig (w : World) (k : Pubkey) (c : MintConfig) : World :=
  { w with configs := Function.update w.configs k (some c) }

def setMinterRole (w : World) (k : Pubkey) (r : Option MinterRole) : World :=
  { w with minterRoles := Function.update w.minterRoles k r }

def setWalletPolicy (w : World) (k : Pubkey) (p : WalletPolicy) : World :=
  { w with walletPolicies := Function.update w.walletPolicies k (some p) }

def setPool (w : World) (k : Pubkey) (p : Pool) : World :=
  { w with pools := Function.update w.pools k (some p) }

section
variable (w : World) (k : Pubkey)

@[simp] theorem setConfig_configs_self (c : MintConfig) : (w.setConfig k c).configs k = some c :=
  Function.update_self ..

@[simp] theorem setConfig_configs_of_ne (c : MintConfig) {j : Pubkey} (h : j ≠ k) :
    (w.setConfig k c).configs j = w.configs j := Function.update_of_ne h ..

@[simp] theorem setWalletPolicy_walletPolicies_self (p : WalletPolicy) :
    (w.setWalletPolicy k p).walletPolicies k = some p := Function.update_self ..

@[simp] theorem setWalletPolicy_walletPolicies_of_ne (p : WalletPolicy) {j : Pubkey}
    (h : j ≠ k) : (w.setWalletPolicy k p).walletPolicies j = w.walletPolicies j :=
  Function.update_of_ne h ..

@[simp] theorem setPool_pools_self (p : Pool) : (w.setPool k p).pools k = some p :=
  Function.update_self ..

@[simp] theorem setPool_pools_of_ne (p : Pool) {j : Pubkey} (h : j ≠ k) :
    (w.setPool k p).pools j = w.pools j := Function.update_of_ne h ..

end

end World

end StablecoinAmm
