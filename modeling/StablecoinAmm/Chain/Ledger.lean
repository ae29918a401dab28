import Mathlib.Logic.Function.Basic
import StablecoinAmm.Chain.Address
import StablecoinAmm.Support.Outcome

/-!
# Chain — the Token-2022 ledger

The mints and token accounts of Token-2022 and the instructions of it that the two programs
call or that holders send directly.  Token-2022 is not part of the repository; the checks here
are the documented ones, for the extensions the repository's mints carry (`DefaultAccountState`,
`Pausable`, metadata) and for extension-free LP mints.  Their order is the documented one too, but
that a frozen destination is reported with the source, where Token-2022 reports it last.  What
the programs need of its calls is stated in `Chain.Movement` (`TokenProgram`).

Delegates, the CPI guard and required memos are left out here; `Chain.Options` adds them.

Every instruction names the account that authorises it and is given the key whose signature it
carries: the user's own, or the derived address a program signs with.
-/

namespace StablecoinAmm
open Support

/-! ### Accounts -/

inductive AccountState where
  | initialized
  | frozen
  deriving DecidableEq

inductive ExtensionType where
  | defaultAccountState
  | pausable
  | metadataPointer
  | tokenMetadata
  /-- Any extension the repository does not name. -/
  | other (tag : ℕ)
  deriving DecidableEq

structure PausableConfig where
  authority : Pubkey
  paused : Bool
  deriving DecidableEq

/-- The `TokenMetadata` extension; texts are their UTF-8 bytes. -/
structure TokenMetadata where
  updateAuthority : Pubkey
  mint : Pubkey
  name : List UInt8
  symbol : List UInt8
  uri : List UInt8
  deriving DecidableEq

structure Mint where
  mintAuthority : Option Pubkey
  supply : ℕ
  decimals : ℕ
  freezeAuthority : Option Pubkey
  extensions : List ExtensionType
  /-- The state of `DefaultAccountState`, `initialized` where a mint lacks it. -/
  defaultState : AccountState
  pausable : Option PausableConfig
  metadata : Option TokenMetadata
  deriving DecidableEq

structure TokenAccount where
  mint : Pubkey
  owner : Pubkey
  amount : ℕ
  state : AccountState
  immutableOwner : Bool
  deriving DecidableEq

/-- The live flag of the `Pausable` extension; a mint without it is never paused. -/
def Mint.isPaused (m : Mint) : Bool := m.pausable.elim false (·.paused)

def TokenAccount.isFrozen (a : TokenAccount) : Bool := a.state = .frozen

inductive TokenError where
  | uninitializedState
  | invalidMint
  | alreadyInUse
  | insufficientFunds
  | accountFrozen
  | mintMismatch
  | mintDecimalsMismatch
  | mintPaused
  | ownerMismatch
  | missingRequiredSignature
  | fixedSupply
  | mintCannotFreeze
  | invalidState
  | immutableOwner
  | nonNativeHasBalance
  | extensionNotFound
  | overflow
  deriving DecidableEq

/-- The accounts Token-2022 owns, by address. -/
structure Ledger where
  mints : Pubkey → Option Mint
  tokens : Pubkey → Option TokenAccount

namespace Ledger

def empty : Ledger := ⟨fun _ => none, fun _ => none⟩

def setMint (l : Ledger) (k : Pubkey) (m : Mint) : Ledger :=
  { l with mints := Function.update l.mints k (some m) }

def setToken (l : Ledger) (k : Pubkey) (a : TokenAccount) : Ledger :=
  { l with tokens := Function.update l.tokens k (some a) }

section
variable (l : Ledger) (k : Pubkey) (m : Mint) (a : TokenAccount)

@[simp] theorem setMint_mints_self : (l.setMint k m).mints k = some m := Function.update_self ..

@[simp] theorem setMint_mints_of_ne {j : Pubkey} (h : j ≠ k) :
    (l.setMint k m).mints j = l.mints j := Function.update_of_ne h ..

@[simp] theorem setMint_tokens : (l.setMint k m).tokens = l.tokens := rfl

@[simp] theorem setToken_tokens_self : (l.setToken k a).tokens k = some a :=
  Function.update_self ..

@[simp] theorem setToken_tokens_of_ne {j : Pubkey} (h : j ≠ k) :
    (l.setToken k a).tokens j = l.tokens j := Function.update_of_ne h ..

@[simp] theorem setToken_mints : (l.setToken k a).mints = l.mints := rfl

end

/-- Applies `f` to the token account at `k`, if there is one. -/
def modifyToken (l : Ledger) (k : Pubkey) (f : TokenAccount → TokenAccount) : Ledger :=
  { l with tokens := Function.update l.tokens k ((l.tokens k).map f) }

/-- Adds `n` to the balance at `k`. -/
def credit (l : Ledger) (k : Pubkey) (n : ℕ) : Ledger :=
  l.modifyToken k fun a => { a with amount := a.amount + n }

/-- Takes `n` from the balance at `k`. -/
def debit (l : Ledger) (k : Pubkey) (n : ℕ) : Ledger :=
  l.modifyToken k fun a => { a with amount := a.amount - n }

/-- Sets the supply of the mint at `k`. -/
def setSupply (l : Ledger) (k : Pubkey) (n : ℕ) : Ledger :=
  { l with mints := Function.update l.mints k ((l.mints k).map fun m => { m with supply := n }) }

def token (l : Ledger) (k : Pubkey) : Except TokenError TokenAccount :=
  okOr (l.tokens k) .uninitializedState

def mint (l : Ledger) (k : Pubkey) : Except TokenError Mint :=
  okOr (l.mints k) .invalidMint

/-! ### Instructions -/

/-- The owner of an account, or the holder of an authority, has to be the account named as the
authority, and to have signed. -/
def validateOwner (expected authority signer : Pubkey) : Except TokenError Unit := do
  require (authority = expected) .ownerMismatch
  require (authority = signer) .missingRequiredSignature

/-- `TransferChecked`'s accounts. -/
structure TransferChecked where
  source : Pubkey
  mint : Pubkey
  destination : Pubkey
  authority : Pubkey
  deriving DecidableEq

def transferChecked (l : Ledger) (c : TransferChecked) (signer : Pubkey) (amount decimals : ℕ) :
    Except TokenError Ledger := do
  let source ← l.token c.source
  let destination ← l.token c.destination
  require (source.state ≠ .frozen ∧ destination.state ≠ .frozen) .accountFrozen
  require (amount ≤ source.amount) .insufficientFunds
  require (source.mint = destination.mint ∧ source.mint = c.mint) .mintMismatch
  let mint ← l.mint c.mint
  require (decimals = mint.decimals) .mintDecimalsMismatch
  require (¬ mint.isPaused) .mintPaused
  validateOwner source.owner c.authority signer
  -- every check has been made by now; a transfer to the account itself moves nothing
  if c.source = c.destination then
    pure l
  else do
    let _ ← okOr (checkedAdd 64 destination.amount amount) .overflow
    pure ((l.debit c.source amount).credit c.destination amount)

/-- `MintToChecked`'s accounts. -/
structure MintToChecked where
  mint : Pubkey
  destination : Pubkey
  authority : Pubkey
  deriving DecidableEq

def mintToChecked (l : Ledger) (c : MintToChecked) (signer : Pubkey) (amount decimals : ℕ) :
    Except TokenError Ledger := do
  let destination ← l.token c.destination
  require (destination.state ≠ .frozen) .accountFrozen
  require (destination.mint = c.mint) .mintMismatch
  let mint ← l.mint c.mint
  require (¬ mint.isPaused) .mintPaused
  require (decimals = mint.decimals) .mintDecimalsMismatch
  let authority ← okOr mint.mintAuthority .fixedSupply
  validateOwner authority c.authority signer
  let _ ← okOr (checkedAdd 64 destination.amount amount) .overflow
  let supply ← okOr (checkedAdd 64 mint.supply amount) .overflow
  pure ((l.credit c.destination amount).setSupply c.mint supply)

/-- `BurnChecked`'s accounts. -/
structure BurnChecked where
  mint : Pubkey
  source : Pubkey
  authority : Pubkey
  deriving DecidableEq

def burnChecked (l : Ledger) (c : BurnChecked) (signer : Pubkey) (amount decimals : ℕ) :
    Except TokenError Ledger := do
  let source ← l.token c.source
  require (source.state ≠ .frozen) .accountFrozen
  require (source.mint = c.mint) .mintMismatch
  let mint ← l.mint c.mint
  require (amount ≤ source.amount) .insufficientFunds
  require (decimals = mint.decimals) .mintDecimalsMismatch
  require (¬ mint.isPaused) .mintPaused
  validateOwner source.owner c.authority signer
  let supply ← okOr (checkedSub mint.supply amount) .overflow
  pure ((l.debit c.source amount).setSupply c.mint supply)

/-- `FreezeAccount` and `ThawAccount`: the state goes from `before` to `after`. -/
def toggleFreeze (before after : AccountState) (l : Ledger) (account mint authority : Pubkey)
    (signer : Pubkey) : Except TokenError Ledger := do
  let a ← l.token account
  require (a.state = before) .invalidState
  require (a.mint = mint) .mintMismatch
  let m ← l.mint mint
  let freezeAuthority ← okOr m.freezeAuthority .mintCannotFreeze
  validateOwner freezeAuthority authority signer
  pure (l.setToken account { a with state := after })

def freezeAccount : Ledger → Pubkey → Pubkey → Pubkey → Pubkey → Except TokenError Ledger :=
  toggleFreeze .initialized .frozen

def thawAccount : Ledger → Pubkey → Pubkey → Pubkey → Pubkey → Except TokenError Ledger :=
  toggleFreeze .frozen .initialized

/-- `InitializeAccount3` on an allocated, still uninitialized account. -/
def initializeAccount3 (l : Ledger) (account mint owner : Pubkey) (immutableOwner : Bool) :
    Except TokenError Ledger := do
  require (l.tokens account = none) .alreadyInUse
  let m ← l.mint mint
  pure (l.setToken account
    { mint, owner, amount := 0, state := m.defaultState, immutableOwner })

/-- `InitializeMint2` on an account whose extensions are already written. -/
def initializeMint2 (l : Ledger) (mint : Pubkey) (decimals : ℕ) (mintAuthority : Pubkey)
    (freezeAuthority : Option Pubkey) (extensions : List ExtensionType)
    (defaultState : AccountState) (pausable : Option PausableConfig)
    (metadata : Option TokenMetadata) : Except TokenError Ledger := do
  require (l.mints mint = none) .alreadyInUse
  pure (l.setMint mint
    { mintAuthority := some mintAuthority, supply := 0, decimals, freezeAuthority, extensions,
      defaultState, pausable, metadata })

/-- `Pause` and `Resume` of the `Pausable` extension. -/
def pausableSet (l : Ledger) (mint authority : Pubkey) (paused : Bool) (signer : Pubkey) :
    Except TokenError Ledger := do
  let m ← l.mint mint
  let p ← okOr m.pausable .extensionNotFound
  validateOwner p.authority authority signer
  pure (l.setMint mint { m with pausable := some { p with paused } })

/-- `SetAuthority` with `AuthorityType::AccountOwner`. -/
def setOwner (l : Ledger) (account authority newOwner : Pubkey) (signer : Pubkey) :
    Except TokenError Ledger := do
  let a ← l.token account
  require (a.state ≠ .frozen) .accountFrozen
  validateOwner a.owner authority signer
  require (¬ a.immutableOwner) .immutableOwner
  pure (l.setToken account { a with owner := newOwner })

/-- `CloseAccount`: frozen or not, an account without balance may be closed by its owner. -/
def closeAccount (l : Ledger) (account authority : Pubkey) (signer : Pubkey) :
    Except TokenError Ledger := do
  let a ← l.token account
  require (a.amount = 0) .nonNativeHasBalance
  validateOwner a.owner authority signer
  pure { l with tokens := Function.update l.tokens account none }

end Ledger

end StablecoinAmm
