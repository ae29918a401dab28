import Mathlib.Order.Monotone.Defs
import StablecoinAmm.Chain.Lamports
import StablecoinAmm.System.Step

/-!
# System — the programs and their lamports

The chain with the lamports that `World` leaves out: `Chain` adds a `Bank`, and `Chain.step` is
`step` with what each instruction does to it.  The two instructions that create Token-2022
accounts at derived addresses, where anybody can send lamports first, are written out again with
that code in its place; whether an address is free they ask of the bank alone.

Elsewhere lamports come in through Anchor's constraints, before or after the handler, and it is
enough to take them separately: an instruction that fails leaves nothing behind.

When an instruction is done the runtime looks at every account whose lamports it may have changed:
none may be left owing rent that did not owe it before (`Runtime.RentKept`).

Outsiders send instructions of the system program, signed by external addresses.
-/

namespace StablecoinAmm
open Support

structure Chain where
  world : World
  bank : Bank

/-- `MINT_EXTENSIONS`: the metadata itself comes later. -/
def initialMintExtensions : List ExtensionType := [.defaultAccountState, .pausable, .metadataPointer]

/-- What the programs ask of the runtime and of Token-2022's library: the rent of an account of a
given length, and the lengths of mints and token accounts.  The fields after the lengths are what
the programs rely on. -/
structure Runtime where
  /-- `Rent::minimum_balance`. -/
  minimumBalance : ℕ → ℕ
  /-- `ExtensionType::try_calculate_account_len::<Mint>`. -/
  mintLen : List ExtensionType → ℕ
  /-- `try_calculate_account_len::<Account>` of the extensions that a mint with these requires. -/
  tokenLen : List ExtensionType → ℕ
  /-- `TokenMetadata::tlv_size_of`. -/
  metadataLen : TokenMetadata → ℕ
  /-- By how much Token-2022 lengthens a mint for its metadata. -/
  metadataGrowth : TokenMetadata → ℕ
  /-- `tlv_size_of` is enough: the library allows for a longer header than the one written. -/
  metadataGrowth_le : ∀ m, metadataGrowth m ≤ metadataLen m
  minimumBalance_mono : Monotone minimumBalance
  minimumBalance_pos : ∀ n, 0 < minimumBalance n
  minimumBalance_lt : ∀ n, n ≤ maxPermittedDataLength → minimumBalance n < 2 ^ 64
  lpMintLen_le : mintLen [] ≤ maxPermittedDataLength
  tokenLen_le : ∀ xs, (∀ x ∈ xs, x ∈ supportedMintExtensions) →
    tokenLen xs ≤ maxPermittedDataLength
  mintLen_le : ∀ m : TokenMetadata, m.name.length ≤ maxNameLen → m.symbol.length ≤ 8 →
    m.uri.length ≤ maxUriLen →
      mintLen initialMintExtensions + metadataLen m ≤ maxPermittedDataLength

namespace Runtime

/-- `Rent::is_exempt`. -/
def isExempt (rt : Runtime) (a : AccountInfo) : Bool :=
  rt.minimumBalance a.dataLen ≤ a.lamports

/-- The runtime's `RentState` of an account. -/
def rentState (rt : Runtime) (a : AccountInfo) : RentState :=
  if a.lamports = 0 then .uninitialized
  else if rt.isExempt a then .rentExempt
  else .rentPaying a.dataLen a.lamports

/-- The runtime accepts that `a` has become `a'`. -/
def RentKept (rt : Runtime) (a a' : AccountInfo) : Prop :=
  (rt.rentState a').allowedAfter (rt.rentState a)

instance (rt : Runtime) (a a' : AccountInfo) : Decidable (rt.RentKept a a') :=
  inferInstanceAs (Decidable (_ = true))

end Runtime

/-! ### `initialize_stablecoin` -/

/-- `MintConfig::DISCRIMINATOR.len() + MintConfig::INIT_SPACE`. -/
def MintConfig.space : ℕ := 8 + (32 + (1 + 32) + 32 + 32 + 8 + 1 + 8 + 16 + 16 + 1 + 1 + 1 + 64)

/-- `create_mint_account`. -/
def createMintAccount (b : Bank) (payer mint : Pubkey) (rentExempt space : ℕ) :
    Except (Fault (ProgramError StablecoinError)) Bank :=
  b.createDerived payer mint .token2022 rentExempt space (.custom .mintAccountInUse)

section
variable {ε α : Type}

/-- A part that does without lamports. -/
def plain (x : Except ε α) : Except (Fault ε) α := x.mapError .code

/-- Token-2022's own check before it initializes a mint or an account. -/
def requireExempt (rt : Runtime) (b : Bank) (k : Pubkey) : Except (Fault ε) Unit :=
  require (rt.isExempt (b.info k)) .notRentExempt

end

def Chain.initializeStablecoin (rt : Runtime) (s : Chain) (ctx : InitializeStablecoin)
    (symbol : Symbol) (name uri : List UInt8) (decimals supplyCap : ℕ) :
    Except (Fault (ProgramError StablecoinError)) Chain := do
  plain (requireSigner ctx.payer)
  plain (requireSeeds ctx.config (.config ctx.mint))
  let bank ← s.bank.initAccount ctx.payer ctx.config .stablecoin
    (rt.minimumBalance MintConfig.space) MintConfig.space
  plain (requireSeeds ctx.mint (.mint symbol))
  plain (ensure (decimals = stablecoinDecimals) .unsupportedDecimals)
  plain (ensure (0 < supplyCap) .zeroSupplyCap)
  plain (ensure (supplyCap ≤ maxSupplyCap) .supplyCapTooLarge)
  plain (ensure (name ≠ [] ∧ name.length ≤ maxNameLen) .invalidName)
  plain (ensure (uri ≠ [] ∧ uri.length ≤ maxUriLen) .invalidUri)
  let symbolText ← plain (normalizeSymbol symbol)
  let metadata : TokenMetadata :=
    { updateAuthority := ctx.config, mint := ctx.mint, name, symbol := symbolText, uri }
  -- the account is created at `baseLen`, funded for `finalLen`, and ends between the two
  let baseLen := rt.mintLen initialMintExtensions
  let finalLen := baseLen + rt.metadataLen metadata
  let bank ← createMintAccount bank ctx.payer ctx.mint (rt.minimumBalance finalLen) baseLen
  requireExempt rt bank ctx.mint
  let ledger ← plain (invoke (s.world.ledger.initializeMint2 ctx.mint decimals ctx.config
    (some ctx.config) mintExtensions .frozen (some { authority := ctx.config, paused := false })
    (some metadata)))
  let bank := bank.resize ctx.mint (baseLen + rt.metadataGrowth metadata)
  require (rt.isExempt (bank.info ctx.mint)) (.code (.custom .mintNotRentExempt))
  let config : MintConfig :=
    { admin := ctx.payer, pendingAdmin := none, complianceAuthority := ctx.payer,
      mint := ctx.mint, symbol, decimals, supplyCap, totalMinted := 0, totalBurned := 0,
      paused := false }
  pure { world := { s.world with ledger }.setConfig ctx.config config, bank }

/-! ### `initialize_pool` -/

/-- `Pool::DISCRIMINATOR.len() + Pool::INIT_SPACE`. -/
def Pool.space : ℕ :=
  8 + (32 + 32 + 32 + 32 + 32 + 32 + 8 + 8 + 2 + 1 + 1 + 1 + 1 + 1 + 1 + 64)

/-- `create_pda_account`. -/
def createPdaAccount (rt : Runtime) (b : Bank) (payer target : Pubkey) (owner : ProgramId)
    (space : ℕ) : Except (Fault (ProgramError AmmError)) Bank :=
  b.createDerived payer target owner (rt.minimumBalance space) space (.custom .childAccountInUse)

/-- `vault_space`. -/
def vaultSpace (rt : Runtime) (l : Ledger) (mint : Pubkey) :
    Except (ProgramError AmmError) ℕ := do
  let m ← invoke (l.mint mint)
  ensure (m.extensions.all (· ∈ supportedMintExtensions)) .unsupportedMintExtension
  pure (rt.tokenLen m.extensions)

/-- `create_vault`. -/
def createVaultAccount (rt : Runtime) (l : Ledger) (b : Bank) (payer vault mint pool : Pubkey) :
    Except (Fault (ProgramError AmmError)) (Ledger × Bank) := do
  let space ← plain (vaultSpace rt l mint)
  let b ← createPdaAccount rt b payer vault .token2022 space
  requireExempt rt b vault
  let l ← plain (invoke (l.initializeAccount3 vault mint pool false))
  pure (l, b)

def Chain.initializePool (rt : Runtime) (s : Chain) (ctx : InitializePool) (feeBps : ℕ) :
    Except (Fault (ProgramError AmmError)) Chain := do
  let w := s.world
  plain (requireSigner ctx.payer)
  let mintA ← plain (load (w.ledger.mints ctx.mintA))
  let mintB ← plain (load (w.ledger.mints ctx.mintB))
  let configA ← plain (load (w.configs ctx.configA))
  let configB ← plain (load (w.configs ctx.configB))
  plain (requireSeeds ctx.pool (.pool ctx.mintA ctx.mintB))
  let bank ← s.bank.initAccount ctx.payer ctx.pool .amm
    (rt.minimumBalance Pool.space) Pool.space
  plain (requireConfig ctx.configA ctx.mintA configA)
  plain (requireConfig ctx.configB ctx.mintB configB)
  plain (requireSeeds ctx.vaultA (.vault ctx.pool ctx.mintA))
  plain (requireSeeds ctx.vaultB (.vault ctx.pool ctx.mintB))
  plain (requireSeeds ctx.lpMint (.lpMint ctx.pool))
  plain (requireSeeds ctx.lockedLp (.lockedLp ctx.pool))
  plain (ensure (ctx.mintA ≠ ctx.mintB) .identicalMints)
  plain (ensure (w.addressBytes ctx.mintA < w.addressBytes ctx.mintB) .invalidMintOrder)
  plain (ensure (feeBps ≤ Amm.maxFeeBps) .feeTooHigh)
  let decimals := mintA.decimals
  plain (ensure (decimals = mintB.decimals ∧ decimals = stablecoinDecimals) .decimalsMismatch)
  let (ledger, bank) ← createVaultAccount rt w.ledger bank ctx.payer ctx.vaultA ctx.mintA ctx.pool
  let (ledger, bank) ← createVaultAccount rt ledger bank ctx.payer ctx.vaultB ctx.mintB ctx.pool
  let bank ← createPdaAccount rt bank ctx.payer ctx.lpMint .token2022 (rt.mintLen [])
  requireExempt rt bank ctx.lpMint
  let ledger ← plain (invoke (ledger.initializeMint2 ctx.lpMint decimals ctx.pool none []
    .initialized none none))
  let bank ← createPdaAccount rt bank ctx.payer ctx.lockedLp .token2022 (rt.tokenLen [])
  requireExempt rt bank ctx.lockedLp
  let ledger ← plain (invoke (ledger.initializeAccount3 ctx.lockedLp ctx.lpMint ctx.pool false))
  let pool : Pool :=
    { mintA := ctx.mintA, mintB := ctx.mintB, vaultA := ctx.vaultA, vaultB := ctx.vaultB,
      lpMint := ctx.lpMint, lockedLp := ctx.lockedLp, reserveA := 0, reserveB := 0, feeBps,
      decimals }
  pure { world := { w with ledger }.setPool ctx.pool pool, bank }

/-! ### Every instruction -/

/-- `MinterRole::DISCRIMINATOR.len() + MinterRole::INIT_SPACE`. -/
def MinterRole.space : ℕ := 8 + (32 + 32 + 8 + 8 + 1 + 32)

/-- `WalletPolicy::DISCRIMINATOR.len() + WalletPolicy::INIT_SPACE`. -/
def WalletPolicy.space : ℕ := 8 + (32 + 32 + 32 + 1 + 8 + 32 + 1 + 32)

inductive ChainAction where
  /-- `destination` is where the lamports of a closed token account go. -/
  | act (a : Action) (destination : Pubkey)
  | system (i : SystemInstruction)

/-- The accounts whose lamports it may change. -/
def ChainAction.funded : ChainAction → List Pubkey
  | .act (.initializeStablecoin ctx ..) _ => [ctx.payer, ctx.config, ctx.mint]
  | .act (.grantMinter ctx _) _ => [ctx.admin, ctx.minterRole]
  | .act (.revokeMinter ctx) _ => [ctx.admin, ctx.minterRole]
  | .act (.setWalletPolicy ctx ..) _ => [ctx.complianceAuthority, ctx.walletPolicy]
  | .act (.initializePool ctx _) _ =>
      [ctx.payer, ctx.pool, ctx.vaultA, ctx.vaultB, ctx.lpMint, ctx.lockedLp]
  | .act (.closeAccount account _) destination => [account, destination]
  | .act _ _ => []
  | .system (.transfer source destination _) => [source, destination]
  | .system i => i.signers

namespace Chain

/-- What an instruction does to the bank, the two above apart. -/
def settle (rt : Runtime) (s : Chain) (destination : Pubkey) :
    Action → Except (Fault StepError) Bank
  | .grantMinter ctx _ =>
      s.bank.initAccount ctx.admin ctx.minterRole .stablecoin
        (rt.minimumBalance MinterRole.space) MinterRole.space
  | .revokeMinter ctx => (s.bank.close ctx.minterRole ctx.admin).mapError .system
  | .setWalletPolicy ctx .. =>
      -- `init_if_needed`
      if (s.bank.info ctx.walletPolicy).owner = .system then
        s.bank.initAccount ctx.complianceAuthority ctx.walletPolicy .stablecoin
          (rt.minimumBalance WalletPolicy.space) WalletPolicy.space
      else
        pure s.bank
  | .createAccount account .. => do
      require ((s.bank.info account).owner = .token2022) .incorrectProgramId
      requireExempt rt s.bank account
      pure s.bank
  | .closeAccount account _ => do
      require (account ≠ destination) (.code (.token .invalidState))
      (s.bank.close account destination).mapError .system
  | _ => pure s.bank

/-- An instruction, up to the runtime's look at the accounts. -/
def execute (rt : Runtime) (s : Chain) : ChainAction → Except (Fault StepError) Chain
  | .act (.initializeStablecoin ctx symbol name uri decimals supplyCap) _ =>
      (s.initializeStablecoin rt ctx symbol name uri decimals supplyCap).mapError
        (Fault.map .stablecoin)
  | .act (.initializePool ctx feeBps) _ =>
      (s.initializePool rt ctx feeBps).mapError (Fault.map .amm)
  | .act a destination => do
      let world ← plain (StablecoinAmm.step s.world a)
      let bank ← s.settle rt destination a
      pure { world, bank }
  | .system i => do
      require (∀ k ∈ i.signers, k.isSigner) (.system .missingRequiredSignature)
      let bank ← (s.bank.execute i).mapError .system
      pure { s with bank }

def step (rt : Runtime) (s : Chain) (x : ChainAction) : Except (Fault StepError) Chain := do
  let s' ← s.execute rt x
  require (∀ k ∈ x.funded, rt.RentKept (s.bank.info k) (s'.bank.info k)) .insufficientFundsForRent
  pure s'

end Chain

/-- The chain before either program has been used: anybody may have funded the addresses they
will use, but nobody can have taken them. -/
structure Chain.IsGenesis (s : Chain) : Prop where
  world : StablecoinAmm.IsGenesis s.world
  derived : ∀ k, ¬ k.isSigner → (s.bank.info k).IsFree

end StablecoinAmm
