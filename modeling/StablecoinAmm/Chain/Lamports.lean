import Mathlib.Logic.Function.Basic
import StablecoinAmm.Chain.Ledger

/-!
# Chain — lamports and the system program

Under its contents every account has lamports, a data length and an owning program, and an
address that nobody has used is an account of the system program without any.  Anybody may send
lamports to any address, derived ones included.

The system program is not part of the repository; its instructions are the documented ones, in
its order.  Nonces and the variants that take a seed are left out.  So are transaction fees.  The
runtime's own rule about rent (`RentState`) applies to a whole instruction, and is checked where
instructions are (`Chain.step`).

`createDerived` is the common code of `create_mint_account` of the stablecoin program and
`create_pda_account` of the AMM program, which differ in one error.  `initAccount` is what
Anchor's `init` constraint does, and `close` what its `close` constraint and Token-2022's
`CloseAccount` do.  What the handlers need of the first two is stated in `Funding.Creation`
(`Creator`).
-/

namespace StablecoinAmm
open Support

/-! ### Accounts -/

/-- The program that owns an account. -/
inductive ProgramId where
  | system
  | token2022
  | stablecoin
  | amm
  | other (n : ℕ)
  deriving DecidableEq

structure AccountInfo where
  lamports : ℕ
  dataLen : ℕ
  owner : ProgramId
  deriving DecidableEq

/-- No program has taken the account, whatever it holds. -/
def AccountInfo.IsFree (a : AccountInfo) : Prop := a.owner = .system ∧ a.dataLen = 0

instance (a : AccountInfo) : Decidable a.IsFree := inferInstanceAs (Decidable (_ ∧ _))

/-- What the system program transfers out of the account. -/
def AccountInfo.spendable (a : AccountInfo) : ℕ := if a.IsFree then a.lamports else 0

/-- How an account stands with its rent. -/
inductive RentState where
  | uninitialized
  | rentPaying (dataLen lamports : ℕ)
  | rentExempt
  deriving DecidableEq

/-- `transition_allowed`: nobody comes to owe rent, and whoever does is neither credited nor
resized without paying it up. -/
def RentState.allowedAfter (post pre : RentState) : Bool :=
  match post with
  | .uninitialized | .rentExempt => true
  | .rentPaying dataLen lamports =>
      match pre with
      | .uninitialized | .rentExempt => false
      | .rentPaying dataLen' lamports' => dataLen = dataLen' && decide (lamports ≤ lamports')

structure Bank where
  info : Pubkey → AccountInfo

inductive SystemError where
  | accountAlreadyInUse
  | resultWithNegativeLamports
  | invalidAccountDataLength
  | invalidArgument
  | missingRequiredSignature
  | externalAccountLamportSpend
  | modifiedProgramId
  | arithmeticOverflow
  deriving DecidableEq

/-- `MAX_PERMITTED_DATA_LENGTH`. -/
def maxPermittedDataLength : ℕ := 10485760

namespace Bank

def set (b : Bank) (k : Pubkey) (a : AccountInfo) : Bank := ⟨Function.update b.info k a⟩

@[simp] theorem set_self (b : Bank) (k : Pubkey) (a : AccountInfo) : (b.set k a).info k = a :=
  Function.update_self ..

@[simp] theorem set_of_ne (b : Bank) {j k : Pubkey} (a : AccountInfo) (h : j ≠ k) :
    (b.set k a).info j = b.info j := Function.update_of_ne h ..

theorem set_set (b : Bank) (k : Pubkey) (a a' : AccountInfo) : (b.set k a).set k a' = b.set k a' :=
  congrArg Bank.mk (Function.update_idem ..)

/-! ### The system program -/

section
variable (b : Bank) (signers : List Pubkey)

def transfer (source destination : Pubkey) (lamports : ℕ) : Except SystemError Bank := do
  require (source ∈ signers) .missingRequiredSignature
  require ((b.info source).dataLen = 0) .invalidArgument
  require (lamports ≤ (b.info source).lamports) .resultWithNegativeLamports
  -- only what a program owns may it make poorer
  require ((b.info source).owner = .system ∨ lamports = 0) .externalAccountLamportSpend
  let b := b.set source
    { b.info source with lamports := (b.info source).lamports - lamports }
  let balance ← okOr (checkedAdd 64 (b.info destination).lamports lamports) .arithmeticOverflow
  pure (b.set destination { b.info destination with lamports := balance })

def allocate (account : Pubkey) (space : ℕ) : Except SystemError Bank := do
  require (account ∈ signers) .missingRequiredSignature
  require (b.info account).IsFree .accountAlreadyInUse
  require (space ≤ maxPermittedDataLength) .invalidAccountDataLength
  pure (b.set account { b.info account with dataLen := space })

def assign (account : Pubkey) (owner : ProgramId) : Except SystemError Bank :=
  if (b.info account).owner = owner then
    pure b
  else do
    require (account ∈ signers) .missingRequiredSignature
    require ((b.info account).owner = .system) .modifiedProgramId
    pure (b.set account { b.info account with owner })

def createAccount (source account : Pubkey) (lamports space : ℕ) (owner : ProgramId) :
    Except SystemError Bank := do
  require ((b.info account).lamports = 0) .accountAlreadyInUse
  let b ← b.allocate signers account space
  let b ← b.assign signers account owner
  b.transfer signers source account lamports

end

end Bank

/-- An instruction of the system program that somebody sends. -/
inductive SystemInstruction where
  | transfer (source destination : Pubkey) (lamports : ℕ)
  | allocate (account : Pubkey) (space : ℕ)
  | assign (account : Pubkey) (owner : ProgramId)
  | createAccount (source account : Pubkey) (lamports space : ℕ) (owner : ProgramId)
  deriving DecidableEq

/-- The accounts that have to sign. -/
def SystemInstruction.signers : SystemInstruction → List Pubkey
  | .transfer source .. => [source]
  | .allocate account _ | .assign account _ => [account]
  | .createAccount source account .. => [source, account]

def Bank.execute (b : Bank) (i : SystemInstruction) : Except SystemError Bank :=
  match i with
  | .transfer source destination lamports => b.transfer i.signers source destination lamports
  | .allocate account space => b.allocate i.signers account space
  | .assign account owner => b.assign i.signers account owner
  | .createAccount source account lamports space owner =>
      b.createAccount i.signers source account lamports space owner

/-! ### Creating accounts at derived addresses -/

/-- Why an instruction fails that creates accounts: for a reason `e` of the program's own, or
for one of lamports. -/
inductive Fault (ε : Type) where
  | code (e : ε)
  | system (e : SystemError)
  /-- Token-2022 initializes no account that owes rent. -/
  | notRentExempt
  /-- And none that is not its own. -/
  | incorrectProgramId
  /-- The runtime's, of an account left with too little. -/
  | insufficientFundsForRent
  deriving DecidableEq

def Fault.map {ε ε' : Type} (f : ε → ε') : Fault ε → Fault ε'
  | .code e => .code (f e)
  | .system e => .system e
  | .notRentExempt => .notRentExempt
  | .incorrectProgramId => .incorrectProgramId
  | .insufficientFundsForRent => .insufficientFundsForRent

namespace Bank

section
variable {ε : Type} (b : Bank) (payer target : Pubkey) (owner : ProgramId)
  (rentExempt space : ℕ)

/-- `if deficit > 0`, the transfer of what is missing. -/
def payDeficit : Except SystemError Bank :=
  let deficit := rentExempt - (b.info target).lamports
  if deficit > 0 then b.transfer [payer] payer target deficit else pure b

/-- A pre-funded address cannot be passed to `create_account`, so it is topped up, allocated and
assigned instead. -/
def topUp : Except SystemError Bank := do
  let b ← b.payDeficit payer target rentExempt
  let b ← b.allocate [target] target space
  b.assign [target] target owner

/-- What both programs do; `inUse` is the error of an address that a program has taken. -/
def createDerived (inUse : ε) : Except (Fault ε) Bank :=
  if (b.info target).lamports = 0 then
    (b.createAccount [payer, target] payer target rentExempt space owner).mapError .system
  else do
    require (b.info target).IsFree (.code inUse)
    (b.topUp payer target owner rentExempt space).mapError .system

/-- Anchor's `init`, which leaves it to the system program to find an address taken. -/
def initAccount : Except (Fault ε) Bank :=
  if (b.info target).lamports = 0 then
    (b.createAccount [payer, target] payer target rentExempt space owner).mapError .system
  else
    (b.topUp payer target owner (max rentExempt 1) space).mapError .system

end

/-- Gives the lamports of the account at `k` to `destination` and the account back. -/
def close (b : Bank) (k destination : Pubkey) : Except SystemError Bank := do
  let balance ← okOr (checkedAdd 64 (b.info destination).lamports (b.info k).lamports)
    .arithmeticOverflow
  pure ((b.set destination { b.info destination with lamports := balance }).set k ⟨0, 0, .system⟩)

/-- Token-2022 lengthens a mint for its metadata, without funding it. -/
def resize (b : Bank) (k : Pubkey) (dataLen : ℕ) : Bank :=
  b.set k { b.info k with dataLen }

end Bank

end StablecoinAmm
