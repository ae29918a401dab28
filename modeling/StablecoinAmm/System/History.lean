import StablecoinAmm.System.Refinement

/-!
# System — histories that are executed

The world is a value and a step is a function, so a history can be run.  `World.after` is its
outcome, and it is `w'` exactly when a run ends there (`after_ok_iff`).

`lopsided` is such an outcome, used wherever a concrete world is called for: two stablecoins
issued to one user, and a pool into which the user put one unit of one and 1,002,001 units of
the other, the least that the first deposit accepts.
-/

namespace StablecoinAmm
open Support

/-- The world after a history, or the error of the first action that fails. -/
def World.after (w : World) (as : List Action) : Except StepError World := as.foldlM step w

/-- The world after a history that succeeds. -/
def World.afterAll (w : World) (as : List Action) : World := (w.after as).toOption.getD w

theorem after_ok_iff {w w' : World} {as : List Action} :
    w.after as = .ok w' ↔ Run step w as w' :=
  Run.iff_foldlM.symm

theorem run_afterAll {w : World} {as : List Action} (h : (w.after as).isOk) :
    Run step w as (w.afterAll as) := by
  rw [← after_ok_iff, World.afterAll]
  cases hw : w.after as with
  | ok w' => rfl
  | error e => rw [hw] at h; cases h

/-- Why an action fails, if it does. -/
def World.failure (w : World) (a : Action) : Option StepError :=
  match step w a with
  | .ok _ => none
  | .error e => some e

theorem failure_eq_some {w : World} {a : Action} {e : StepError} :
    w.failure a = some e ↔ step w a = .error e := by
  rw [World.failure]
  cases step w a with
  | ok w' => simp
  | error e' => simp

/-! ### A lopsided pool -/

namespace Lopsided

def symbolA : Symbol := ⟨[65, 0, 0, 0, 0, 0, 0, 0], rfl⟩
def symbolB : Symbol := ⟨[66, 0, 0, 0, 0, 0, 0, 0], rfl⟩
def mintA : Pubkey := .mint symbolA
def mintB : Pubkey := .mint symbolB
def pool : Pubkey := .pool mintA mintB

/-- The admin, minter and compliance authority of both stablecoins. -/
def issuer : Pubkey := .external 0
def user : Pubkey := .external 1
def userA : Pubkey := .external 2
def userB : Pubkey := .external 3
def userLp : Pubkey := .external 4

/-- Mints are ordered by their symbols. -/
def addressBytes : Pubkey → List UInt8
  | .mint symbol => symbol.1
  | _ => []

def allow (mint account : Pubkey) : Action :=
  .setWalletPolicy
    { complianceAuthority := issuer, mint, config := .config mint, tokenAccount := account,
      walletPolicy := .walletPolicy mint account } .allowed 0

def mintTo (mint account : Pubkey) : MintTo :=
  { minter := issuer, mint, config := .config mint,
    minterRole := .minterRole (.config mint) issuer, destination := account,
    walletPolicy := .walletPolicy mint account }

/-- A new stablecoin, `amount` of which goes to a new account of the user. -/
def issue (symbol : Symbol) (account : Pubkey) (amount : ℕ) : List Action :=
  [.initializeStablecoin { payer := issuer, mint := .mint symbol, config := .config (.mint symbol) }
      symbol [1] [1] stablecoinDecimals maxSupplyCap,
    .grantMinter
      { admin := issuer, config := .config (.mint symbol), authority := issuer,
        minterRole := .minterRole (.config (.mint symbol)) issuer } maxSupplyCap,
    .createAccount account (.mint symbol) user false,
    allow (.mint symbol) account,
    .mintTo (mintTo (.mint symbol) account) amount]

def accounts : LiquidityAccounts where
  user := user
  pool := pool
  mintA := mintA
  mintB := mintB
  configA := .config mintA
  configB := .config mintB
  vaultA := .vault pool mintA
  vaultB := .vault pool mintB
  lpMint := .lpMint pool
  userA := userA
  userB := userB
  policyA := .walletPolicy mintA userA
  policyB := .walletPolicy mintB userB
  lockedLp := .lockedLp pool
  userLp := userLp

def history : List Action :=
  issue symbolA userA 1000 ++ issue symbolB userB 2000000 ++
    [.initializePool
        { payer := issuer, mintA, mintB, configA := .config mintA, configB := .config mintB, pool,
          vaultA := .vault pool mintA, vaultB := .vault pool mintB, lpMint := .lpMint pool,
          lockedLp := .lockedLp pool } 30,
      allow mintA (.vault pool mintA),
      allow mintB (.vault pool mintB),
      .createAccount userLp (.lpMint pool) user false,
      .addLiquidity accounts 1 1002001 0 0 0]

end Lopsided

open Lopsided in
def lopsided : World := (World.genesis addressBytes).afterAll history

open Lopsided in
theorem lopsided_run : Run step (World.genesis addressBytes) history lopsided :=
  run_afterAll (by decide +kernel)

theorem lopsided_reachable : lopsided.Reachable := ⟨_, _, ⟨_, rfl⟩, lopsided_run⟩

open Lopsided in
/-- The pool of `lopsided`. -/
def lopsidedPool : Pool where
  mintA := mintA
  mintB := mintB
  vaultA := .vault pool mintA
  vaultB := .vault pool mintB
  lpMint := .lpMint pool
  lockedLp := .lockedLp pool
  reserveA := 1
  reserveB := 1002001
  feeBps := 30
  decimals := 6

theorem lopsided_pool : lopsided.pools Lopsided.pool = some lopsidedPool := by decide +kernel

/-- One LP token is the user's, the other thousand are locked. -/
theorem lopsided_state :
    lopsidedPool.state lopsided.ledger = ⟨1, 1002001, 1001, 1000, 1, 1002001⟩ := by
  rw [PoolState.mk.injEq]
  decide +kernel

open Lopsided in
/-- With one unit less the first deposit is refused. -/
example : ((World.genesis addressBytes).after
    (history.dropLast ++ [.addLiquidity accounts 1 1002000 0 0 0])).isOk = false := by
  decide +kernel

theorem lopsided_seeded : (lopsidedPool.state lopsided.ledger).Seeded := by
  rw [lopsided_state]
  exact ⟨by decide, by decide, by decide, by decide, by decide, by decide, by decide, by decide,
    by decide⟩

end StablecoinAmm
