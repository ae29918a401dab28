import StablecoinAmm.Amm.Accounts
import StablecoinAmm.Chain.Movement

/-!
# Amm — what account validation ensures

`PoolAccounts.Valid` and `LiquidityAccounts.Valid` are what the constraints of the account
structs establish, as far as the handlers rely on it; `validate_sat` says that they do, and
that everything that fails before the quotes is a `Refusal`, an error that does not accuse the
pool itself.
-/

namespace StablecoinAmm
open Support Ledger

/-- Not an error about the state of a pool, and not one about the range of its numbers. -/
def Refusal : ProgramError AmmError → Prop
  | .custom .vaultBalanceInvariant => False
  | .custom .lpSupplyInvariant => False
  | .custom .lockedLiquidityInvariant => False
  | .custom .constantProductViolation => False
  | .custom .invalidLiquidityState => False
  | .custom .insufficientLiquidity => False
  | .custom .valueOutOfRange => False
  | .custom .mathOverflow => False
  | _ => True

/-! ### Account validation -/

/-- The accounts passed their constraints. -/
structure PoolAccounts.Valid (w : World) (ctx : PoolAccounts) (a : PoolAccounts.Loaded) :
    Prop where
  signer : ctx.user.isSigner
  pool : w.pools ctx.pool = some a.pool
  configA : w.configs ctx.configA = some a.configA
  configB : w.configs ctx.configB = some a.configB
  vaultA : w.ledger.tokens ctx.vaultA = some a.vaultA
  vaultB : w.ledger.tokens ctx.vaultB = some a.vaultB
  lpMint : w.ledger.mints ctx.lpMint = some a.lpMint
  mintA_eq : a.pool.mintA = ctx.mintA
  mintB_eq : a.pool.mintB = ctx.mintB
  vaultA_eq : a.pool.vaultA = ctx.vaultA
  vaultB_eq : a.pool.vaultB = ctx.vaultB
  lpMint_eq : a.pool.lpMint = ctx.lpMint
  pool_key : ctx.pool = .pool a.pool.mintA a.pool.mintB
  configA_key : ctx.configA = .config ctx.mintA
  configB_key : ctx.configB = .config ctx.mintB
  userA : w.ledger.HasAccount ctx.userA ctx.mintA ctx.user
  userB : w.ledger.HasAccount ctx.userB ctx.mintB ctx.user
  policyA : ∃ p, w.walletPolicies (.walletPolicy ctx.mintA ctx.userA) = some p ∧
    p.status = .allowed
  policyB : ∃ p, w.walletPolicies (.walletPolicy ctx.mintB ctx.userB) = some p ∧
    p.status = .allowed

/-- The accounts read, in their order. -/
structure PoolAccounts.Loads (w : World) (ctx : PoolAccounts) (a : PoolAccounts.Loaded) :
    Prop where
  signer : ctx.user.isSigner
  pool : w.pools ctx.pool = some a.pool
  configA : w.configs ctx.configA = some a.configA
  configB : w.configs ctx.configB = some a.configB
  vaultA : w.ledger.tokens ctx.vaultA = some a.vaultA
  vaultB : w.ledger.tokens ctx.vaultB = some a.vaultB
  lpMint : w.ledger.mints ctx.lpMint = some a.lpMint
  userA : w.ledger.tokens ctx.userA = some a.userA
  userB : w.ledger.tokens ctx.userB = some a.userB
  policyA : w.walletPolicies ctx.policyA = some a.policyA
  policyB : w.walletPolicies ctx.policyB = some a.policyB

theorem PoolAccounts.load_sat (w : World) (ctx : PoolAccounts) :
    Sat (ctx.load w) (ctx.Loads w) Refusal := by
  refine .require (fun _ => trivial) fun hsigner => ?_
  refine .okOr (fun _ => trivial) fun pool hpool => ?_
  refine .okOr (fun _ => trivial) fun mintA _ => ?_
  refine .okOr (fun _ => trivial) fun mintB _ => ?_
  refine .okOr (fun _ => trivial) fun configA hca => ?_
  refine .okOr (fun _ => trivial) fun configB hcb => ?_
  refine .okOr (fun _ => trivial) fun vaultA hva => ?_
  refine .okOr (fun _ => trivial) fun vaultB hvb => ?_
  refine .okOr (fun _ => trivial) fun lpMint hlp => ?_
  refine .okOr (fun _ => trivial) fun userA hua => ?_
  refine .okOr (fun _ => trivial) fun userB hub => ?_
  refine .okOr (fun _ => trivial) fun policyA hpa => ?_
  refine .okOr (fun _ => trivial) fun policyB hpb => ?_
  exact .pure ⟨hsigner, hpool, hca, hcb, hva, hvb, hlp, hua, hub, hpa, hpb⟩

theorem PoolAccounts.requirePool_sat (ctx : PoolAccounts) (P : Pool) :
    Sat (ctx.requirePool P)
      (fun _ => ctx.pool = .pool P.mintA P.mintB ∧ P.mintA = ctx.mintA ∧ P.mintB = ctx.mintB ∧
        P.vaultA = ctx.vaultA ∧ P.vaultB = ctx.vaultB ∧ P.lpMint = ctx.lpMint) Refusal := by
  refine .require (fun _ => trivial) fun hk => ?_
  refine .require (fun _ => trivial) fun hma => ?_
  refine .require (fun _ => trivial) fun hmb => ?_
  refine .require (fun _ => trivial) fun hva => ?_
  refine .require (fun _ => trivial) fun hvb => ?_
  by_cases hlp : P.lpMint = ctx.lpMint
  · rw [requireHasOne, require_of hlp]; exact ⟨hk, hma, hmb, hva, hvb, hlp⟩
  · rw [requireHasOne, require_not hlp]; trivial

theorem requireConfig_sat (key mint : Pubkey) (c : MintConfig) :
    Sat (requireConfig key mint c) (fun _ => key = .config mint ∧ c.mint = mint) Refusal := by
  refine .require (fun _ => trivial) fun hk => ?_
  by_cases hm : c.mint = mint
  · rw [ensure, require_of hm]; exact ⟨hk, hm⟩
  · rw [ensure, require_not hm]; trivial

theorem requireUserAccount_sat (key reserved mint user : Pubkey) (a : TokenAccount) :
    Sat (requireUserAccount key reserved mint user a) (fun _ => a.mint = mint ∧ a.owner = user)
      Refusal := by
  refine .require (fun _ => trivial) fun _ => ?_
  refine .require (fun _ => trivial) fun hm => ?_
  by_cases ho : a.owner = user
  · rw [ensure, require_of ho]; exact ⟨hm, ho⟩
  · rw [ensure, require_not ho]; trivial

theorem requirePolicy_sat (key mint account : Pubkey) (p : WalletPolicy) :
    Sat (requirePolicy key mint account p)
      (fun _ => key = .walletPolicy mint account ∧ p.status = .allowed) Refusal := by
  refine .require (fun _ => trivial) fun hk => ?_
  by_cases hs : p.status = .allowed
  · rw [ensure, require_of hs]; exact ⟨hk, hs⟩
  · rw [ensure, require_not hs]; trivial

theorem PoolAccounts.Loads.valid {w : World} {ctx : PoolAccounts} {a : PoolAccounts.Loaded}
    (hl : ctx.Loads w a)
    (hp : ctx.pool = .pool a.pool.mintA a.pool.mintB ∧ a.pool.mintA = ctx.mintA ∧
      a.pool.mintB = ctx.mintB ∧ a.pool.vaultA = ctx.vaultA ∧ a.pool.vaultB = ctx.vaultB ∧
      a.pool.lpMint = ctx.lpMint)
    (hca : ctx.configA = .config ctx.mintA) (hcb : ctx.configB = .config ctx.mintB)
    (hua : a.userA.mint = ctx.mintA ∧ a.userA.owner = ctx.user)
    (hub : a.userB.mint = ctx.mintB ∧ a.userB.owner = ctx.user)
    (hpa : ctx.policyA = .walletPolicy ctx.mintA ctx.userA ∧ a.policyA.status = .allowed)
    (hpb : ctx.policyB = .walletPolicy ctx.mintB ctx.userB ∧ a.policyB.status = .allowed) :
    ctx.Valid w a := by
  obtain ⟨hk, hma, hmb, hva, hvb, hlp⟩ := hp
  exact
    { signer := hl.signer
      pool := hl.pool
      configA := hl.configA
      configB := hl.configB
      vaultA := hl.vaultA
      vaultB := hl.vaultB
      lpMint := hl.lpMint
      mintA_eq := hma
      mintB_eq := hmb
      vaultA_eq := hva
      vaultB_eq := hvb
      lpMint_eq := hlp
      pool_key := hk
      configA_key := hca
      configB_key := hcb
      userA := ⟨a.userA, hl.userA, hua⟩
      userB := ⟨a.userB, hl.userB, hub⟩
      policyA := ⟨a.policyA, hpa.1 ▸ hl.policyA, hpa.2⟩
      policyB := ⟨a.policyB, hpb.1 ▸ hl.policyB, hpb.2⟩ }

theorem PoolAccounts.validate_sat (w : World) (ctx : PoolAccounts) :
    Sat (ctx.validate w) (ctx.Valid w) Refusal := by
  refine (ctx.load_sat w).bind fun a hl => ?_
  refine (ctx.requirePool_sat a.pool).bind fun _ hp => ?_
  refine (requireConfig_sat ..).bind fun _ hca => ?_
  refine (requireConfig_sat ..).bind fun _ hcb => ?_
  refine (requireUserAccount_sat ..).bind fun _ hua => ?_
  refine (requireUserAccount_sat ..).bind fun _ hub => ?_
  refine (requirePolicy_sat ..).bind fun _ hpa => ?_
  refine (requirePolicy_sat ..).bind fun _ hpb => ?_
  exact .pure (hl.valid hp hca.1 hcb.1 hua hub hpa hpb)

structure LiquidityAccounts.Valid (w : World) (ctx : LiquidityAccounts)
    (a : LiquidityAccounts.Loaded) : Prop extends ctx.toPoolAccounts.Valid w a.toLoaded where
  lockedLp : w.ledger.tokens ctx.lockedLp = some a.lockedLp
  lockedLp_eq : a.pool.lockedLp = ctx.lockedLp
  userLp : w.ledger.HasAccount ctx.userLp ctx.lpMint ctx.user

theorem LiquidityAccounts.validate_sat (w : World) (ctx : LiquidityAccounts) :
    Sat (ctx.validate w) (ctx.Valid w) Refusal := by
  refine (ctx.toPoolAccounts.load_sat w).bind fun a hl => ?_
  refine .okOr (fun _ => trivial) fun lockedLp hlocked => ?_
  refine .okOr (fun _ => trivial) fun userLp huser => ?_
  refine (ctx.toPoolAccounts.requirePool_sat a.pool).bind fun _ hp => ?_
  refine .require (fun _ => trivial) fun hll => ?_
  refine (requireConfig_sat ..).bind fun _ hca => ?_
  refine (requireConfig_sat ..).bind fun _ hcb => ?_
  refine (requireUserAccount_sat ..).bind fun _ hua => ?_
  refine (requireUserAccount_sat ..).bind fun _ hub => ?_
  refine (requireUserAccount_sat ..).bind fun _ hul => ?_
  refine (requirePolicy_sat ..).bind fun _ hpa => ?_
  refine (requirePolicy_sat ..).bind fun _ hpb => ?_
  exact .pure
    { hl.valid hp hca.1 hcb.1 hua hub hpa hpb with
      lockedLp := hlocked
      lockedLp_eq := hll
      userLp := ⟨userLp, huser, hul⟩ }

/-- Neither stablecoin is paused, by the flags of the configurations. -/
def PoolAccounts.Loaded.Unpaused (a : PoolAccounts.Loaded) : Prop :=
  a.configA.paused = false ∧ a.configB.paused = false

theorem ensureUnpaused_sat (a : PoolAccounts.Loaded) :
    Sat (ensureUnpaused a.configA a.configB) (fun _ => a.Unpaused) Refusal := by
  by_cases h : ¬ a.configA.paused ∧ ¬ a.configB.paused
  · rw [ensureUnpaused, ensure, require_of h]
    exact ⟨by simpa using h.1, by simpa using h.2⟩
  · rw [ensureUnpaused, ensure, require_not h]; trivial

theorem ensureChildren_sat (ctx : PoolAccounts) (a : PoolAccounts.Loaded) :
    Sat (ensureChildren ctx a) (fun _ => True) Refusal := by
  refine .require (fun _ => trivial) fun _ => ?_
  refine .require (fun _ => trivial) fun _ => ?_
  refine .require (fun _ => trivial) fun _ => ?_
  refine .require (fun _ => trivial) fun _ => ?_
  exact .intro (fun _ _ => trivial) fun e he => by
    obtain ⟨-, rfl⟩ := require_error_iff.mp he
    trivial

theorem ensureLockedAccount_sat (ctx : LiquidityAccounts) (a : LiquidityAccounts.Loaded) :
    Sat (ensureLockedAccount ctx a) (fun _ => True) Refusal := by
  refine .require (fun _ => trivial) fun _ => ?_
  exact .intro (fun _ _ => trivial) fun e he => by
    obtain ⟨-, rfl⟩ := require_error_iff.mp he
    trivial

end StablecoinAmm
