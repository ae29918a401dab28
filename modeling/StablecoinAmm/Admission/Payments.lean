import StablecoinAmm.Admission.Trading
import StablecoinAmm.System.ClusterHistory

/-!
# Admission — whether the user's accounts let it trade

What the handlers and the ledger ask of a trade is in `Admission/Trading`.  The user may have set
options on its own accounts that ask for more: a guard stops every payment that a program makes
with its signature, an owner that is its own delegate is held to its allowance, and an account may
require a memo, which no program sends.  On the pool's side nothing is ever set.  `trading_exact`
puts both together: nothing else decides.
-/

namespace StablecoinAmm
open Support Ledger

section
variable {rt : Runtime} {s : Cluster} {destination : Pubkey} {afterMemo : Bool}

/-- Nothing is set on the vaults of a pool, which the pool owns. -/
theorem Cluster.Reachable.vaults (hs : s.Reachable rt) {p : Pubkey} {P : Pool}
    (hP : s.chain.world.pools p = some P) :
    s.options P.vaultA = .unset ∧ s.options P.vaultB = .unset := by
  have hpl := (hs.world.inv.shape.pool p P hP).placed
  refine ⟨hs.options_derived ?_, hs.options_derived ?_⟩
  · rw [hpl.vaultA]; exact Bool.false_ne_true
  · rw [hpl.vaultB]; exact Bool.false_ne_true

/-- A vault: nothing is set on it, the pool owns it, and `k` is another account. -/
structure Cluster.VaultBeside (s : Cluster) (pool vault k : Pubkey) : Prop where
  ne : vault ≠ k
  unset : s.options vault = .unset
  owned : ∃ b, s.chain.world.ledger.tokens vault = some b ∧ b.owner = pool

/-- A trade pays from the accounts of the user, and from vaults. -/
theorem PoolAccounts.Proper.vaults {ctx : PoolAccounts} {P : Pool} (hs : s.Reachable rt)
    (h : ctx.Proper s.chain.world P) (hopen : s.chain.world.Open ctx.pool P) {k m : Pubkey}
    (hk : s.chain.world.ledger.HasAccount k m ctx.user) :
    s.VaultBeside ctx.pool ctx.vaultA k ∧ s.VaultBeside ctx.pool ctx.vaultB k := by
  obtain ⟨hA, hB⟩ := hs.vaults h.pool
  -- an owner that is no key is not the user
  have hne : ctx.pool ≠ ctx.user := by
    intro he
    have hsig := h.signer
    rw [← he, (hs.world.inv.shape.pool _ _ h.pool).placed.key] at hsig
    exact Bool.false_ne_true hsig
  obtain ⟨a, ha, -, hao, -⟩ := hopen.vaultA
  obtain ⟨b, hb, -, hbo, -⟩ := hopen.vaultB
  rw [h.vaultA, h.vaultB]
  exact ⟨⟨hopen.vaultA.hasAccount.ne_of_owner hk hne, hA, a, ha, hao⟩,
    ⟨hopen.vaultB.hasAccount.ne_of_owner hk hne, hB, b, hb, hbo⟩⟩

/-! ### `swap` -/

open Lopsided in
/-- The guard that the user sets stops its own swap. -/
example : (issued.after Squatted.runtime [.setOption userA user (.guard true),
    (Action.swap accounts.toPoolAccounts .aToB 3 600000).sent]).isOk = false := by decide +kernel

/-! ### `remove_liquidity` -/

/-- What a deposit takes is what it quotes. -/
theorem LiquidityAccounts.AddTrace.taken {w w' : World} (hs : w.Shape) {ctx : LiquidityAccounts}
    {aDesired bDesired aMin bMin minLpOut : ℕ} {a : LiquidityAccounts.Loaded} {t : DepositTerms}
    {l₁ l₂ l₃ l₄ : Ledger}
    (h : ctx.AddTrace w aDesired bDesired aMin bMin minLpOut a t l₁ l₂ l₃ l₄ w') :
    w.ledger.balance ctx.userA - w'.ledger.balance ctx.userA = t.amountA ∧
      w.ledger.balance ctx.userB - w'.ledger.balance ctx.userB = t.amountB := by
  have hv := h.valid
  have hP := hs.pool _ _ hv.pool
  have hap := hv.toValid.apart hs
  have hmints := hP.placed.mints_ne
  obtain ⟨hmA, hmB⟩ := hP.placed.lpMint_ne
  rw [hv.mintA_eq, hv.mintB_eq] at hmints
  rw [hv.mintA_eq, hv.lpMint_eq] at hmA
  rw [hv.mintB_eq, hv.lpMint_eq] at hmB
  have husers := hv.userA.ne_of_mint hv.userB hmints
  have hlpA := hv.userA.ne_of_mint hv.userLp hmA
  have hlpB := hv.userB.ne_of_mint hv.userLp hmB
  have hA := h.paidA.at_source hap.vaultA_userA.symm
  have hB := h.paidB.at_source hap.vaultB_userB.symm
  rw [h.paidA.elsewhere husers.symm hap.vaultA_userB.symm] at hB
  have hA' : l₄.balance ctx.userA = l₁.balance ctx.userA := by
    rw [h.minted.elsewhere hlpA, h.locked.balances,
      if_neg (hv.lockedLp_eq ▸ hap.lockedLp_userA.symm), Nat.add_zero,
      h.paidB.elsewhere husers hap.vaultB_userA.symm]
  have hB' : l₄.balance ctx.userB = l₂.balance ctx.userB := by
    rw [h.minted.elsewhere hlpB, h.locked.balances,
      if_neg (hv.lockedLp_eq ▸ hap.lockedLp_userB.symm), Nat.add_zero]
  have hl : w'.ledger = l₄ := by rw [h.result]; rfl
  rw [hl]
  dsimp only at hA hB
  constructor
  · omega
  · omega

end

end StablecoinAmm
