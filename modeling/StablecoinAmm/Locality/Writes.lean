import StablecoinAmm.Admission.Administration
import StablecoinAmm.Identity.Pairs
import StablecoinAmm.Locality.Handlers

/-!
# Locality — what the instructions write

A step changes no account but those that it declares mutable (`step_writes`): what it does to
every other account can be read off its effect.  A call of Token-2022 writes the accounts it debits
and credits, and the mint only where it changes the supply; so a trade leaves both mints of the
pool to others.
-/

namespace StablecoinAmm
open Support Ledger

/-! ### The ledger -/

namespace Ledger

/-- What stands at `k` is the same in both ledgers. -/
def Untouched (k : Pubkey) (l l' : Ledger) : Prop :=
  l'.mints k = l.mints k ∧ l'.tokens k = l.tokens k

variable {l l₁ l' : Ledger} {k : Pubkey}

theorem Untouched.refl (k : Pubkey) (l : Ledger) : Untouched k l l := ⟨rfl, rfl⟩

theorem Untouched.trans (h₁ : Untouched k l l₁) (h₂ : Untouched k l₁ l') : Untouched k l l' :=
  ⟨h₂.1.trans h₁.1, h₂.2.trans h₁.2⟩

theorem untouched_setMint {m : Pubkey} {M : Mint} (hk : k ≠ m) : Untouched k l (l.setMint m M) :=
  ⟨Function.update_of_ne hk .., rfl⟩

theorem untouched_setToken {j : Pubkey} {a : TokenAccount} (hk : k ≠ j) :
    Untouched k l (l.setToken j a) := ⟨rfl, Function.update_of_ne hk ..⟩

/-- An account stays as it is where its amount does. -/
theorem Moved.untouched (h : Moved l l') (hb : l'.balance k = l.balance k)
    (hs : l'.supply k = l.supply k) : Untouched k l l' := by
  constructor
  · cases hM : l.mints k with
    | none =>
        cases hM' : l'.mints k with
        | none => rfl
        | some M' => cases hM.symm.trans (mint_of_skeleton h.skeleton.symm hM')
    | some M => rw [mint_of_skeleton h.skeleton hM, hs, supply_of hM]
  · cases ha : l.tokens k with
    | none =>
        cases ha' : l'.tokens k with
        | none => rfl
        | some a' => cases ha.symm.trans (token_of_skeleton h.skeleton.symm ha')
    | some a => rw [token_of_skeleton h.skeleton ha, hb, balance_of ha]

theorem Transferred.untouched {c : TransferChecked} {signer : Pubkey} {n : ℕ}
    (t : Transferred l c signer n l') (hs : k ≠ c.source) (hd : k ≠ c.destination) :
    Untouched k l l' := t.toMoved.untouched (t.elsewhere hs hd) (t.supplies k)

theorem Minted.untouched {c : MintToChecked} {signer : Pubkey} {n : ℕ}
    (t : Minted l c signer n l') (hm : k ≠ c.mint) (hd : k ≠ c.destination) :
    Untouched k l l' :=
  t.toMoved.untouched (t.elsewhere hd) (by rw [t.supplies, if_neg hm, Nat.add_zero])

theorem Burned.untouched {c : BurnChecked} {signer : Pubkey} {n : ℕ}
    (t : Burned l c signer n l') (hm : k ≠ c.mint) (hs : k ≠ c.source) : Untouched k l l' := by
  have hsup := t.supplies k
  rw [if_neg hm, Nat.add_zero] at hsup
  exact t.toMoved.untouched (t.elsewhere hs) hsup

end Ledger

/-! ### The world -/

namespace World

variable {w : World} {j k : Pubkey}

theorem cells_setLedger {l : Ledger} (h : Untouched k w.ledger l) :
    cells { w with ledger := l } k = cells w k := by
  simp only [cells, Equiv.coe_fn_mk, h.1, h.2]

theorem cells_setConfig {c : MintConfig} (hk : k ≠ j) :
    cells (w.setConfig j c) k = cells w k := by
  simp only [cells, setConfig, Equiv.coe_fn_mk, Function.update_of_ne hk]

theorem cells_setMinterRole {r : Option MinterRole} (hk : k ≠ j) :
    cells (w.setMinterRole j r) k = cells w k := by
  simp only [cells, setMinterRole, Equiv.coe_fn_mk, Function.update_of_ne hk]

theorem cells_setWalletPolicy {p : WalletPolicy} (hk : k ≠ j) :
    cells (w.setWalletPolicy j p) k = cells w k := by
  simp only [cells, setWalletPolicy, Equiv.coe_fn_mk, Function.update_of_ne hk]

theorem cells_setPool {P : Pool} (hk : k ≠ j) : cells (w.setPool j P) k = cells w k := by
  simp only [cells, setPool, Equiv.coe_fn_mk, Function.update_of_ne hk]

end World

/-! ### The instructions -/

section
variable {w w' : World} {k : Pubkey}

theorem LiquidityAccounts.Locked.untouched {ctx : LiquidityAccounts} {n : ℕ} {l l' : Ledger}
    (h : ctx.Locked n l l') (hm : k ≠ ctx.lpMint) (hk : k ≠ ctx.lockedLp) : Untouched k l l' := by
  rcases h with ⟨-, rfl⟩ | h
  · exact .refl _ _
  · exact h.untouched hm hk

theorem PoolAccounts.SwapEffect.untouched {ctx : PoolAccounts} {d : SwapDirection} {amountIn : ℕ}
    {a : PoolAccounts.Loaded} {q : Amm.SwapQuote} {l₁ l₂ : Ledger}
    (h : ctx.SwapEffect w d amountIn a q l₁ l₂ w') (hvaultA : k ≠ ctx.vaultA)
    (hvaultB : k ≠ ctx.vaultB) (huserA : k ≠ ctx.userA) (huserB : k ≠ ctx.userB) :
    Untouched k w.ledger l₂ := by
  cases d with
  | aToB => exact (h.paidIn.untouched huserA hvaultA).trans (h.paidOut.untouched hvaultB huserB)
  | bToA => exact (h.paidIn.untouched huserB hvaultB).trans (h.paidOut.untouched hvaultA huserA)

/-- **An instruction writes nothing that it does not declare.** -/
theorem step_writes (hw : w.Inv) {a : Action} (h : step w a = .ok w') (hk : k ∉ a.mutable) :
    World.cells w' k = World.cells w k := by
  have heff := (step_sat hw a).ok h
  cases a with simp only [Action.mutable, List.mem_cons, not_or] at hk
  | initializeStablecoin ctx =>
      obtain ⟨M, c, heff⟩ := heff
      obtain ⟨-, hmint, hconfig, -⟩ := hk
      rw [heff.result, World.cells_setConfig hconfig, World.cells_setLedger]
      exact untouched_setMint hmint
  | grantMinter ctx =>
      obtain ⟨-, hrole, -⟩ := hk
      rw [heff, World.cells_setMinterRole hrole]
  | revokeMinter ctx =>
      obtain ⟨-, hrole, -⟩ := hk
      rw [heff, World.cells_setMinterRole hrole]
  | setWalletPolicy ctx =>
      obtain ⟨c, a, heff⟩ := heff
      obtain ⟨-, htoken, hpolicy, -⟩ := hk
      obtain ⟨_, hset⟩ := canSet_of_ok (mapError_ok_iff.mp h)
      rw [hset.walletPolicy_key] at hpolicy
      rw [heff.result, World.cells_setWalletPolicy hpolicy, World.cells_setLedger]
      exact untouched_setToken htoken
  | mintTo ctx =>
      obtain ⟨a, l, heff⟩ := heff
      obtain ⟨hmint, hconfig, hrole, hdestination, -⟩ := hk
      rw [heff.result, World.cells_setConfig hconfig, World.cells_setMinterRole hrole,
        World.cells_setLedger]
      exact heff.minted.untouched hmint hdestination
  | burn ctx =>
      obtain ⟨c, l, heff⟩ := heff
      obtain ⟨hmint, hconfig, hsource, -⟩ := hk
      rw [heff.result, World.cells_setConfig hconfig, World.cells_setLedger]
      exact heff.burned.untouched hmint hsource
  | setPause ctx =>
      obtain ⟨c, M, p, heff⟩ := heff
      obtain ⟨hmint, hconfig, -⟩ := hk
      rw [heff.result, World.cells_setConfig hconfig, World.cells_setLedger]
      exact untouched_setMint hmint
  | updateConfig ctx =>
      obtain ⟨c, heff⟩ := heff
      rw [heff.result, World.cells_setConfig hk.1]
  | acceptAdmin ctx =>
      obtain ⟨c, -, -, heff⟩ := heff
      rw [heff, World.cells_setConfig hk.1]
  | initializePool ctx feeBps =>
      obtain ⟨mA, mB, heff⟩ := heff
      obtain ⟨-, hpool, hvaultA, hvaultB, hlp, hlocked, -⟩ := hk
      have hp := initializePool_proper (mapError_ok_iff.mp h)
      rw [hp.vaultA_key] at hvaultA
      rw [hp.vaultB_key] at hvaultB
      rw [hp.lpMint_key] at hlp
      rw [hp.lockedLp_key] at hlocked
      rw [heff.result, World.cells_setPool hpool, World.cells_setLedger]
      exact ⟨openPool_mints_of_ne _ _ _ _ _ _ hlp,
        openPool_tokens_of_ne _ _ _ _ _ _ hvaultA hvaultB hlocked⟩
  | addLiquidity ctx =>
      obtain ⟨a, t, l₁, l₂, l₃, l₄, heff⟩ := heff
      obtain ⟨hpool, hvaultA, hvaultB, hlp, hlocked, huserA, huserB, huserLp, -⟩ := hk
      rw [heff.result, World.cells_setPool hpool, World.cells_setLedger]
      exact (heff.paidA.untouched huserA hvaultA).trans <|
        (heff.paidB.untouched huserB hvaultB).trans <|
        (heff.locked.untouched hlp hlocked).trans (heff.minted.untouched hlp huserLp)
  | removeLiquidity ctx =>
      obtain ⟨a, q, l₁, l₂, l₃, heff⟩ := heff
      obtain ⟨hpool, hvaultA, hvaultB, hlp, huserA, huserB, huserLp, -⟩ := hk
      rw [heff.result, World.cells_setPool hpool, World.cells_setLedger]
      exact (heff.burned.untouched hlp huserLp).trans <|
        (heff.paidA.untouched hvaultA huserA).trans (heff.paidB.untouched hvaultB huserB)
  | swap ctx =>
      obtain ⟨a, q, l₁, l₂, heff⟩ := heff
      obtain ⟨hpool, hvaultA, hvaultB, huserA, huserB, -⟩ := hk
      rw [heff.result, World.cells_setPool hpool, World.cells_setLedger]
      exact heff.untouched hvaultA hvaultB huserA huserB
  | createAccount account =>
      obtain ⟨M, -, -, -, heff⟩ := heff
      rw [heff, World.cells_setLedger]
      exact untouched_setToken hk.1
  | transfer c =>
      obtain ⟨l, -, t, heff⟩ := heff
      rw [heff, World.cells_setLedger]
      exact t.untouched hk.1 hk.2.1
  | burnDirect c =>
      obtain ⟨l, -, t, heff⟩ := heff
      rw [heff, World.cells_setLedger]
      exact t.untouched hk.2.1 hk.1
  | setOwner account =>
      obtain ⟨a, -, -, -, -, -, heff⟩ := heff
      rw [heff, World.cells_setLedger]
      exact untouched_setToken hk.1
  | closeAccount account =>
      obtain ⟨a, -, -, -, -, heff⟩ := heff
      rw [heff, World.cells_setLedger]
      exact ⟨rfl, Function.update_of_ne hk.1 ..⟩

end

end StablecoinAmm
