import StablecoinAmm.Chain.Custody
import StablecoinAmm.System.Books

/-!
# System — the chain refines its pools

Seen from one pool `p`, every successful step of the chain is a `PoolState.Step`: the pool's own
instructions are deposits, withdrawals and trades (`Action.eventOn`), and everything else is an
`outside` event, because it does not carry the signature of `p` and so spares its accounts
(`Effect.spares`).

With that the invariant is complete: `step_inv`, `World.Reachable.inv`.
-/

namespace StablecoinAmm
open Support Ledger

/-- What an action is to the pool `p`. -/
def Action.eventOn (p : Pubkey) : Action → PoolState.Event
  | .addLiquidity ctx .. => if ctx.pool = p then .deposit else .outside
  | .removeLiquidity ctx .. => if ctx.pool = p then .withdraw else .outside
  | .swap ctx .. => if ctx.pool = p then .trade else .outside
  | _ => .outside

section
variable {w w' : World} {p : Pubkey} {P : Pool}

/-! ### What happens elsewhere -/

theorem InitializePool.Effect.spares {ctx : InitializePool} {feeBps : ℕ} {mA mB : Mint}
    (h : ctx.Effect w feeBps mA mB w') :
    Spares p w.ledger (openPool w.ledger ctx.pool ctx.mintA ctx.mintB mA mB) where
  account k m := by
    rintro ⟨a, ha, hrest⟩
    have ha' := h.token_kept ha
    exact ⟨⟨a, ha', hrest⟩, by rw [balance_of ha, balance_of ha']⟩
  mint m M hM hauth := by
    have hM' := h.mint_kept hM
    exact ⟨M, hM', hauth, by rw [supply_of hM, supply_of hM']⟩

theorem LiquidityAccounts.Locked.spares {ctx : LiquidityAccounts} {n : ℕ} {l l' : Ledger}
    (h : ctx.Locked n l l') (hp : ctx.pool ≠ p) : Spares p l l' := by
  rcases h with ⟨-, rfl⟩ | h
  · exact .refl p _
  · exact .of_minted h hp

/-- A key that signs transactions is not a pool. -/
theorem World.Shape.signer_ne (hs : w.Shape) (hP : w.pools p = some P) {k : Pubkey}
    (hk : k.isSigner) : k ≠ p := by
  obtain ⟨n, rfl⟩ := Pubkey.isSigner_iff.mp hk
  rw [(hs.pool p P hP).placed.key]
  exact nofun

/-- Nor is a configuration. -/
theorem World.Shape.config_ne (hs : w.Shape) (hP : w.pools p = some P) (m : Pubkey) :
    .config m ≠ p := by
  rw [(hs.pool p P hP).placed.key]
  exact nofun

/-- **What is not an instruction of the pool does not carry its signature.** -/
theorem Action.Effect.spares (hs : w.Shape) (hP : w.pools p = some P) : ∀ {a : Action},
    a.Effect w w' → a.eventOn p = .outside → Spares p w.ledger w'.ledger
  | .initializeStablecoin .., ⟨_, _, h⟩, _ => by
      rw [h.result]
      refine Spares.setMint fun N hN => ?_
      cases h.mint_free.symm.trans hN
  | .grantMinter .., h, _ | .revokeMinter .., h, _ => by rw [h]; exact .refl p _
  | .acceptAdmin .., ⟨_, _, _, h⟩, _ => by rw [h]; exact .refl p _
  | .updateConfig .., ⟨_, h⟩, _ => by rw [h.result]; exact .refl p _
  | .setWalletPolicy .., ⟨_, _, h⟩, _ => by
      rw [h.result]; exact Spares.setToken h.account rfl rfl rfl
  | .setPause .., ⟨_, _, _, h⟩, _ => by
      rw [h.result]
      refine Spares.setMint fun N hN => ?_
      obtain rfl := Option.some.inj (h.mint.symm.trans hN)
      exact ⟨rfl, rfl⟩
  | .mintTo .., ⟨_, _, h⟩, _ => by
      rw [h.result]; exact Spares.of_minted h.minted (h.valid.config_key ▸ hs.config_ne hP _)
  | .burn .., ⟨_, _, h⟩, _ => by
      rw [h.result]; exact Spares.of_burned h.burned (hs.signer_ne hP h.signer)
  | .initializePool .., ⟨_, _, h⟩, _ => by
      rw [h.result]; exact h.spares
  | .addLiquidity ctx .., ⟨_, _, _, _, _, _, h⟩, he => by
      have hne : ctx.pool ≠ p := fun e => by simp [eventOn, e] at he
      have hu := hs.signer_ne hP h.valid.signer
      rw [h.result]
      exact (Spares.of_transferred h.paidA hu).trans ((Spares.of_transferred h.paidB hu).trans
        ((h.locked.spares hne).trans (Spares.of_minted h.minted hne)))
  | .removeLiquidity ctx .., ⟨_, _, _, _, _, h⟩, he => by
      have hne : ctx.pool ≠ p := fun e => by simp [eventOn, e] at he
      rw [h.result]
      exact (Spares.of_burned h.burned (hs.signer_ne hP h.valid.signer)).trans
        ((Spares.of_transferred h.paidA hne).trans (Spares.of_transferred h.paidB hne))
  | .swap ctx .., ⟨_, _, _, _, h⟩, he => by
      have hne : ctx.pool ≠ p := fun e => by simp [eventOn, e] at he
      rw [h.result]
      exact (Spares.of_transferred h.paidIn (hs.signer_ne hP h.valid.signer)).trans
        (Spares.of_transferred h.paidOut hne)
  | .createAccount .., ⟨_, _, _, hfree, h⟩, _ => by
      rw [h]
      refine .elsewhere (setToken_mints ..) (fun j hj => setToken_tokens_of_ne _ _ _ hj) ?_
      rintro m ⟨a, ha, -⟩
      cases hfree.symm.trans ha
  | .transfer .., ⟨_, ho, h, hw⟩, _ => by
      rw [hw]; exact Spares.of_transferred h (hs.signer_ne hP ho)
  | .burnDirect .., ⟨_, ho, h, hw⟩, _ => by
      rw [hw]; exact Spares.of_burned h (hs.signer_ne hP ho)
  | .setOwner .., ⟨_, ho, ha, _, hown, _, h⟩, _ => by
      rw [h]
      refine .elsewhere (setToken_mints ..) (fun j hj => setToken_tokens_of_ne _ _ _ hj) ?_
      exact fun m => hs.not_hasAccount_of_signer hP ha (hown ▸ ho)
  | .closeAccount .., ⟨_, ho, ha, _, hown, h⟩, _ => by
      rw [h]
      refine .elsewhere rfl (fun j hj => Function.update_of_ne hj ..) ?_
      exact fun m => hs.not_hasAccount_of_signer hP ha (hown ▸ ho)

/-- A write to another pool leaves this one. -/
theorem World.setPool_kept {w₁ : World} {k : Pubkey} {P' : Pool} (hw₁ : w₁.pools = w.pools)
    (hne : k ≠ p) (hP : w.pools p = some P) : (w₁.setPool k P').pools p = some P := by
  rw [setPool_pools_of_ne _ _ _ hne.symm, hw₁, hP]

theorem Action.Effect.pool_kept (hP : w.pools p = some P) : ∀ {a : Action}, a.Effect w w' →
    a.eventOn p = .outside → w'.pools p = some P
  | .initializeStablecoin .., ⟨_, _, h⟩, _ => by rw [h.result]; exact hP
  | .grantMinter .., h, _ | .revokeMinter .., h, _ => by rw [h]; exact hP
  | .acceptAdmin .., ⟨_, _, _, h⟩, _ => by rw [h]; exact hP
  | .updateConfig .., ⟨_, h⟩, _ => by rw [h.result]; exact hP
  | .setWalletPolicy .., ⟨_, _, h⟩, _ => by rw [h.result]; exact hP
  | .setPause .., ⟨_, _, _, h⟩, _ => by rw [h.result]; exact hP
  | .mintTo .., ⟨_, _, h⟩, _ => by rw [h.result]; exact hP
  | .burn .., ⟨_, _, h⟩, _ => by rw [h.result]; exact hP
  | .initializePool ctx _, ⟨_, _, h⟩, _ => by
      have hne : ctx.pool ≠ p := fun e => by cases (e ▸ h.pool_free).symm.trans hP
      rw [h.result]; exact World.setPool_kept rfl hne hP
  | .addLiquidity ctx .., ⟨_, _, _, _, _, _, h⟩, he => by
      have hne : ctx.pool ≠ p := fun e => by simp [eventOn, e] at he
      rw [h.result]; exact World.setPool_kept rfl hne hP
  | .removeLiquidity ctx .., ⟨_, _, _, _, _, h⟩, he => by
      have hne : ctx.pool ≠ p := fun e => by simp [eventOn, e] at he
      rw [h.result]; exact World.setPool_kept rfl hne hP
  | .swap ctx .., ⟨_, _, _, _, h⟩, he => by
      have hne : ctx.pool ≠ p := fun e => by simp [eventOn, e] at he
      rw [h.result]; exact World.setPool_kept rfl hne hP
  | .createAccount .., ⟨_, _, _, _, h⟩, _ => by rw [h]; exact hP
  | .transfer .., ⟨_, _, _, h⟩, _ => by rw [h]; exact hP
  | .burnDirect .., ⟨_, _, _, h⟩, _ => by rw [h]; exact hP
  | .setOwner .., ⟨_, _, _, _, _, _, h⟩, _ => by rw [h]; exact hP
  | .closeAccount .., ⟨_, _, _, _, _, h⟩, _ => by rw [h]; exact hP

/-! ### The simulation -/

theorem Action.Effect.outside (hs : w.Shape) (hc : w'.ledger.Conserved)
    (hP : w.pools p = some P) {a : Action} (h : a.Effect w w') (he : a.eventOn p = .outside) :
    PoolState.Step .outside (P.state w.ledger) (P.state w'.ledger) := by
  have hsp := h.spares hs hP he
  have hsh := hs.pool p P hP
  obtain ⟨M, hM, hMs⟩ := hsh.lpMint
  obtain ⟨-, -, -, hL⟩ := hsp.mint _ M hM hMs.mintAuthority
  obtain ⟨hk, hK⟩ := hsp.account _ _ hsh.lockedLp
  exact .outside rfl rfl hL hK (hc.balance_le hk) (hsp.account _ _ hsh.vaultA).2
    (hsp.account _ _ hsh.vaultB).2

/-- **Every step of the chain is a step of every pool.** -/
theorem Action.Effect.refines (hs : w.Shape) (hc : w'.ledger.Conserved)
    (hP : w.pools p = some P) {a : Action} (h : a.Effect w w') :
    ∃ P', w'.pools p = some P' ∧ P'.erase = P.erase ∧
      PoolState.Step (a.eventOn p) (P.state w.ledger) (P'.state w'.ledger) := by
  by_cases he : a.eventOn p = .outside
  · exact ⟨P, h.pool_kept hP he, rfl, he ▸ h.outside hs hc hP he⟩
  · cases a with
    | addLiquidity ctx =>
        obtain ⟨a, t, l₁, l₂, l₃, l₄, h⟩ := h
        have hp : ctx.pool = p := by by_contra hne; simp [eventOn, hne] at he
        subst hp
        obtain rfl := Option.some.inj (hP.symm.trans h.valid.pool)
        rw [h.result, eventOn, if_pos rfl]
        exact ⟨_, World.setPool_pools_self .., rfl, h.step⟩
    | removeLiquidity ctx =>
        obtain ⟨a, q, l₁, l₂, l₃, h⟩ := h
        have hp : ctx.pool = p := by by_contra hne; simp [eventOn, hne] at he
        subst hp
        obtain rfl := Option.some.inj (hP.symm.trans h.valid.pool)
        rw [h.result, eventOn, if_pos rfl]
        exact ⟨_, World.setPool_pools_self .., rfl, h.step⟩
    | swap ctx =>
        obtain ⟨a, q, l₁, l₂, h⟩ := h
        have hp : ctx.pool = p := by by_contra hne; simp [eventOn, hne] at he
        subst hp
        obtain rfl := Option.some.inj (hP.symm.trans h.valid.pool)
        rw [h.result, eventOn, if_pos rfl]
        exact ⟨_, World.setPool_pools_self .., Pool.erase_afterSwap .., h.step⟩
    | _ => exact absurd rfl he

/-- A write to a pool creates no other. -/
theorem World.not_new_pool {w₁ : World} {k : Pubkey} {P₁ P₂ P' : Pool}
    (hw₁ : w₁.pools = w.pools) (hk : w.pools k = some P₁) (hp : w.pools p = none) :
    (w₁.setPool k P₂).pools p ≠ some P' := by
  intro hP'
  have hne : p ≠ k := by
    rintro rfl
    cases hp.symm.trans hk
  rw [setPool_pools_of_ne _ _ _ hne, hw₁, hp] at hP'
  cases hP'

/-- **Only `initialize_pool` creates a pool**, an empty one. -/
theorem Action.Effect.pool_new {P' : Pool} (hp : w.pools p = none) (hP' : w'.pools p = some P') :
    ∀ {a : Action}, a.Effect w w' → (P'.state w'.ledger).Unseeded
  | .initializePool ctx _, ⟨_, _, h⟩ => by
      rw [h.result] at hP' ⊢
      by_cases hk : p = ctx.pool
      · subst hk
        obtain rfl := Option.some.inj ((World.setPool_pools_self ..).symm.trans hP')
        exact ⟨rfl, rfl, supply_of (openPool_lpMint ..), balance_of (openPool_lockedLp ..)⟩
      · cases hp.symm.trans ((World.setPool_pools_of_ne _ _ _ hk).symm.trans hP')
  | .addLiquidity .., ⟨_, _, _, _, _, _, h⟩ => by
      rw [h.result] at hP'; exact absurd hP' (World.not_new_pool rfl h.valid.pool hp)
  | .removeLiquidity .., ⟨_, _, _, _, _, h⟩ => by
      rw [h.result] at hP'; exact absurd hP' (World.not_new_pool rfl h.valid.pool hp)
  | .swap .., ⟨_, _, _, _, h⟩ => by
      rw [h.result] at hP'; exact absurd hP' (World.not_new_pool rfl h.valid.pool hp)
  | .initializeStablecoin .., ⟨_, _, h⟩ => by rw [h.result] at hP'; cases hp.symm.trans hP'
  | .grantMinter .., h | .revokeMinter .., h => by rw [h] at hP'; cases hp.symm.trans hP'
  | .acceptAdmin .., ⟨_, _, _, h⟩ => by rw [h] at hP'; cases hp.symm.trans hP'
  | .updateConfig .., ⟨_, h⟩ => by rw [h.result] at hP'; cases hp.symm.trans hP'
  | .setWalletPolicy .., ⟨_, _, h⟩ => by rw [h.result] at hP'; cases hp.symm.trans hP'
  | .setPause .., ⟨_, _, _, h⟩ => by rw [h.result] at hP'; cases hp.symm.trans hP'
  | .mintTo .., ⟨_, _, h⟩ => by rw [h.result] at hP'; cases hp.symm.trans hP'
  | .burn .., ⟨_, _, h⟩ => by rw [h.result] at hP'; cases hp.symm.trans hP'
  | .createAccount .., ⟨_, _, _, _, h⟩ => by rw [h] at hP'; cases hp.symm.trans hP'
  | .transfer .., ⟨_, _, _, h⟩ => by rw [h] at hP'; cases hp.symm.trans hP'
  | .burnDirect .., ⟨_, _, _, h⟩ => by rw [h] at hP'; cases hp.symm.trans hP'
  | .setOwner .., ⟨_, _, _, _, _, _, h⟩ => by rw [h] at hP'; cases hp.symm.trans hP'
  | .closeAccount .., ⟨_, _, _, _, _, h⟩ => by rw [h] at hP'; cases hp.symm.trans hP'

theorem Action.Effect.pools (hw : w.Inv) (hc : w'.ledger.Conserved) {a : Action}
    (h : a.Effect w w') : w'.PoolsValid := by
  intro p P' hP'
  rcases hP : w.pools p with _ | P
  · exact .inl (h.pool_new hP hP')
  · obtain ⟨P'', hP'', -, hstep⟩ := h.refines hw.shape hc hP
    obtain rfl := Option.some.inj (hP''.symm.trans hP')
    exact hstep.valid (hw.pools p P hP)

/-! ### Steps and runs -/

/-- **A step keeps the invariant.** -/
theorem Action.Effect.inv (hw : w.Inv) {a : Action} (h : a.Effect w w') : w'.Inv := by
  have hc := h.honest.conserved hw.conserved
  exact ⟨h.shape hw.shape, hc, h.accounted hw, h.pools hw hc⟩

theorem step_effect (hw : w.Inv) {a : Action} (h : step w a = .ok w') : a.Effect w w' :=
  (step_sat hw a).ok h

theorem step_inv (w : World) (a : Action) (w' : World) (hw : w.Inv) (h : step w a = .ok w') :
    w'.Inv :=
  (step_effect hw h).inv hw

theorem inv_genesis (addressBytes : Pubkey → List UInt8) : (World.genesis addressBytes).Inv where
  shape := World.shape_genesis addressBytes
  conserved := Conserved.empty
  accounted _ _ h := nomatch h
  pools _ _ h := nomatch h

/-- **Every reachable world is in order.** -/
theorem World.Reachable.inv (h : w.Reachable) : w.Inv := by
  refine Reachable.invariant ?_ step_inv h
  rintro _ ⟨addressBytes, rfl⟩
  exact inv_genesis addressBytes

/-- **Every run of the chain is a run of every pool.** -/
theorem run_refines {as : List Action} (hw : w.Inv) (hP : w.pools p = some P)
    (t : Run step w as w') :
    ∃ P', w'.pools p = some P' ∧ P'.erase = P.erase ∧
      PoolState.Steps (as.map (·.eventOn p)) (P.state w.ledger) (P'.state w'.ledger) := by
  induction t generalizing P with
  | refl => exact ⟨P, hP, rfl, .refl _⟩
  | more h _ ih =>
      have heff := step_effect hw h
      obtain ⟨P₁, hP₁, he₁, hs⟩ := heff.refines hw.shape (heff.inv hw).conserved hP
      obtain ⟨P', hP', he, hss⟩ := ih (heff.inv hw) hP₁
      exact ⟨P', hP', he.trans he₁, .more hs hss⟩

end

end StablecoinAmm
