import StablecoinAmm.Compliance.Accounts

/-!
# Pools — what a vault holds beyond the reserve

Tokens sent to a vault from outside the AMM stay there: no instruction of the pool books them
(`PoolState.Step.surplus`) and no one else can take them (`Effect.gains`).  So the surplus of a
vault grows by just what an action sends to it (`Effect.surplus`), and over a run from genesis
it is everything that was ever sent (`run_surplus`).

The sum is over the whole run, the time before the pool was created included: an address of a
vault has no account before that, and so received nothing (`VaultsHeld`).
-/

namespace StablecoinAmm
open Support Ledger

/-- What an action sends to the account at `k` from outside the AMM. -/
def Action.donated (k : Pubkey) : Action → ℕ
  | .transfer c amount _ => if k = c.destination then amount else 0
  | .mintTo ctx amount => if k = ctx.destination then amount else 0
  | _ => 0

/-- The reserve a pool books for the vault `k`. -/
def Pool.booked (P : Pool) (k : Pubkey) : ℕ :=
  if k = P.vaultA then P.reserveA else if k = P.vaultB then P.reserveB else 0

/-- What the vault `k` of the pool `p` holds beyond what is booked for it. -/
def World.surplus (w : World) (p k : Pubkey) : ℕ :=
  w.ledger.balance k - (w.pools p).elim 0 (·.booked k)

/-- The accounts at the addresses of vaults are the vaults of pools. -/
def World.VaultsHeld (w : World) : Prop :=
  ∀ p m a, w.ledger.tokens (.vault p m) = some a →
    ∃ P, w.pools p = some P ∧ (P.vaultA = .vault p m ∨ P.vaultB = .vault p m)

section
variable {w w' : World} {p : Pubkey} {P : Pool}

/-! ### The addresses of vaults -/

theorem Pool.vaults_of_erase {P P' : Pool} (h : P'.erase = P.erase) :
    P'.vaultA = P.vaultA ∧ P'.vaultB = P.vaultB := by
  cases P; cases P'
  simp only [erase, Pool.mk.injEq] at h
  exact ⟨h.2.2.1, h.2.2.2.1⟩

/-- **Only `initialize_pool` creates an account where a vault belongs.** -/
theorem Action.Effect.vaultsHeld (hw : w.Inv) (hV : w.VaultsHeld) {a : Action}
    (h : a.Effect w w') : w'.VaultsHeld := by
  intro p m b' hb'
  rcases hb : w.ledger.tokens (.vault p m) with _ | b
  · cases h.accountStep hw.shape (.vault p m) with
    | kept _ ht =>
        obtain ⟨b, hb₀, -⟩ := token_of_erase ht hb'
        cases hb.symm.trans hb₀
    | vetted _ hb₀ | handed _ hb₀ | closed _ hb₀ => cases hb.symm.trans hb₀
    | created hk => cases hk
    | @opened ctx =>
        obtain ⟨mA, mB, h⟩ := h
        rw [h.result] at hb' ⊢
        -- one of the two vaults just created, or a vault that was there
        by_cases hA : Pubkey.vault p m = .vault ctx.pool ctx.mintA
        · obtain ⟨rfl, rfl⟩ := Pubkey.vault.inj hA
          exact ⟨_, World.setPool_pools_self .., .inl rfl⟩
        by_cases hB : Pubkey.vault p m = .vault ctx.pool ctx.mintB
        · obtain ⟨rfl, rfl⟩ := Pubkey.vault.inj hB
          exact ⟨_, World.setPool_pools_self .., .inr rfl⟩
        have hold : w.ledger.tokens (.vault p m) = some b' :=
          (openPool_tokens_of_ne _ _ _ _ _ _ hA hB nofun).symm.trans hb'
        cases hb.symm.trans hold
  · obtain ⟨P, hP, hv⟩ := hV p m b hb
    obtain ⟨P', hP', he, -⟩ := h.refines hw.shape (h.inv hw).conserved hP
    obtain ⟨hA, hB⟩ := Pool.vaults_of_erase he
    exact ⟨P', hP', by rwa [hA, hB]⟩

theorem World.Reachable.vaultsHeld (hw : w.Reachable) : w.VaultsHeld := by
  refine (Reachable.invariant (I := fun w => w.Inv ∧ w.VaultsHeld) ?_ ?_ hw).2
  · rintro _ ⟨addressBytes, rfl⟩
    exact ⟨inv_genesis addressBytes, fun _ _ _ h => nomatch h⟩
  · rintro w a w' ⟨hw, hV⟩ h
    have heff := step_effect hw h
    exact ⟨heff.inv hw, heff.vaultsHeld hw hV⟩

/-! ### What an action sends -/

/-- Nothing is sent where there is no account. -/
theorem Action.Effect.donated_eq_zero {k : Pubkey} (hk : w.ledger.tokens k = none) :
    ∀ {a : Action}, a.Effect w w' → a.donated k = 0
  | .transfer c .., ⟨_, _, h, _⟩ => by
      obtain ⟨b, hb, -⟩ := h.destination
      refine if_neg ?_
      rintro rfl
      cases hk.symm.trans hb
  | .mintTo ctx _, ⟨_, _, h⟩ => by
      obtain ⟨b, hb, -⟩ := h.minted.destination
      refine if_neg ?_
      rintro rfl
      cases hk.symm.trans hb
  | .initializeStablecoin .., _ | .grantMinter .., _ | .revokeMinter .., _
  | .setWalletPolicy .., _ | .burn .., _ | .setPause .., _ | .updateConfig .., _
  | .acceptAdmin .., _ | .initializePool .., _ | .addLiquidity .., _ | .removeLiquidity .., _
  | .swap .., _ | .createAccount .., _ | .burnDirect .., _ | .setOwner .., _
  | .closeAccount .., _ => rfl

/-- The pool's own instructions send nothing from outside. -/
theorem Action.donated_of_eventOn {a : Action} (h : a.eventOn p ≠ .outside) (k : Pubkey) :
    a.donated k = 0 := by
  cases a with
  | addLiquidity | removeLiquidity | swap => rfl
  | _ => exact absurd rfl h

/-- Another pool's instruction moves tokens between accounts that are none of `p`'s. -/
theorem PoolAccounts.Valid.foreign {ctx : PoolAccounts} {a : PoolAccounts.Loaded}
    (hv : ctx.Valid w a) (hs : w.Shape) {k m : Pubkey} (hk : w.ledger.HasAccount k m p)
    (hu : ctx.user ≠ p) (hp : ctx.pool ≠ p) :
    k ≠ ctx.userA ∧ k ≠ ctx.userB ∧ k ≠ ctx.vaultA ∧ k ≠ ctx.vaultB := by
  have hsh := hs.pool _ _ hv.pool
  refine ⟨?_, ?_, ?_, ?_⟩
  · exact hk.ne_of_owner hv.userA hu.symm
  · exact hk.ne_of_owner hv.userB hu.symm
  · exact hv.vaultA_eq ▸ hk.ne_of_owner hsh.vaultA hp.symm
  · exact hv.vaultB_eq ▸ hk.ne_of_owner hsh.vaultB hp.symm

/-- **From outside, the accounts of a pool gain what is sent to them**, and lose nothing. -/
theorem Action.Effect.gains (hs : w.Shape) (hP : w.pools p = some P) {k m : Pubkey}
    (hk : w.ledger.HasAccount k m p) : ∀ {a : Action}, a.Effect w w' → a.eventOn p = .outside →
      w'.ledger.balance k = w.ledger.balance k + a.donated k
  | .initializeStablecoin .., ⟨_, _, h⟩, _ => by rw [h.result]; rfl
  | .grantMinter .., h, _ | .revokeMinter .., h, _ => by rw [h]; rfl
  | .acceptAdmin .., ⟨_, _, _, h⟩, _ => by rw [h]; rfl
  | .updateConfig .., ⟨_, h⟩, _ => by rw [h.result]; rfl
  | .setWalletPolicy .., ⟨_, _, h⟩, _ => by
      rw [h.result]
      refine (Settled.balance ?_ k).trans (Nat.add_zero _).symm
      exact settled_setToken h.account rfl rfl
  | .setPause .., ⟨_, _, _, h⟩, _ => by rw [h.result]; rfl
  | .mintTo .., ⟨_, _, h⟩, _ => by rw [h.result]; exact h.minted.balances k
  | .burn .., ⟨_, _, h⟩, _ => by
      obtain ⟨b, hb, -, -, ho⟩ := h.burned.source
      rw [h.result]
      exact h.burned.elsewhere (hk.ne_of_owner ⟨b, hb, rfl, ho⟩ (hs.signer_ne hP h.signer).symm)
  | .initializePool .., ⟨_, _, h⟩, _ => by
      obtain ⟨b, hb, -⟩ := hk
      rw [h.result]
      exact (balance_of (h.token_kept hb)).trans (balance_of hb).symm
  | .addLiquidity ctx .., ⟨_, _, _, _, _, _, h⟩, he => by
      have hne : ctx.pool ≠ p := fun e => by simp [eventOn, e] at he
      have hu := hs.signer_ne hP h.valid.signer
      obtain ⟨huA, huB, hvA, hvB⟩ := h.valid.foreign hs hk hu hne
      have hlk : k ≠ ctx.lockedLp :=
        h.valid.lockedLp_eq ▸ hk.ne_of_owner (hs.pool _ _ h.valid.pool).lockedLp hne.symm
      rw [h.result]
      refine (h.minted.elsewhere (hk.ne_of_owner h.valid.userLp hu.symm)).trans ?_
      rw [h.locked.balances, if_neg hlk, h.paidB.elsewhere huB hvB, h.paidA.elsewhere huA hvA]
      rfl
  | .removeLiquidity ctx .., ⟨_, _, _, _, _, h⟩, he => by
      have hne : ctx.pool ≠ p := fun e => by simp [eventOn, e] at he
      have hu := hs.signer_ne hP h.valid.signer
      obtain ⟨huA, huB, hvA, hvB⟩ := h.valid.foreign hs hk hu hne
      rw [h.result]
      refine (h.paidB.elsewhere hvB huB).trans ((h.paidA.elsewhere hvA huA).trans ?_)
      exact h.burned.elsewhere (hk.ne_of_owner h.valid.userLp hu.symm)
  | .swap ctx d _ _, ⟨_, _, _, _, h⟩, he => by
      have hne : ctx.pool ≠ p := fun e => by simp [eventOn, e] at he
      obtain ⟨huA, huB, hvA, hvB⟩ := h.valid.foreign hs hk (hs.signer_ne hP h.valid.signer) hne
      rw [h.result]
      cases d with
      | aToB => exact (h.paidOut.elsewhere hvB huB).trans (h.paidIn.elsewhere huA hvA)
      | bToA => exact (h.paidOut.elsewhere hvA huA).trans (h.paidIn.elsewhere huB hvB)
  | .createAccount account .., ⟨_, _, _, hfree, h⟩, _ => by
      rw [h]; exact (settled_create hfree rfl).balance k
  | .transfer c .., ⟨_, ho, h, hw⟩, _ => by
      obtain ⟨b, hb, -, -, hbo⟩ := h.source
      have hne : k ≠ c.source := hk.ne_of_owner ⟨b, hb, rfl, hbo⟩ (hs.signer_ne hP ho).symm
      have hbal := h.balances k
      rw [if_neg hne] at hbal
      rw [hw]
      exact hbal
  | .burnDirect .., ⟨_, ho, h, hw⟩, _ => by
      obtain ⟨b, hb, -, -, hbo⟩ := h.source
      rw [hw]
      exact h.elsewhere (hk.ne_of_owner ⟨b, hb, rfl, hbo⟩ (hs.signer_ne hP ho).symm)
  | .setOwner .., ⟨_, _, ha, _, _, _, h⟩, _ => by
      rw [h]
      refine (Settled.balance ?_ k).trans (Nat.add_zero _).symm
      exact settled_setToken ha rfl rfl
  | .closeAccount .., ⟨_, _, ha, hn, _, h⟩, _ => by
      rw [h]; exact (settled_close ha hn).balance k

/-! ### The surplus -/

theorem Ledger.Honest.balance_of_none {l l' : Ledger} (h : Honest l l') {k : Pubkey}
    (hk : l.tokens k = none) : l'.balance k = 0 := by
  rcases hk' : l'.tokens k with _ | b
  · rw [Ledger.balance, hk']; rfl
  · have hbal : l'.balanceOf b.mint k = l.balanceOf b.mint k := by
      by_contra hne
      obtain ⟨a, ha, -⟩ := h.balanceOf _ _ hne
      cases hk.symm.trans ha
    rw [← balanceOf_of hk' rfl, hbal]
    exact share_none hk

theorem Pool.Placed.vaults_ne (h : P.Placed p) : P.vaultB ≠ P.vaultA := by
  rw [h.vaultA, h.vaultB]
  exact fun e => h.mints_ne (Pubkey.vault.inj e).2.symm

theorem Pool.booked_vaultA (P : Pool) : P.booked P.vaultA = P.reserveA := if_pos rfl

theorem Pool.booked_vaultB (h : P.Placed p) : P.booked P.vaultB = P.reserveB := by
  rw [booked, if_neg h.vaults_ne, if_pos rfl]

/-- Where no account is, nothing is booked in excess. -/
theorem World.surplus_of_none {k : Pubkey} (hk : w.ledger.balance k = 0) : w.surplus p k = 0 := by
  rw [surplus, hk, Nat.zero_sub]

/-- An instruction of the pool leaves the surplus of its vaults. -/
theorem Action.Effect.surplus_own (hw : w.Inv) (hP : w.pools p = some P) {a : Action}
    (h : a.Effect w w') (he : a.eventOn p ≠ .outside) :
    w'.surplus p P.vaultA = w.surplus p P.vaultA ∧ w'.surplus p P.vaultB = w.surplus p P.vaultB := by
  have hplaced := (hw.shape.pool p P hP).placed
  obtain ⟨P', hP', herase, hstep⟩ := h.refines hw.shape (h.inv hw).conserved hP
  obtain ⟨hA, hB⟩ := hstep.surplus (hw.pools p P hP) he
  have hplaced' := ((h.inv hw).shape.pool p P' hP').placed
  obtain ⟨hvA, hvB⟩ := Pool.vaults_of_erase herase
  simp only [Pool.state, hvA, hvB] at hA hB
  constructor
  · rw [World.surplus, World.surplus, hP, hP', Option.elim_some, Option.elim_some, ← hvA,
      P'.booked_vaultA, hvA, P.booked_vaultA]
    omega
  · rw [World.surplus, World.surplus, hP, hP', Option.elim_some, Option.elim_some, ← hvB,
      Pool.booked_vaultB hplaced', hvB, Pool.booked_vaultB hplaced]
    omega

/-- **The surplus of a vault grows by what is sent to it.** -/
theorem Action.Effect.surplus (hw : w.Inv) (hV : w.VaultsHeld) (m : Pubkey) {a : Action}
    (h : a.Effect w w') :
    w'.surplus p (.vault p m) = w.surplus p (.vault p m) + a.donated (.vault p m) := by
  rcases hb : w.ledger.tokens (.vault p m) with _ | b
  · rw [World.surplus_of_none (h.honest.balance_of_none hb), h.donated_eq_zero hb,
      World.surplus_of_none (Honest.balance_of_none (Settled.refl _).honest hb)]
  · obtain ⟨P, hP, hv⟩ := hV p m b hb
    have hsh := hw.shape.pool p P hP
    by_cases he : a.eventOn p = .outside
    · have hk : ∃ n, w.ledger.HasAccount (.vault p m) n p := by
        rcases hv with hv | hv
        · exact ⟨_, hv ▸ hsh.vaultA⟩
        · exact ⟨_, hv ▸ hsh.vaultB⟩
      obtain ⟨n, hk⟩ := hk
      have hle : P.booked (.vault p m) ≤ w.ledger.balance (.vault p m) := by
        have hvaults := (hw.pools p P hP).vaults
        rcases hv with hv | hv
        · rw [← hv, P.booked_vaultA]; exact hvaults.1
        · rw [← hv, Pool.booked_vaultB hsh.placed]; exact hvaults.2
      rw [World.surplus, World.surplus, h.pool_kept hP he, hP, h.gains hw.shape hP hk he]
      exact Nat.sub_add_comm hle
    · obtain ⟨hA, hB⟩ := h.surplus_own hw hP he
      rw [Action.donated_of_eventOn he, Nat.add_zero]
      rcases hv with hv | hv
      · rw [← hv]; exact hA
      · rw [← hv]; exact hB

/-- And over a run by everything that is sent. -/
theorem run_surplus {as : List Action} (hw : w.Reachable) (t : Run step w as w') (m : Pubkey) :
    w'.surplus p (.vault p m) =
      w.surplus p (.vault p m) + (as.map (·.donated (.vault p m))).sum := by
  refine t.tally (I := World.Reachable) (q := fun w => w.surplus p (.vault p m))
    (fun _ _ _ hw h => hw.run (.one h)) (fun w a w' hw h => ?_) hw
  exact (step_effect hw.inv h).surplus hw.inv hw.vaultsHeld m

/-- The surplus of the two vaults, in the pool's own terms. -/
theorem World.Inv.surplus_eq (hw : w.Inv) (hP : w.pools p = some P) :
    w.ledger.balance P.vaultA = P.reserveA + w.surplus p P.vaultA ∧
      w.ledger.balance P.vaultB = P.reserveB + w.surplus p P.vaultB := by
  obtain ⟨hA, hB⟩ := (hw.pools p P hP).vaults
  have hplaced := (hw.shape.pool p P hP).placed
  constructor
  · rw [World.surplus, hP, Option.elim_some, P.booked_vaultA]
    exact (Nat.add_sub_cancel' hA).symm
  · rw [World.surplus, hP, Option.elim_some, Pool.booked_vaultB hplaced]
    exact (Nat.add_sub_cancel' hB).symm

end

end StablecoinAmm
