import StablecoinAmm.Compliance.Accounts

/-!
# Funding — which derived addresses are in use

Every derived address holds one kind of account, and an account stands there from the
instruction that creates it until, for minter roles alone, the one that closes it:
`Action.Effect.inUse` says for each action which addresses it takes and gives back.  The vaults
and the locked account of a pool are never there before it (`World.Rooted`), so a pool that can
be created finds all its addresses free.
-/

namespace StablecoinAmm
open Support Ledger

/-- Whether the account that the seeds of an address are for exists. -/
def World.inUse (w : World) (k : Pubkey) : Bool :=
  match k with
  | .default | .external _ => false
  | .config _ => (w.configs k).isSome
  | .minterRole .. => (w.minterRoles k).isSome
  | .walletPolicy .. => (w.walletPolicies k).isSome
  | .pool .. => (w.pools k).isSome
  | .mint _ | .lpMint _ => (w.ledger.mints k).isSome
  | .vault .. | .lockedLp _ => (w.ledger.tokens k).isSome

theorem World.not_isSigner_of_inUse {w : World} {k : Pubkey} (h : w.inUse k = true) :
    ¬ k.isSigner := by
  intro hk
  obtain ⟨n, rfl⟩ := Pubkey.isSigner_iff.mp hk
  cases h

/-- The derived addresses an action takes. -/
def Action.opened : Action → List Pubkey
  | .initializeStablecoin ctx .. => [ctx.config, ctx.mint]
  | .grantMinter ctx _ => [ctx.minterRole]
  | .setWalletPolicy ctx .. => [.walletPolicy ctx.mint ctx.tokenAccount]
  | .initializePool ctx _ =>
      [ctx.pool, .vault ctx.pool ctx.mintA, .vault ctx.pool ctx.mintB, .lpMint ctx.pool,
        .lockedLp ctx.pool]
  | _ => []

/-- And those it gives back. -/
def Action.closed : Action → List Pubkey
  | .revokeMinter ctx => [ctx.minterRole]
  | _ => []

/-! ### One write -/

section
variable (w : World) (k : Pubkey)

theorem isSome_update {α : Type} (f : Pubkey → Option α) (j k : Pubkey) (a : α) :
    (Function.update f j (some a) k).isSome = (decide (k = j) || (f k).isSome) := by
  by_cases h : k = j
  · subst h
    simp
  · simp [h]

theorem inUse_setConfig (m : Pubkey) (c : MintConfig) :
    (w.setConfig (.config m) c).inUse k = (decide (k = .config m) || w.inUse k) := by
  cases k <;> simp [World.inUse, World.setConfig, isSome_update]

theorem inUse_setMinterRole (c j : Pubkey) (r : MinterRole) :
    (w.setMinterRole (.minterRole c j) (some r)).inUse k =
      (decide (k = .minterRole c j) || w.inUse k) := by
  cases k <;> simp [World.inUse, World.setMinterRole, isSome_update]

theorem inUse_closeMinterRole (c j : Pubkey) :
    (w.setMinterRole (.minterRole c j) none).inUse k =
      (w.inUse k && !decide (k = .minterRole c j)) := by
  cases k with
  | minterRole c' j' =>
      by_cases h : Pubkey.minterRole c' j' = .minterRole c j
      · simp [World.inUse, World.setMinterRole, h]
      · simp [World.inUse, World.setMinterRole, h]
  | _ => simp [World.inUse, World.setMinterRole]

theorem inUse_setWalletPolicy (m j : Pubkey) (p : WalletPolicy) :
    (w.setWalletPolicy (.walletPolicy m j) p).inUse k =
      (decide (k = .walletPolicy m j) || w.inUse k) := by
  cases k <;> simp [World.inUse, World.setWalletPolicy, isSome_update]

theorem inUse_setPool (kA kB : Pubkey) (P : Pool) :
    (w.setPool (.pool kA kB) P).inUse k = (decide (k = .pool kA kB) || w.inUse k) := by
  cases k <;> simp [World.inUse, World.setPool, isSome_update]

variable {w k}

/-- A ledger with the same mints, and the same accounts at derived addresses. -/
theorem inUse_of_ledger {l : Ledger} (hm : ∀ j, (l.mints j).isSome = (w.ledger.mints j).isSome)
    (ht : ∀ j, ¬ j.isSigner → (l.tokens j).isSome = (w.ledger.tokens j).isSome) :
    ({ w with ledger := l } : World).inUse k = w.inUse k := by
  cases k with
  | mint | lpMint => exact hm _
  | vault | lockedLp => exact ht _ nofun
  | _ => rfl

theorem isSome_of_map_eq {α β : Type} {f : α → β} {o o' : Option α} (h : o'.map f = o.map f) :
    o'.isSome = o.isSome := by
  rw [← Option.isSome_map (f := f), h, Option.isSome_map]

/-- Writing an account that is there takes no address. -/
theorem inUse_rewrite {j : Pubkey} (h : w.inUse j = true) :
    (decide (k = j) || w.inUse k) = w.inUse k := by
  by_cases hk : k = j
  · subst hk
    simp [h]
  · simp [hk]

/-- The same configurations and pools, as far as they exist. -/
theorem inUse_of_framed {w' : World} (h : w.Framed w')
    (hr : ∀ j, (w'.minterRoles j).isSome = (w.minterRoles j).isSome) :
    w'.inUse k = w.inUse k := by
  cases k with
  | mint | lpMint => exact isSome_of_map_eq (congrFun (congrArg Ledger.mints h.ledger) _)
  | vault | lockedLp => exact isSome_of_map_eq (congrFun (congrArg Ledger.tokens h.ledger) _)
  | config => exact isSome_of_map_eq (h.configs _)
  | pool => exact isSome_of_map_eq (h.pools _)
  | minterRole => exact hr _
  | walletPolicy => exact congrArg Option.isSome (congrFun h.walletPolicies _)
  | _ => rfl

/-! ### One step -/

variable {w' : World}

theorem inUse_config {j : Pubkey} {c : MintConfig} (h : w.configs (.config j) = some c) :
    w.inUse (.config j) = true := by rw [World.inUse, h]; rfl

theorem initializeStablecoin_inUse {ctx : InitializeStablecoin} {symbol : Symbol} {supplyCap : ℕ}
    {M : Mint} {c : MintConfig} (h : ctx.Effect w symbol supplyCap M c w') :
    w'.inUse k = (decide (k ∈ [ctx.config, ctx.mint]) || w.inUse k) := by
  rw [h.result, h.config_key, inUse_setConfig]
  simp only [List.mem_cons, List.not_mem_nil, or_false, Bool.decide_or, Bool.or_assoc]
  congr 1
  rw [h.mint_key]
  cases k with
  | mint | lpMint => simp [World.inUse, setMint, isSome_update]
  | _ => simp [World.inUse, setMint]

theorem initializePool_inUse {ctx : InitializePool} {feeBps : ℕ} {mA mB : Mint}
    (h : ctx.Effect w feeBps mA mB w') :
    w'.inUse k = (decide (k ∈ [ctx.pool, .vault ctx.pool ctx.mintA, .vault ctx.pool ctx.mintB,
      .lpMint ctx.pool, .lockedLp ctx.pool]) || w.inUse k) := by
  rw [h.result, h.pool_key, inUse_setPool]
  simp only [List.mem_cons, List.not_mem_nil, or_false, Bool.decide_or, Bool.or_assoc]
  congr 1
  cases k with
  | vault | lockedLp =>
      simp [World.inUse, openPool, setMint, setToken, isSome_update, Bool.or_left_comm]
  | mint | lpMint => simp [World.inUse, openPool, setMint, setToken, isSome_update]
  | _ => simp [World.inUse]

theorem setWalletPolicy_inUse {ctx : SetWalletPolicy} {status : PolicyStatus} {t : ℤ}
    {c : MintConfig} {a : TokenAccount} (h : ctx.Effect w status t c a w') :
    w'.inUse k =
      (decide (k ∈ [Pubkey.walletPolicy ctx.mint ctx.tokenAccount]) || w.inUse k) := by
  rw [h.result, inUse_setWalletPolicy]
  simp only [List.mem_singleton]
  congr 1
  refine inUse_of_ledger (fun _ => rfl) fun j _ => ?_
  by_cases hj : j = ctx.tokenAccount
  · subst hj
    rw [setToken_tokens_self, h.account]; rfl
  · rw [setToken_tokens_of_ne _ _ _ hj]

theorem setPause_inUse {ctx : SetPause} {paused : Bool} {c : MintConfig} {M : Mint}
    {p : PausableConfig} (h : ctx.Effect w paused c M p w') : w'.inUse k = w.inUse k := by
  have hc := h.config
  rw [h.config_key] at hc
  have hl : ∀ M', ({ w with ledger := w.ledger.setMint ctx.mint M' } : World).inUse k =
      w.inUse k := by
    intro M'
    refine inUse_of_ledger (fun j => ?_) fun _ _ => rfl
    by_cases hj : j = ctx.mint
    · subst hj
      rw [setMint_mints_self, h.mint]; rfl
    · rw [setMint_mints_of_ne _ _ _ hj]
  rw [h.result, h.config_key, inUse_setConfig, hl]
  exact inUse_rewrite (inUse_config hc)

theorem revokeMinter_key {ctx : RevokeMinter} (h : revokeMinter w ctx = .ok w') :
    ctx.minterRole = .minterRole ctx.config ctx.authority := by
  simp only [revokeMinter, requireSeeds, bind_ok_iff, require_ok_iff] at h
  obtain ⟨-, -, _, -, _, -, -, -, -, -, -, hkey, -⟩ := h
  exact hkey

/-- Accounts of outsiders are not counted. -/
theorem inUse_setToken {j : Pubkey} {b : TokenAccount} (hj : j.isSigner) :
    ({ w with ledger := w.ledger.setToken j b } : World).inUse k = w.inUse k := by
  refine inUse_of_ledger (fun _ => rfl) fun i hi => ?_
  rw [setToken_tokens_of_ne]
  rintro rfl
  exact hi hj

theorem inUse_closeToken {j : Pubkey} (hj : j.isSigner) :
    ({ w with ledger := { w.ledger with tokens := Function.update w.ledger.tokens j none } } :
      World).inUse k = w.inUse k := by
  refine inUse_of_ledger (fun _ => rfl) fun i hi => ?_
  have hne : i ≠ j := by
    rintro rfl
    exact hi hj
  exact congrArg Option.isSome (Function.update_of_ne hne ..)

theorem World.Anchored.signer_of (hA : w.Anchored) {j : Pubkey} {b : TokenAccount}
    (hb : w.ledger.tokens j = some b) (ho : b.owner.isSigner) : j.isSigner := by
  by_contra hj
  exact hA.owner j b hb hj ho

/-- **What a step does to the derived addresses.** -/
theorem step_inUse (hw : w.Inv) (hA : w.Anchored) {a : Action} (h : step w a = .ok w')
    (k : Pubkey) :
    w'.inUse k = ((decide (k ∈ a.opened) || w.inUse k) && !decide (k ∈ a.closed)) := by
  -- most actions change amounts, counters and administrators
  have hframed : a.opened = [] → a.closed = [] → w.Framed w' →
      (∀ j, (w'.minterRoles j).isSome = (w.minterRoles j).isSome) →
      w'.inUse k = ((decide (k ∈ a.opened) || w.inUse k) && !decide (k ∈ a.closed)) := by
    intro ho hc hf hr
    rw [ho, hc, inUse_of_framed hf hr]; simp
  have heff := step_effect hw h
  cases a with
  | initializeStablecoin =>
      obtain ⟨M, c, h⟩ := heff
      simpa [Action.opened, Action.closed] using initializeStablecoin_inUse h
  | grantMinter =>
      obtain ⟨c, h⟩ := grantMinter_effect (mapError_ok_iff.mp h)
      rw [h.result, h.minterRole_key, inUse_setMinterRole]
      simp [Action.opened, Action.closed, h.minterRole_key]
  | revokeMinter ctx =>
      have hkey := revokeMinter_key (mapError_ok_iff.mp h)
      rw [heff, hkey, inUse_closeMinterRole]
      simp [Action.opened, Action.closed, hkey]
  | setWalletPolicy =>
      obtain ⟨c, a, h⟩ := heff
      simpa [Action.opened, Action.closed] using setWalletPolicy_inUse h
  | mintTo ctx =>
      obtain ⟨a, l, h⟩ := heff
      apply hframed rfl rfl h.framed
      intro j
      rw [h.result]
      by_cases hj : j = ctx.minterRole
      · subst hj
        simp [World.setConfig, World.setMinterRole, h.valid.minterRole]
      · simp [World.setConfig, World.setMinterRole, hj]
  | burn =>
      obtain ⟨c, l, h⟩ := heff
      apply hframed rfl rfl
      · rw [h.result]; exact .of_moved_config h.burned.toMoved h.config rfl
      · rw [h.result]; exact fun _ => rfl
  | setPause =>
      obtain ⟨c, M, p, h⟩ := heff
      simpa [Action.opened, Action.closed] using setPause_inUse h
  | updateConfig =>
      obtain ⟨c, h⟩ := heff
      apply hframed rfl rfl
      · rw [h.result]; exact .of_config h.config rfl
      · rw [h.result]; exact fun _ => rfl
  | acceptAdmin =>
      obtain ⟨c, hc, -, h⟩ := heff
      apply hframed rfl rfl
      · rw [h]; exact .of_config hc rfl
      · rw [h]; exact fun _ => rfl
  | initializePool =>
      obtain ⟨mA, mB, h⟩ := heff
      simpa [Action.opened, Action.closed] using initializePool_inUse h
  | addLiquidity =>
      obtain ⟨_, _, _, _, _, _, h⟩ := heff
      apply hframed rfl rfl
      · rw [h.result]
        exact .of_moved_pool (h.paidA.toMoved.trans (h.paidB.toMoved.trans
          (h.locked.moved.trans h.minted.toMoved))) h.valid.pool rfl
      · rw [h.result]; exact fun _ => rfl
  | removeLiquidity =>
      obtain ⟨_, _, _, _, _, h⟩ := heff
      apply hframed rfl rfl
      · rw [h.result]
        exact .of_moved_pool (h.burned.toMoved.trans (h.paidA.toMoved.trans h.paidB.toMoved))
          h.valid.pool rfl
      · rw [h.result]; exact fun _ => rfl
  | swap =>
      obtain ⟨_, _, _, _, h⟩ := heff
      apply hframed rfl rfl
      · rw [h.result]
        exact .of_moved_pool (h.paidIn.toMoved.trans h.paidOut.toMoved) h.valid.pool
          (Pool.erase_afterSwap ..)
      · rw [h.result]; exact fun _ => rfl
  | transfer =>
      obtain ⟨l, -, h, hw'⟩ := heff
      apply hframed rfl rfl
      · rw [hw']; exact .of_ledger h.skeleton
      · rw [hw']; exact fun _ => rfl
  | burnDirect =>
      obtain ⟨l, -, h, hw'⟩ := heff
      apply hframed rfl rfl
      · rw [hw']; exact .of_ledger h.skeleton
      · rw [hw']; exact fun _ => rfl
  -- outsiders create, hand over and close accounts at addresses of their own
  | createAccount =>
      obtain ⟨M, hsig, -, -, hw'⟩ := heff
      rw [hw', inUse_setToken hsig]; simp [Action.opened, Action.closed]
  | setOwner =>
      obtain ⟨b, hsig, hb, -, ho, -, hw'⟩ := heff
      rw [hw', inUse_setToken (hA.signer_of hb (ho ▸ hsig))]; simp [Action.opened, Action.closed]
  | closeAccount =>
      obtain ⟨b, hsig, hb, -, ho, hw'⟩ := heff
      rw [hw', inUse_closeToken (hA.signer_of hb (ho ▸ hsig))]; simp [Action.opened, Action.closed]

/-! ### The accounts of a pool -/

/-- The pool whose vault or locked account stands at an address. -/
def Pubkey.parent : Pubkey → Option Pubkey
  | .vault p _ | .lockedLp p => some p
  | _ => none

/-- No child account of a pool is there before the pool. -/
def World.Rooted (w : World) : Prop :=
  ∀ k p, k.parent = some p → w.inUse k = true → ∃ P, w.pools p = some P

theorem rooted_genesis (addressBytes : Pubkey → List UInt8) :
    (World.genesis addressBytes).Rooted := by
  intro k p hk hu
  cases k <;> simp [Pubkey.parent] at hk <;> cases hu

theorem step_rooted (hw : w.Inv) (hA : w.Anchored) (hR : w.Rooted) {a : Action}
    (h : step w a = .ok w') : w'.Rooted := by
  intro k p hk hu
  have heff := step_effect hw h
  have hkept : ∀ {j P}, w.pools j = some P → ∃ P', w'.pools j = some P' := by
    intro j P hP
    obtain ⟨P', hP', -⟩ := heff.refines hw.shape (heff.inv hw).conserved hP
    exact ⟨P', hP'⟩
  rw [step_inUse hw hA h] at hu
  simp only [Bool.and_eq_true, Bool.or_eq_true, decide_eq_true_eq] at hu
  rcases hu.1 with ho | hu
  · cases a with
    | initializePool ctx =>
        obtain ⟨mA, mB, h⟩ := heff
        have hp : p = ctx.pool := by
          simp only [Action.opened, List.mem_cons, List.not_mem_nil, or_false] at ho
          rcases ho with rfl | rfl | rfl | rfl | rfl
          · rw [h.pool_key] at hk; cases hk
          · exact (Option.some.inj hk).symm
          · exact (Option.some.inj hk).symm
          · cases hk
          · exact (Option.some.inj hk).symm
        subst hp
        rw [h.result]
        exact ⟨_, World.setPool_pools_self ..⟩
    | initializeStablecoin ctx =>
        obtain ⟨M, c, h⟩ := heff
        simp only [Action.opened, h.config_key, h.mint_key, List.mem_cons, List.not_mem_nil,
          or_false] at ho
        rcases ho with rfl | rfl <;> cases hk
    | grantMinter ctx =>
        obtain ⟨c, h⟩ := grantMinter_effect (mapError_ok_iff.mp h)
        obtain rfl : k = ctx.minterRole := by simpa [Action.opened] using ho
        rw [h.minterRole_key] at hk; cases hk
    | setWalletPolicy =>
        obtain rfl := List.mem_singleton.mp ho
        cases hk
    | _ => cases ho
  · obtain ⟨P, hP⟩ := hR k p hk hu
    exact hkept hP

end

end StablecoinAmm
