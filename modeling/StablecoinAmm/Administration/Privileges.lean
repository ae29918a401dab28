import StablecoinAmm.Administration.Rotation
import StablecoinAmm.Admission.Calls
import StablecoinAmm.Compliance.Accounts
import StablecoinAmm.Events.Reconciliation
import StablecoinAmm.Funding.Addresses
import StablecoinAmm.Issuance.Minters

/-!
# Administration — what a key can do

The powers over a stablecoin are divided.  Its terms — its keys, its cap, who may mint and how
much — change only with the signature of the admin, or of whom the admin has named
(`World.SameTerms`).  Which accounts may use it, and whether anybody may, is decided by the
compliance authority, with the admin (`World.SamePermits`).  And a minter, whatever else it signs,
brings no more into circulation than it has left (`World.remaining`).

`privileges` is about runs: what a key cannot do in one step it cannot do in many, together with
whoever else holds no power.
-/

namespace StablecoinAmm
open Support Ledger

/-- The key that signs an action. -/
def Action.signer : Action → Pubkey
  | .initializeStablecoin ctx .. => ctx.payer
  | .grantMinter ctx _ => ctx.admin
  | .revokeMinter ctx => ctx.admin
  | .setWalletPolicy ctx .. => ctx.complianceAuthority
  | .mintTo ctx _ => ctx.minter
  | .burn ctx _ => ctx.owner
  | .setPause ctx _ => ctx.authority
  | .updateConfig ctx .. => ctx.admin
  | .acceptAdmin ctx => ctx.pendingAdmin
  | .initializePool ctx _ => ctx.payer
  | .addLiquidity ctx .. => ctx.user
  | .removeLiquidity ctx .. => ctx.user
  | .swap ctx .. => ctx.user
  | .createAccount account .. => account
  | .transfer c .. => c.authority
  | .burnDirect c .. => c.authority
  | .setOwner _ authority _ => authority
  | .closeAccount _ authority => authority

/-! ### The powers -/

/-- A configuration but for its counters and its pause. -/
def MintConfig.terms (c : MintConfig) : MintConfig :=
  { c with totalMinted := 0, totalBurned := 0, paused := false }

/-- The role of `k` for the stablecoin at `m`. -/
def World.role (w : World) (m k : Pubkey) : Option MinterRole :=
  w.minterRoles (.minterRole (.config m) k)

/-- What `k` may still mint of `m`. -/
def World.remaining (w : World) (m k : Pubkey) : ℕ :=
  (w.role m k).elim 0 fun r => r.allowance - r.minted

/-- The terms of the stablecoin at `m` are the same: its configuration, and all allowances. -/
structure World.SameTerms (w w' : World) (m : Pubkey) : Prop where
  config : (w'.configs (.config m)).map MintConfig.terms =
    (w.configs (.config m)).map MintConfig.terms
  allowance : ∀ k, (w'.role m k).map MinterRole.allowance = (w.role m k).map MinterRole.allowance

/-- The stablecoin at `m` is paused or not as before, its policies are the same, and no account of
it is thawed that was not. -/
structure World.SamePermits (w w' : World) (m : Pubkey) : Prop where
  paused : (w'.configs (.config m)).map MintConfig.paused =
    (w.configs (.config m)).map MintConfig.paused
  policy : ∀ k, w'.walletPolicies (.walletPolicy m k) = w.walletPolicies (.walletPolicy m k)
  thawed : ∀ k o', w'.ledger.Thawed k m o' → ∃ o, w.ledger.Thawed k m o

section
variable {w w₁ w' : World} {m k : Pubkey} {c : MintConfig}

theorem World.SameTerms.refl (w : World) (m : Pubkey) : w.SameTerms w m := ⟨rfl, fun _ => rfl⟩

theorem World.SameTerms.trans (h₁ : w.SameTerms w₁ m) (h₂ : w₁.SameTerms w' m) :
    w.SameTerms w' m :=
  ⟨h₂.config.trans h₁.config, fun k => (h₂.allowance k).trans (h₁.allowance k)⟩

theorem World.SamePermits.refl (w : World) (m : Pubkey) : w.SamePermits w m :=
  ⟨rfl, fun _ => rfl, fun _ o h => ⟨o, h⟩⟩

theorem World.SamePermits.trans (h₁ : w.SamePermits w₁ m) (h₂ : w₁.SamePermits w' m) :
    w.SamePermits w' m where
  paused := h₂.paused.trans h₁.paused
  policy k := (h₂.policy k).trans (h₁.policy k)
  thawed k o' h := by
    obtain ⟨o, h⟩ := h₂.thawed k o' h
    exact h₁.thawed k o h

/-- The keys are among the terms. -/
theorem World.SameTerms.keys (h : w.SameTerms w' m) (hc : w.configs (.config m) = some c) :
    ∃ c', w'.configs (.config m) = some c' ∧ c'.admin = c.admin ∧
      c'.pendingAdmin = c.pendingAdmin ∧ c'.complianceAuthority = c.complianceAuthority := by
  have hterms := h.config
  rw [hc] at hterms
  obtain ⟨c', hc', he⟩ := Option.map_eq_some_iff.mp hterms
  have hadmin := congrArg MintConfig.admin he
  have hpending := congrArg MintConfig.pendingAdmin he
  have hcompliance := congrArg MintConfig.complianceAuthority he
  exact ⟨c', hc', hadmin, hpending, hcompliance⟩

/-! ### One step -/

/-- The configuration of another stablecoin is written, or this one with the same terms. -/
theorem terms_write {j : Pubkey} {c₁ c₂ : MintConfig} (hc : w.configs (.config m) = some c)
    (hr : w' = w₁.setConfig j c₂) (hw₁ : w₁.configs = w.configs) (hj : w.configs j = some c₁)
    (hterms : .config m = j → c = c₁ → c₂.terms = c₁.terms) :
    (w'.configs (.config m)).map MintConfig.terms =
      (w.configs (.config m)).map MintConfig.terms := by
  rcases World.setConfig_cases hr hw₁ hj hc with ⟨hk, he, hc'⟩ | ⟨-, hc'⟩
  · rw [hc', hc, Option.map_some, Option.map_some, hterms hk he, he]
  · rw [hc', hc]

theorem Action.Effect.terms (hc : w.configs (.config m) = some c) : ∀ {a : Action},
    a.Effect w w' → a.signer ≠ c.admin → c.pendingAdmin ≠ some a.signer →
      (w'.configs (.config m)).map MintConfig.terms =
        (w.configs (.config m)).map MintConfig.terms
  | .updateConfig .., ⟨_, h⟩, hadmin, _ =>
      terms_write hc h.result rfl h.config fun _ he => absurd (he ▸ h.admin).symm hadmin
  | .acceptAdmin .., ⟨_, hc₁, hnamed, h⟩, _, hpending =>
      terms_write hc h rfl hc₁ fun _ he => absurd (he ▸ hnamed) hpending
  | .initializeStablecoin .., ⟨_, _, h⟩, _, _ => by
      have hk : Pubkey.config m ≠ _ := fun e => by rw [e, h.config_free] at hc; cases hc
      rw [h.result, World.setConfig_configs_of_ne _ _ _ hk]
  | .mintTo .., ⟨_, _, h⟩, _, _ => terms_write hc h.result rfl h.valid.config fun _ _ => rfl
  | .burn .., ⟨_, _, h⟩, _, _ => terms_write hc h.result rfl h.config fun _ _ => rfl
  | .setPause .., ⟨_, _, _, h⟩, _, _ => terms_write hc h.result rfl h.config fun _ _ => rfl
  | .grantMinter .., h, _, _ | .revokeMinter .., h, _, _ => by rw [h]; rfl
  | .setWalletPolicy .., ⟨_, _, h⟩, _, _ => by rw [h.result]; rfl
  | .initializePool .., ⟨_, _, h⟩, _, _ => by rw [h.result]; rfl
  | .addLiquidity .., ⟨_, _, _, _, _, _, h⟩, _, _ => by rw [h.result]; rfl
  | .removeLiquidity .., ⟨_, _, _, _, _, h⟩, _, _ => by rw [h.result]; rfl
  | .swap .., ⟨_, _, _, _, h⟩, _, _ => by rw [h.result]; rfl
  | .createAccount .., ⟨_, _, _, _, h⟩, _, _ => by rw [h]
  | .transfer .., ⟨_, _, _, h⟩, _, _ => by rw [h]
  | .burnDirect .., ⟨_, _, _, h⟩, _, _ => by rw [h]
  | .setOwner .., ⟨_, _, _, _, _, _, h⟩, _, _ => by rw [h]
  | .closeAccount .., ⟨_, _, _, _, _, h⟩, _, _ => by rw [h]

/-- What a step does to the role of `k` for `m`: nothing, or `k` mints. -/
inductive World.MintStep (w w' : World) (m k : Pubkey) (a : Action) : Prop
  | kept (hrole : w'.role m k = w.role m k) (hidle : a.signer = k → a.issued m = 0)
  | mints {r : MinterRole} (hsigner : a.signer = k) (hrole : w.role m k = some r)
      (hrole' : w'.role m k = some { r with minted := r.minted + a.issued m })
      (hle : r.minted + a.issued m ≤ r.allowance)

/-- A role is written, of another stablecoin or of this one. -/
theorem role_write {j : Pubkey} {r : Option MinterRole}
    (h : w'.minterRoles = Function.update w.minterRoles j r) (hj : .minterRole (.config m) k ≠ j) :
    w'.role m k = w.role m k := by
  rw [World.role, World.role, h, Function.update_of_ne hj]

/-- **Only the admin writes roles, but for what their holders mint.** -/
theorem step_mintStep (hw : w.Inv) (hc : w.configs (.config m) = some c) {a : Action}
    (h : step w a = .ok w') (hadmin : a.signer ≠ c.admin) (k : Pubkey) :
    w.MintStep w' m k a := by
  cases step_role hw h with
  | @grant ctx allowance c₁ heff =>
      refine .kept (role_write (congrArg World.minterRoles heff.result) fun he => ?_) fun _ => rfl
      obtain ⟨hconfig, -⟩ := Pubkey.minterRole.inj (he.trans heff.minterRole_key)
      obtain rfl := Option.some.inj ((hconfig ▸ hc).symm.trans heff.config)
      exact hadmin heff.admin.symm
  | @revoke ctx c₁ r heff =>
      refine .kept (role_write (congrArg World.minterRoles heff.result) fun he => ?_) fun _ => rfl
      have hkey := revokeMinter_key (mapError_ok_iff.mp h)
      obtain ⟨hconfig, -⟩ := Pubkey.minterRole.inj (he.trans hkey)
      obtain rfl := Option.some.inj ((hconfig ▸ hc).symm.trans heff.config)
      exact hadmin heff.admin.symm
  | @mint ctx amount a l heff =>
      have hv := heff.valid
      have hroles : w'.minterRoles = _ := congrArg World.minterRoles heff.result
      by_cases he : .minterRole (.config m) k = ctx.minterRole
      · obtain ⟨hconfig, rfl⟩ := Pubkey.minterRole.inj (he.trans hv.minterRole_key)
        obtain rfl := Pubkey.config.inj (hconfig.trans hv.config_key)
        have hissued : (Action.mintTo ctx amount).issued ctx.mint = amount := if_pos rfl
        refine .mints (r := a.minterRole) rfl (by rw [World.role, he, hv.minterRole]) ?_ ?_
        · rw [World.role, he, hroles, hissued]
          exact Function.update_self ..
        · rw [hissued]
          exact heff.within
      · refine .kept (role_write hroles he) fun hs => if_neg fun hm => he ?_
        rw [hv.minterRole_key, hv.config_key, ← hm, ← hs]
        rfl
  | other hkept hidle =>
      refine .kept (by rw [World.role, World.role, hkept]) fun _ => ?_
      cases a with
      | mintTo ctx amount =>
          have hzero := (hidle ctx.config MinterRole.minted id).1
          rw [Action.entered, if_pos rfl] at hzero
          rw [Action.issued, show amount = 0 from hzero, ite_self]
      | _ => rfl

theorem World.MintStep.allowance {a : Action} (h : w.MintStep w' m k a) :
    (w'.role m k).map MinterRole.allowance = (w.role m k).map MinterRole.allowance := by
  cases h with
  | kept hrole => rw [hrole]
  | mints _ hrole hrole' => rw [hrole', hrole]; rfl

/-- What a minter mints it has no longer left. -/
theorem World.MintStep.remaining {a : Action} (h : w.MintStep w' m k a) :
    w'.remaining m k + (if a.signer = k then a.issued m else 0) = w.remaining m k := by
  cases h with
  | kept hrole hidle =>
      rw [World.remaining, World.remaining, hrole]
      split_ifs with hs
      · rw [hidle hs, Nat.add_zero]
      · rw [Nat.add_zero]
  | @mints r hs hrole hrole' hle =>
      rw [World.remaining, World.remaining, hrole', hrole, if_pos hs]
      show r.allowance - (r.minted + a.issued m) + a.issued m = r.allowance - r.minted
      omega

theorem step_terms (hw : w.Inv) (hc : w.configs (.config m) = some c) {a : Action}
    (h : step w a = .ok w') (hadmin : a.signer ≠ c.admin)
    (hpending : c.pendingAdmin ≠ some a.signer) : w.SameTerms w' m :=
  ⟨(step_effect hw h).terms hc hadmin hpending,
    fun k => (step_mintStep hw hc h hadmin k).allowance⟩

/-- Whoever pauses or resumes is the admin or the compliance authority. -/
theorem step_paused (hw : w.Inv) (hc : w.configs (.config m) = some c) {a : Action}
    (h : step w a = .ok w') (hadmin : a.signer ≠ c.admin)
    (hcompliance : a.signer ≠ c.complianceAuthority) :
    (w'.configs (.config m)).map MintConfig.paused =
      (w.configs (.config m)).map MintConfig.paused := by
  obtain ⟨c', hc', hb⟩ := (step_effect hw h).booked hw.shape _ c hc
  rw [hc', hc, Option.map_some, Option.map_some, hb.paused, hw.shape.config_mint hc]
  cases a with
  | setPause ctx b =>
      refine congrArg some (if_neg ?_)
      rintro rfl
      obtain ⟨c₁, M, p, heff⟩ := step_effect hw h
      obtain ⟨c₂, hc₂, hauth⟩ := setPause_authority (mapError_ok_iff.mp h)
      rw [heff.config_key] at hc₂
      obtain rfl := Option.some.inj (hc.symm.trans hc₂)
      rcases hauth with hauth | hauth
      · exact hadmin hauth.symm
      · exact hcompliance hauth.symm
  | _ => rfl

/-- Only the compliance authority writes policies, and thaws. -/
theorem step_permits (hw : w.Inv) (hc : w.configs (.config m) = some c) {a : Action}
    (h : step w a = .ok w') (hadmin : a.signer ≠ c.admin)
    (hcompliance : a.signer ≠ c.complianceAuthority) : w.SamePermits w' m := by
  have heff := step_effect hw h
  -- a policy is set for another stablecoin
  have hother : ∀ ctx status t, a = .setWalletPolicy ctx status t → m ≠ ctx.mint := by
    rintro ctx status t rfl rfl
    obtain ⟨c₁, b, heff⟩ := heff
    have hc₁ := heff.config
    rw [heff.config_key] at hc₁
    obtain rfl := Option.some.inj (hc.symm.trans hc₁)
    exact hcompliance heff.authority.symm
  refine ⟨step_paused hw hc h hadmin hcompliance, fun k => ?_, fun k o' => ?_⟩
  · cases heff.accountStep hw.shape k with
    | kept _ _ hp | created _ _ _ hp | opened _ _ _ _ _ hp | handed _ _ _ _ hp
    | closed _ _ _ _ hp => exact hp m
    | vetted _ _ _ _ _ _ _ hp => exact hp m (hother _ _ _ rfl)
  · rintro ⟨b', hb', hm, ho, hthawed⟩
    cases heff.accountStep hw.shape k with
    | kept _ hsame =>
        obtain ⟨b, hb, hbm, -, hbs⟩ := token_of_erase hsame hb'
        exact ⟨b.owner, b, hb, hbm.trans hm, rfl, hbs ▸ hthawed⟩
    | vetted _ hb hbm hset =>
        obtain rfl := Option.some.inj (hset.symm.trans hb')
        exact absurd (hm.symm.trans hbm) (hother _ _ _ rfl)
    | created _ hM hset =>
        obtain rfl := Option.some.inj (hset.symm.trans hb')
        obtain rfl : _ = m := hm
        exact absurd (hw.shape.freezes hM (hw.shape.isStablecoin_key ⟨c, hc⟩)) hthawed
    | opened _ _ _ hset hf =>
        obtain rfl := Option.some.inj (hset.symm.trans hb')
        obtain rfl : _ = m := hm
        exact absurd (hf (hw.shape.isStablecoin_key ⟨c, hc⟩)) hthawed
    | @handed _ _ b _ hb _ hset =>
        obtain rfl := Option.some.inj (hset.symm.trans hb')
        exact ⟨b.owner, b, hb, hm, rfl, hthawed⟩
    | closed _ _ _ hset => cases hset.symm.trans hb'

/-- The supply grows by no more than what the minters in `K` have no longer left. -/
theorem step_remaining (hw : w.Inv) (hc : w.configs (.config m) = some c) {a : Action}
    (h : step w a = .ok w') (hadmin : a.signer ≠ c.admin) {K : Finset Pubkey}
    (hK : ∀ r, w.role m a.signer = some r → a.signer ∈ K) :
    w'.ledger.supply m + ∑ k ∈ K, w'.remaining m k ≤
      w.ledger.supply m + ∑ k ∈ K, w.remaining m k := by
  obtain ⟨s, rfl⟩ := hw.shape.isStablecoin_key ⟨c, hc⟩
  have hsupply := step_supply hw h s
  have hsum : ∑ k ∈ K, w'.remaining (.mint s) k +
      ∑ k ∈ K, (if a.signer = k then a.issued (.mint s) else 0) =
        ∑ k ∈ K, w.remaining (.mint s) k := by
    rw [← Finset.sum_add_distrib]
    exact Finset.sum_congr rfl fun k _ => (step_mintStep hw hc h hadmin k).remaining
  rw [Finset.sum_ite_eq] at hsum
  cases step_mintStep hw hc h hadmin a.signer with
  | kept _ hidle =>
      rw [hidle rfl, ite_self] at hsum
      rw [hidle rfl] at hsupply
      omega
  | mints _ hrole =>
      rw [if_pos (hK _ hrole)] at hsum
      omega

/-! ### Every run -/

/-- Roles come and go with the terms. -/
theorem World.SameTerms.role {r' : MinterRole} (h : w.SameTerms w' m)
    (hr : w'.role m k = some r') : ∃ r, w.role m k = some r := by
  have hallow := h.allowance k
  rw [hr] at hallow
  obtain ⟨r, hr, -⟩ := Option.map_eq_some_iff.mp hallow.symm
  exact ⟨r, hr⟩

/-- **Each key has its own powers, and no others, over any run.**  Where neither the admin of a
stablecoin signs nor whom it has named, the terms stay.  Where the compliance authority does not
sign either, nobody is paused or resumed, allowed or blocked.  And what is issued in all is no more
than what the minters that sign had left. -/
theorem privileges (hw : w.Reachable) (hc : w.configs (.config m) = some c) {as : List Action}
    (t : Run step w as w')
    (hadmin : ∀ a ∈ as, a.signer ≠ c.admin ∧ c.pendingAdmin ≠ some a.signer) :
    w.SameTerms w' m ∧
      ((∀ a ∈ as, a.signer ≠ c.complianceAuthority) → w.SamePermits w' m) ∧
      ∀ K : Finset Pubkey, (∀ a ∈ as, ∀ r, w.role m a.signer = some r → a.signer ∈ K) →
        w'.ledger.supply m ≤ w.ledger.supply m + ∑ k ∈ K, w.remaining m k := by
  -- every state on the way has the same keys
  have hkeys : ∀ v, w.SameTerms v m → ∃ c', v.configs (.config m) = some c' ∧
      c'.complianceAuthority = c.complianceAuthority ∧
      ∀ a ∈ as, a.signer ≠ c'.admin ∧ c'.pendingAdmin ≠ some a.signer := by
    intro v hsame
    obtain ⟨c', hc', hadm, hpend, hcomp⟩ := hsame.keys hc
    exact ⟨c', hc', hcomp, by rwa [hadm, hpend]⟩
  have hterms : ∀ v a v', v.Inv ∧ w.SameTerms v m → a ∈ as → step v a = .ok v' →
      v'.Inv ∧ w.SameTerms v' m := by
    intro v a v' hv ha h
    obtain ⟨c', hc', -, hne⟩ := hkeys v hv.2
    exact ⟨step_inv _ _ _ hv.1 h, hv.2.trans (step_terms hv.1 hc' h (hne a ha).1 (hne a ha).2)⟩
  have hstart : w.Inv ∧ w.SameTerms w m := ⟨hw.inv, .refl w m⟩
  refine ⟨(t.invariant_of_mem hstart hterms).2, fun hcompliance => ?_, fun K hK => ?_⟩
  · refine (t.invariant_of_mem (I := fun v => (v.Inv ∧ w.SameTerms v m) ∧ w.SamePermits v m)
      ⟨hstart, .refl w m⟩ fun v a v' hv ha h => ?_).2
    obtain ⟨hv, hpermits⟩ := hv
    obtain ⟨c', hc', hcomp, hne⟩ := hkeys v hv.2
    exact ⟨hterms v a v' hv ha h,
      hpermits.trans (step_permits hv.1 hc' h (hne a ha).1 (hcomp ▸ hcompliance a ha))⟩
  · have hbound := (t.invariant_of_mem (I := fun v => (v.Inv ∧ w.SameTerms v m) ∧
      v.ledger.supply m + ∑ k ∈ K, v.remaining m k ≤
        w.ledger.supply m + ∑ k ∈ K, w.remaining m k)
      ⟨hstart, le_rfl⟩ fun v a v' hv ha h => ?_).2
    · exact (Nat.le_add_right _ _).trans hbound
    obtain ⟨hv, hle⟩ := hv
    obtain ⟨c', hc', -, hne⟩ := hkeys v hv.2
    have hK' : ∀ r, v.role m a.signer = some r → a.signer ∈ K := by
      intro r hr
      obtain ⟨r₀, hr₀⟩ := hv.2.role hr
      exact hK a ha r₀ hr₀
    exact ⟨hterms v a v' hv ha h, (step_remaining hv.1 hc' h (hne a ha).1 hK').trans hle⟩

end

open Lopsided in
/-- The issuer of the lopsided pool lets the user mint five of its first stablecoin. -/
def lopsidedDelegation : List Action :=
  history ++
    [.grantMinter
      { admin := issuer, config := .config mintA, authority := user,
        minterRole := .minterRole (.config mintA) user } 5]

open Lopsided in
/-- The user mints three, and sells them. -/
def lopsidedMinting : List Action :=
  [.mintTo
      { Lopsided.mintTo mintA userA with
        minter := user, minterRole := .minterRole (.config mintA) user } 3,
    .swap accounts.toPoolAccounts .aToB 3 0]

theorem privileges_lopsided :
    let w := (World.genesis Lopsided.addressBytes).afterAll lopsidedDelegation
    let w' := w.afterAll lopsidedMinting
    w.SameTerms w' Lopsided.mintA ∧ w.SamePermits w' Lopsided.mintA ∧
      w'.ledger.supply Lopsided.mintA ≤ w.ledger.supply Lopsided.mintA + 5 := by
  intro w w'
  have hw : w.Reachable := ⟨_, _, ⟨_, rfl⟩, run_afterAll (by decide +kernel)⟩
  have t : Run step w lopsidedMinting w' := run_afterAll (by decide +kernel)
  have hissuer : (w.configs (.config Lopsided.mintA)).map
      (fun c => (c.admin, c.pendingAdmin, c.complianceAuthority)) =
        some (Lopsided.issuer, none, Lopsided.issuer) := by decide +kernel
  obtain ⟨c, hc, hkeys⟩ := Option.map_eq_some_iff.mp hissuer
  obtain ⟨hadmin, hpending, hcompliance⟩ : _ ∧ _ ∧ _ := by simpa using hkeys
  have hsigner : ∀ a ∈ lopsidedMinting, a.signer = Lopsided.user := by decide
  obtain ⟨hterms, hpermits, hsupply⟩ := privileges hw hc t fun a ha => by
    rw [hsigner a ha, hadmin, hpending]
    exact ⟨by decide, nofun⟩
  refine ⟨hterms, hpermits fun a ha => ?_, ?_⟩
  · rw [hsigner a ha, hcompliance]
    decide
  · have hfive := hsupply {Lopsided.user} fun a ha _ _ => by
      rw [hsigner a ha]
      exact Finset.mem_singleton_self _
    rwa [Finset.sum_singleton, show w.remaining Lopsided.mintA Lopsided.user = 5 by
      decide +kernel] at hfive

end StablecoinAmm
