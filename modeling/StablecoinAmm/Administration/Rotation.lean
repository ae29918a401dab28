import StablecoinAmm.System.History

/-!
# Administration — rotating the admin

An admin names a successor (`update_config`), and the successor takes office by signing
`accept_admin`.  The nomination is a field of the configuration; that it is never a stale one is a
fact about the past (`MintConfig.Nominated`): whoever is waiting was named by the admin in
office, and nobody was named and nobody took office since.

* `AdminStep`: what a step does to the keys of a configuration.
* `run_nominated`: nominations along a run.
* `run_reinstated`: a former admin is admin again only by a new nomination and its acceptance.
-/

namespace StablecoinAmm
open Support

/-! ### Nominations -/

/-- The action names an admin for `k`, or lets one take office. -/
def Action.Rotates (k : Pubkey) : Action → Prop
  | .updateConfig ctx _ _ (some _) => ctx.config = k
  | .acceptAdmin ctx => ctx.config = k
  | _ => False

/-- In the history `as` of `k`, the last to be named was `q`, by `p`, and nobody has taken office
since. -/
def LastNominated (k p q : Pubkey) (as : List Action) : Prop :=
  ∃ bs ctx supplyCap complianceAuthority cs,
    as = bs ++ .updateConfig ctx supplyCap complianceAuthority (some q) :: cs ∧
    ctx.config = k ∧ ctx.admin = p ∧ ∀ a ∈ cs, ¬ a.Rotates k

theorem LastNominated.snoc {k p q : Pubkey} {as : List Action} (h : LastNominated k p q as)
    {a : Action} (ha : ¬ a.Rotates k) : LastNominated k p q (as ++ [a]) := by
  obtain ⟨bs, ctx, cap, ca, cs, rfl, hk, hp, hcs⟩ := h
  refine ⟨bs, ctx, cap, ca, cs ++ [a], by simp, hk, hp, fun b hb => ?_⟩
  rcases List.mem_append.mp hb with hb | hb
  · exact hcs b hb
  · exact List.mem_singleton.mp hb ▸ ha

/-- Whoever waits for office was named by the admin in office. -/
def MintConfig.Nominated (c : MintConfig) (k : Pubkey) (as : List Action) : Prop :=
  ∀ q, c.pendingAdmin = some q → q ≠ c.admin ∧ q ≠ .default ∧ LastNominated k c.admin q as

/-! ### One step -/

/-- What a step does to the keys of the configuration at `k`. -/
inductive AdminStep (k : Pubkey) (c c' : MintConfig) : Action → Prop
  | kept {a : Action} (ha : ¬ a.Rotates k) (hadmin : c'.admin = c.admin)
      (hpending : c'.pendingAdmin = c.pendingAdmin)
      (hcompliance : c'.complianceAuthority = c.complianceAuthority) : AdminStep k c c' a
  | updated {ctx : UpdateConfig} {supplyCap : Option ℕ} {complianceAuthority nominee : Option Pubkey}
      (hk : ctx.config = k) (hsigner : ctx.admin.isSigner) (hadmin : ctx.admin = c.admin)
      (hnominee : ∀ q, nominee = some q → q ≠ c.admin ∧ q ≠ .default)
      (hadmin' : c'.admin = c.admin) (hpending : c'.pendingAdmin = nominee.or c.pendingAdmin)
      (hcompliance : c'.complianceAuthority = complianceAuthority.getD c.complianceAuthority) :
      AdminStep k c c' (.updateConfig ctx supplyCap complianceAuthority nominee)
  | accepted {ctx : AcceptAdmin} (hk : ctx.config = k) (hsigner : ctx.pendingAdmin.isSigner)
      (hnamed : c.pendingAdmin = some ctx.pendingAdmin) (hadmin : c'.admin = ctx.pendingAdmin)
      (hpending : c'.pendingAdmin = none)
      (hcompliance : c'.complianceAuthority = c.complianceAuthority) :
      AdminStep k c c' (.acceptAdmin ctx)

section
variable {w w' : World} {k : Pubkey} {c : MintConfig}

theorem adminStep_same (hc : w.configs k = some c) {a : Action} (ha : ¬ a.Rotates k)
    (h : w'.configs = w.configs) : ∃ c', w'.configs k = some c' ∧ AdminStep k c c' a :=
  ⟨c, h ▸ hc, .kept ha rfl rfl rfl⟩

/-- A configuration is written whose keys stay. -/
theorem adminStep_write {w₁ : World} {j : Pubkey} {c₁ c₂ : MintConfig}
    (hc : w.configs k = some c) {a : Action} (ha : ¬ a.Rotates k)
    (hr : w' = w₁.setConfig j c₂) (hw₁ : w₁.configs = w.configs) (hj : w.configs j = some c₁)
    (hkeys : c₂.admin = c₁.admin ∧ c₂.pendingAdmin = c₁.pendingAdmin ∧
      c₂.complianceAuthority = c₁.complianceAuthority) :
    ∃ c', w'.configs k = some c' ∧ AdminStep k c c' a := by
  rcases World.setConfig_cases hr hw₁ hj hc with ⟨-, rfl, hc'⟩ | ⟨-, hc'⟩
  · exact ⟨c₂, hc', .kept ha hkeys.1 hkeys.2.1 hkeys.2.2⟩
  · exact ⟨c, hc', .kept ha rfl rfl rfl⟩

/-- **Only two instructions touch the keys of a configuration.** -/
theorem Action.Effect.adminStep (hc : w.configs k = some c) : ∀ {a : Action}, a.Effect w w' →
    step w a = .ok w' → ∃ c', w'.configs k = some c' ∧ AdminStep k c c' a
  | .updateConfig ctx cap ca pa, ⟨c₁, h⟩, _ => by
      rcases World.setConfig_cases h.result rfl h.config hc with ⟨hk, rfl, hc'⟩ | ⟨hk, hc'⟩
      · refine ⟨_, hc', .updated hk.symm h.signer h.admin.symm ?_ rfl rfl rfl⟩
        exact fun q hq => (h.nominee q hq).symm
      · refine ⟨c, hc', .kept ?_ rfl rfl rfl⟩
        cases pa with
        | none => exact id
        | some => exact fun e => hk e.symm
  | .acceptAdmin ctx, _, h => by
      obtain ⟨c₁, h⟩ := acceptAdmin_effect (mapError_ok_iff.mp h)
      rcases World.setConfig_cases h.result rfl h.config hc with ⟨hk, rfl, hc'⟩ | ⟨hk, hc'⟩
      · exact ⟨_, hc', .accepted hk.symm h.signer h.pendingAdmin rfl rfl rfl⟩
      · exact ⟨c, hc', .kept (fun e => hk e.symm) rfl rfl rfl⟩
  | .initializeStablecoin .., ⟨_, _, h⟩, _ => by
      have hk : k ≠ _ := fun e => by rw [e, h.config_free] at hc; cases hc
      rw [h.result]
      exact ⟨c, (World.setConfig_configs_of_ne _ _ _ hk).trans hc, .kept id rfl rfl rfl⟩
  | .mintTo .., ⟨_, _, h⟩, _ =>
      adminStep_write hc id h.result rfl h.valid.config ⟨rfl, rfl, rfl⟩
  | .burn .., ⟨_, _, h⟩, _ => adminStep_write hc id h.result rfl h.config ⟨rfl, rfl, rfl⟩
  | .setPause .., ⟨_, _, _, h⟩, _ => adminStep_write hc id h.result rfl h.config ⟨rfl, rfl, rfl⟩
  | .grantMinter .., h, _ | .revokeMinter .., h, _ => adminStep_same hc id (by rw [h]; rfl)
  | .setWalletPolicy .., ⟨_, _, h⟩, _ => adminStep_same hc id (by rw [h.result]; rfl)
  | .initializePool .., ⟨_, _, h⟩, _ => adminStep_same hc id (by rw [h.result]; rfl)
  | .addLiquidity .., ⟨_, _, _, _, _, _, h⟩, _ => adminStep_same hc id (by rw [h.result]; rfl)
  | .removeLiquidity .., ⟨_, _, _, _, _, h⟩, _ => adminStep_same hc id (by rw [h.result]; rfl)
  | .swap .., ⟨_, _, _, _, h⟩, _ => adminStep_same hc id (by rw [h.result]; rfl)
  | .createAccount .., ⟨_, _, _, _, h⟩, _ => adminStep_same hc id (by rw [h])
  | .transfer .., ⟨_, _, _, h⟩, _ => adminStep_same hc id (by rw [h])
  | .burnDirect .., ⟨_, _, _, h⟩, _ => adminStep_same hc id (by rw [h])
  | .setOwner .., ⟨_, _, _, _, _, _, h⟩, _ => adminStep_same hc id (by rw [h])
  | .closeAccount .., ⟨_, _, _, _, _, h⟩, _ => adminStep_same hc id (by rw [h])

theorem step_admin (hw : w.Inv) (hc : w.configs k = some c) {a : Action}
    (h : step w a = .ok w') : ∃ c', w'.configs k = some c' ∧ AdminStep k c c' a :=
  (step_effect hw h).adminStep hc h

/-! ### Runs -/

theorem AdminStep.nominated {c' : MintConfig} {a : Action} (h : AdminStep k c c' a)
    {as : List Action} (hn : c.Nominated k as) : c'.Nominated k (as ++ [a]) := by
  intro q hq
  cases h with
  | kept ha hadmin hpending _ =>
      obtain ⟨hne, hd, hlast⟩ := hn q (hpending ▸ hq)
      rw [hadmin]
      exact ⟨hne, hd, hlast.snoc ha⟩
  | @updated ctx cap ca nominee hk _ hctx hnominee hadmin hpending _ =>
      rw [hadmin]
      cases nominee with
      | none =>
          obtain ⟨hne, hd, hlast⟩ := hn q (hpending.symm.trans hq)
          exact ⟨hne, hd, hlast.snoc id⟩
      | some q' =>
          obtain rfl := Option.some.inj (hpending.symm.trans hq)
          obtain ⟨hne, hd⟩ := hnominee q' rfl
          exact ⟨hne, hd, as, ctx, cap, ca, [], rfl, hk, hctx, fun _ h => nomatch h⟩
  | accepted _ _ _ _ hpending _ => cases hpending.symm.trans hq

/-- A configuration starts with nobody waiting. -/
theorem nominated_new (hw : w.Inv) (hc : w.configs k = none) {a : Action}
    (h : step w a = .ok w') {c' : MintConfig} (hc' : w'.configs k = some c') (as : List Action) :
    c'.Nominated k as := by
  obtain ⟨ctx, symbol, cap, M, h⟩ := (step_effect hw h).config_created hc hc'
  intro q hq
  rw [h.config] at hq
  cases hq

/-- **Nominations along a run.** -/
theorem run_nominated (hw : w.Inv) (hstart : ∀ c, w.configs k = some c → c.Nominated k [])
    {as : List Action} (t : Run step w as w') :
    ∀ c', w'.configs k = some c' → c'.Nominated k as := by
  have hinv : w'.Inv ∧ ∀ c', w'.configs k = some c' → c'.Nominated k as := by
    refine t.past (I := fun as w => w.Inv ∧ ∀ c, w.configs k = some c → c.Nominated k as)
      ⟨hw, hstart⟩ ?_
    rintro bs w₁ a w₂ - ⟨hw₁, hn⟩ h
    refine ⟨step_inv _ _ _ hw₁ h, fun c₂ hc₂ => ?_⟩
    rcases hc₁ : w₁.configs k with _ | c₁
    · exact nominated_new hw₁ hc₁ h hc₂ _
    · obtain ⟨c', hc', hstep⟩ := step_admin hw₁ hc₁ h
      obtain rfl := Option.some.inj (hc'.symm.trans hc₂)
      exact hstep.nominated (hn c₁ hc₁)
  exact hinv.2

/-- On the run `as` from `w`, `p` took office in `k` again, where another admin, by then in
office, had named it last. -/
def Reinstated (k p : Pubkey) (w : World) (as : List Action) : Prop :=
  ∃ bs ctx cs w₁ c₁, as = bs ++ .acceptAdmin ctx :: cs ∧ ctx.config = k ∧ ctx.pendingAdmin = p ∧
    Run step w bs w₁ ∧ w₁.configs k = some c₁ ∧ c₁.admin ≠ p ∧ LastNominated k c₁.admin p bs

/-- **Who is not admin becomes it only by a nomination and its acceptance.** -/
theorem run_reinstated {p : Pubkey} (hw : w.Inv) (hc : w.configs k = some c) (hp : c.admin ≠ p)
    (hnobody : c.pendingAdmin = none) {as : List Action} (t : Run step w as w') :
    ∃ c', w'.configs k = some c' ∧ (c'.admin = p → Reinstated k p w as) := by
  have hinv : w'.Inv ∧ ∃ c', w'.configs k = some c' ∧ c'.Nominated k as ∧
      (c'.admin = p → Reinstated k p w as) := by
    refine t.past (I := fun as w' => w'.Inv ∧ ∃ c', w'.configs k = some c' ∧ c'.Nominated k as ∧
      (c'.admin = p → Reinstated k p w as)) ⟨hw, c, hc, ?_, fun h => absurd h hp⟩ ?_
    · intro q hq
      cases hnobody.symm.trans hq
    rintro bs w₁ a w₂ t₁ ⟨hw₁, c₁, hc₁, hn, hre⟩ h
    obtain ⟨c₂, hc₂, hstep⟩ := step_admin hw₁ hc₁ h
    refine ⟨step_inv _ _ _ hw₁ h, c₂, hc₂, hstep.nominated hn, fun hadmin => ?_⟩
    -- reinstated before this step, which joins the rest of the run
    by_cases hold : c₁.admin = p
    · obtain ⟨ds, ctx, es, v, d, rfl, hrest⟩ := hre hold
      exact ⟨ds, ctx, es ++ [a], v, d, by simp, hrest⟩
    · -- the admin changed to `p` in this very step
      cases hstep with
      | kept _ hsame => exact absurd (hsame.symm.trans hadmin) hold
      | updated _ _ _ _ hsame => exact absurd (hsame.symm.trans hadmin) hold
      | @accepted ctx hk _ hnamed hnew =>
          obtain rfl := hnew.symm.trans hadmin
          obtain ⟨-, -, hlast⟩ := hn _ hnamed
          exact ⟨bs, ctx, [], w₁, c₁, rfl, hk, rfl, t₁, hc₁, hold, hlast⟩
  obtain ⟨-, c', hc', -, hre⟩ := hinv
  exact ⟨c', hc', hre⟩

/-! ### The rotation -/

/-- The action asks for the admin of `k`, and names `p`. -/
def Action.ActsAs (k p : Pubkey) : Action → Prop
  | .grantMinter ctx _ => ctx.config = k ∧ ctx.admin = p
  | .revokeMinter ctx => ctx.config = k ∧ ctx.admin = p
  | .updateConfig ctx .. => ctx.config = k ∧ ctx.admin = p
  | .setPause ctx _ => ctx.config = k ∧ ctx.authority = p
  | _ => False

/-- The action is one the compliance authority may take in the admin's place. -/
def Action.IsPause : Action → Prop
  | .setPause .. => True
  | _ => False

theorem setPause_authority {ctx : SetPause} {paused : Bool} (h : setPause w ctx paused = .ok w') :
    ∃ c, w.configs ctx.config = some c ∧
      (c.admin = ctx.authority ∨ c.complianceAuthority = ctx.authority) := by
  simp only [setPause, requireSigner, load, requireSeeds, requireHasOne, ensure, bind_ok_iff,
    require_ok_iff, okOr_ok_iff] at h
  obtain ⟨-, -, _, -, c, hc, -, -, -, -, -, hauth, -⟩ := h
  exact ⟨c, hc, hauth⟩

/-- Only the admin passes, or the compliance authority where it may. -/
theorem step_acts {p : Pubkey} (hw : w.Inv) (hc : w.configs k = some c) {a : Action}
    (h : step w a = .ok w') (ha : a.ActsAs k p) :
    c.admin = p ∨ a.IsPause ∧ c.complianceAuthority = p := by
  cases a with
  | grantMinter ctx =>
      obtain ⟨rfl, rfl⟩ := ha
      obtain ⟨c₁, h⟩ := grantMinter_effect (mapError_ok_iff.mp h)
      obtain rfl := Option.some.inj (hc.symm.trans h.config)
      exact .inl h.admin
  | revokeMinter ctx =>
      obtain ⟨rfl, rfl⟩ := ha
      obtain ⟨c₁, r, h⟩ := revokeMinter_effect (mapError_ok_iff.mp h)
      obtain rfl := Option.some.inj (hc.symm.trans h.config)
      exact .inl h.admin
  | updateConfig ctx =>
      obtain ⟨rfl, rfl⟩ := ha
      obtain ⟨c₁, h⟩ := step_effect hw h
      obtain rfl := Option.some.inj (hc.symm.trans h.config)
      exact .inl h.admin
  | setPause ctx =>
      obtain ⟨rfl, rfl⟩ := ha
      obtain ⟨c₁, hc₁, hauth⟩ := setPause_authority (mapError_ok_iff.mp h)
      obtain rfl := Option.some.inj (hc.symm.trans hc₁)
      exact hauth.imp id fun h => ⟨trivial, h⟩
  | _ => cases ha

/-- **Two-step rotation of the admin.** -/
theorem admin_rotation {addressBytes : Pubkey → List UInt8} {as : List Action}
    (t : Run step (World.genesis addressBytes) as w) (hc : w.configs k = some c) :
    (∀ q, c.pendingAdmin = some q → q ≠ c.admin ∧ q ≠ .default ∧ LastNominated k c.admin q as) ∧
    ∀ a w', step w a = .ok w' → ∃ c', w'.configs k = some c' ∧
      (c'.complianceAuthority ≠ c.complianceAuthority → ∃ ctx supplyCap pendingAdmin,
        a = .updateConfig ctx supplyCap (some c'.complianceAuthority) pendingAdmin ∧
        ctx.config = k ∧ ctx.admin = c.admin) ∧
      (c'.admin ≠ c.admin →
        (∃ ctx, a = .acceptAdmin ctx ∧ ctx.config = k ∧ ctx.pendingAdmin = c'.admin ∧
          c'.admin.isSigner ∧ LastNominated k c.admin c'.admin as) ∧
        ∀ bs w'' b v, Run step w' bs w'' → step w'' b = .ok v → b.ActsAs k c.admin →
          Reinstated k c.admin w' bs ∨
            b.IsPause ∧ ∃ c'', w''.configs k = some c'' ∧ c''.complianceAuthority = c.admin) := by
  have h₀ := inv_genesis addressBytes
  have hw : w.Inv := t.invariant step_inv h₀
  have hn : c.Nominated k as := run_nominated h₀ (fun _ h => nomatch h) t c hc
  refine ⟨hn, fun a w' h => ?_⟩
  obtain ⟨c', hc', hstep⟩ := step_admin hw hc h
  refine ⟨c', hc', fun hne => ?_, fun hne => ?_⟩
  · cases hstep with
    | kept _ _ _ hcompliance => exact absurd hcompliance hne
    | @updated ctx cap ca nominee hk _ hadmin _ _ _ hcompliance =>
        cases ca with
        | none => exact absurd hcompliance hne
        | some key => exact ⟨ctx, cap, nominee, by rw [hcompliance]; rfl, hk, hadmin⟩
    | accepted _ _ _ _ _ hcompliance => exact absurd hcompliance hne
  · cases hstep with
    | kept _ hadmin => exact absurd hadmin hne
    | updated _ _ _ _ hadmin => exact absurd hadmin hne
    | @accepted ctx hk hsigner hnamed hadmin hpending _ =>
        refine ⟨⟨ctx, rfl, hk, hadmin.symm, hadmin ▸ hsigner, hadmin ▸ (hn _ hnamed).2.2⟩, ?_⟩
        -- nobody stands nominated after the rotation, and the invariant of the run starts there
        intro bs w'' b v t' hb hacts
        have hw' := step_inv _ _ _ hw h
        obtain ⟨c'', hc'', hre⟩ := run_reinstated hw' hc' hne hpending t'
        rcases step_acts (t'.invariant step_inv hw') hc'' hb hacts with hadm | ⟨hpause, hauth⟩
        · exact .inl (hre hadm)
        · exact .inr ⟨hpause, c'', hc'', hauth⟩

end

open Lopsided in
/-- The issuer of the lopsided pool names the user as the admin of its first stablecoin. -/
def lopsidedNomination : List Action :=
  history ++
    [.updateConfig { admin := issuer, mint := mintA, config := .config mintA } none none (some user)]

theorem admin_rotation_lopsided :
    ∃ w w' c c', Run step (World.genesis Lopsided.addressBytes) lopsidedNomination w ∧
      w.configs (.config Lopsided.mintA) = some c ∧
      step w (.acceptAdmin { pendingAdmin := Lopsided.user, config := .config Lopsided.mintA }) =
        .ok w' ∧
      w'.configs (.config Lopsided.mintA) = some c' ∧ c'.admin ≠ c.admin ∧
      LastNominated (.config Lopsided.mintA) c.admin c'.admin lopsidedNomination := by
  have hrun : Run step (World.genesis Lopsided.addressBytes) lopsidedNomination _ :=
    run_afterAll (by decide +kernel)
  obtain ⟨c, hc, hadmin⟩ := Option.map_eq_some_iff.mp
    (show (((World.genesis Lopsided.addressBytes).afterAll lopsidedNomination).configs
      (.config Lopsided.mintA)).map (·.admin) = some Lopsided.issuer by decide +kernel)
  have haccept : Run step ((World.genesis Lopsided.addressBytes).afterAll lopsidedNomination)
      [.acceptAdmin { pendingAdmin := Lopsided.user, config := .config Lopsided.mintA }] _ :=
    run_afterAll (by decide +kernel)
  obtain ⟨c', hc', -, hchange⟩ := (admin_rotation hrun hc).2 _ _ haccept.of_one
  have hadmin' : c'.admin = Lopsided.user := by
    obtain ⟨d, hd, hdadmin⟩ := Option.map_eq_some_iff.mp
      (show ((((World.genesis Lopsided.addressBytes).afterAll lopsidedNomination).afterAll
        [.acceptAdmin { pendingAdmin := Lopsided.user, config := .config Lopsided.mintA }]).configs
        (.config Lopsided.mintA)).map (·.admin) = some Lopsided.user by decide +kernel)
    obtain rfl := Option.some.inj (hd.symm.trans hc')
    exact hdadmin
  have hne : c'.admin ≠ c.admin := by rw [hadmin, hadmin']; decide
  obtain ⟨⟨_, _, _, _, _, hlast⟩, -⟩ := hchange hne
  exact ⟨_, _, c, c', hrun, hc, haccept.of_one, hc', hne, hlast⟩

end StablecoinAmm
