import StablecoinAmm.Funding.Handlers

/-!
# Funding — the bank along a run

`Chain.execute_follows`: an instruction that creates accounts does what it does without lamports,
or its payer cannot pay.  `Chain.step_inv`: no step takes a derived address but for the account that
belongs there, so the bank and the world agree on the addresses in use in every reachable chain.
-/

namespace StablecoinAmm
open Support Ledger

/-! ### What an instruction creates -/

namespace Action

/-- The accounts an action creates. -/
def creations (rt : Runtime) (w : World) : Action → List Creation
  | .initializeStablecoin ctx symbol name uri _ _ => ctx.creations rt symbol name uri
  | .initializePool ctx _ => ctx.creations rt w
  | .grantMinter ctx _ =>
      [⟨ctx.minterRole, rt.minimumBalance MinterRole.space, MinterRole.space, .stablecoin⟩]
  | .setWalletPolicy ctx .. =>
      if w.inUse ctx.walletPolicy then []
      else [⟨ctx.walletPolicy, rt.minimumBalance WalletPolicy.space, WalletPolicy.space, .stablecoin⟩]
  | _ => []

/-- Who pays for them. -/
def payer : Action → Pubkey
  | .initializeStablecoin ctx .. => ctx.payer
  | .initializePool ctx _ => ctx.payer
  | .grantMinter ctx _ => ctx.admin
  | .setWalletPolicy ctx .. => ctx.complianceAuthority
  | _ => .default

end Action

namespace StepError

/-- The error of an address that somebody else has taken, or of a mint that owes rent. -/
def aboutCreation : StepError → Bool
  | .stablecoin (.custom e) => e.aboutMint
  | .amm (.custom e) => e.aboutChild
  | _ => false

end StepError

namespace Bank

/-- The payer has paid for the accounts `cs`, and nobody else has. -/
structure Billed (rt : Runtime) (b : Bank) (payer : Pubkey) (cs : List Creation) (b' : Bank) :
    Prop where
  covered : b.cost cs ≤ (b.info payer).spendable
  payer_info : b'.info payer =
    { b.info payer with lamports := (b.info payer).lamports - b.cost cs }
  owner : ∀ c ∈ cs, (b'.info c.target).owner = c.owner
  lamports : ∀ c ∈ cs, (b'.info c.target).lamports = max c.rentExempt (b.info c.target).lamports
  exempt : ∀ c ∈ cs, rt.isExempt (b'.info c.target) = true
  elsewhere : ∀ k, k ≠ payer → (∀ c ∈ cs, k ≠ c.target) → b'.info k = b.info k

variable {rt : Runtime} {b b' : Bank} {payer : Pubkey} {cs : List Creation}

theorem Paid.billed (h : b.Paid payer cs b')
    (hrent : ∀ c ∈ cs, rt.minimumBalance c.space ≤ c.rentExempt) : Billed rt b payer cs b' where
  covered := h.covered
  payer_info := h.payer_info
  owner c hc := congrArg AccountInfo.owner (h.target_info c hc)
  lamports c hc := congrArg AccountInfo.lamports (h.target_info c hc)
  exempt c hc := by
    rw [h.target_info c hc]
    exact decide_eq_true ((hrent c hc).trans (le_max_left _ _))
  elsewhere := h.elsewhere

/-- Lengthening one of them afterwards makes no difference, as long as it was paid for. -/
theorem Billed.resize (h : Billed rt b payer cs b') {c : Creation} (hc : c ∈ cs)
    (hne : c.target ≠ payer) {n : ℕ} (hn : rt.minimumBalance n ≤ c.rentExempt) :
    Billed rt b payer cs (b'.resize c.target n) where
  covered := h.covered
  payer_info := by rw [Bank.resize, set_of_ne _ _ hne.symm, h.payer_info]
  owner d hd := by
    by_cases he : d.target = c.target
    · rw [he, Bank.resize, set_self]
      exact he ▸ h.owner d hd
    · rw [Bank.resize, set_of_ne _ _ he]
      exact h.owner d hd
  lamports d hd := by
    by_cases he : d.target = c.target
    · rw [he, Bank.resize, set_self]
      exact he ▸ h.lamports d hd
    · rw [Bank.resize, set_of_ne _ _ he]
      exact h.lamports d hd
  exempt d hd := by
    by_cases he : d.target = c.target
    · have hle : c.rentExempt ≤ (b'.info c.target).lamports :=
        (le_max_left _ _).trans_eq (h.lamports c hc).symm
      rw [he, Bank.resize, set_self]
      exact decide_eq_true (hn.trans hle)
    · rw [Bank.resize, set_of_ne _ _ he]
      exact h.exempt d hd
  elsewhere k hk hks := by rw [Bank.resize, set_of_ne _ _ (hks c hc), h.elsewhere k hk hks]

end Bank

/-! ### Following the world -/

/-- How an error with lamports is one without. -/
def StepTranslates (e : Fault StepError) (d : StepError) : Prop :=
  (e = .code d ∧ d.aboutCreation = false) ∨ ∃ e', e = .system e'

section
variable {rt : Runtime} {s s' : Chain} {a : Action} {destination : Pubkey}

theorem Translates.step {ε : Type} {about : ε → Bool} {f : ProgramError ε → StepError}
    (hf : ∀ d, (f d).aboutCreation = match d with | .custom e => about e | _ => false)
    {e : Fault (ProgramError ε)} {d : ProgramError ε} (h : Translates about e d) :
    StepTranslates (e.map f) (f d) := by
  rcases h with ⟨rfl, h⟩ | ⟨rfl, e', rfl⟩
  · refine .inl ⟨rfl, ?_⟩
    rw [hf]
    cases d with
    | custom e => exact h e rfl
    | _ => rfl
  · exact .inr ⟨e', rfl⟩

theorem Bank.Short.map {ε ε' : Type} {b : Bank} {payer : Pubkey} {n : ℕ} {e : Fault ε}
    (h : b.Short payer n e) (f : ε → ε') : b.Short payer n (e.map f) := by
  obtain ⟨h, e', rfl⟩ := h
  exact ⟨h, e', rfl⟩

theorem grantMinter_sat (w : World) (ctx : GrantMinter) (allowance : ℕ) :
    Sat (grantMinter w ctx allowance) (fun _ => True)
      (fun e => (StepError.stablecoin e).aboutCreation = false) := by
  refine .require (fun _ => rfl) fun _ => ?_
  refine .okOr (fun _ => rfl) fun _ _ => ?_
  refine .require (fun _ => rfl) fun _ => ?_
  refine .require (fun _ => rfl) fun _ => ?_
  refine .require (fun _ => rfl) fun _ => ?_
  refine .require (fun _ => rfl) fun _ => ?_
  refine .require (fun _ => rfl) fun _ => ?_
  refine .require (fun _ => rfl) fun _ => ?_
  exact .pure trivial

theorem setWalletPolicy_sat (w : World) (ctx : SetWalletPolicy) (status : PolicyStatus) (t : ℤ) :
    Sat (setWalletPolicy w ctx status t)
      (fun _ => ctx.walletPolicy = .walletPolicy ctx.mint ctx.tokenAccount)
      (fun e => (StepError.stablecoin e).aboutCreation = false) := by
  refine .require (fun _ => rfl) fun _ => ?_
  refine .okOr (fun _ => rfl) fun _ _ => ?_
  refine .okOr (fun _ => rfl) fun _ _ => ?_
  refine .okOr (fun _ => rfl) fun _ _ => ?_
  refine .require (fun _ => rfl) fun hkey => ?_
  refine .require (fun _ => rfl) fun _ => ?_
  refine .require (fun _ => rfl) fun _ => ?_
  refine .require (fun _ => rfl) fun _ => ?_
  refine .require (fun _ => rfl) fun _ => ?_
  refine Sat.bind (P := fun _ => True) (.mapError (fun _ _ => trivial) fun _ _ => rfl) fun _ _ => ?_
  refine Sat.bind (P := fun _ => True) (.mapError (fun _ _ => trivial) fun _ _ => rfl) fun _ _ => ?_
  refine .require (fun _ => rfl) fun _ => ?_
  exact .pure hkey

/-- An instruction whose lamports Anchor moves. -/
theorem Chain.settle_follows {R : Chain → World → Prop} {F : Fault StepError → Prop}
    (herr : ∀ e, StablecoinAmm.step s.world a = .error e → e.aboutCreation = false)
    (hok : ∀ w', StablecoinAmm.step s.world a = .ok w' →
      Sat (s.settle rt destination a) (fun b => R ⟨w', b⟩ w') F)
    (hstep : s.execute rt (.act a destination) = do
      let world ← plain (StablecoinAmm.step s.world a)
      let bank ← s.settle rt destination a
      pure { world, bank }) :
    Follows R StepTranslates F (s.execute rt (.act a destination))
      (StablecoinAmm.step s.world a) := by
  rw [hstep]
  cases h : StablecoinAmm.step s.world a with
  | error e => exact .inl (.inl ⟨rfl, herr e h⟩)
  | ok w' =>
      have hsat := hok w' h
      change Follows R StepTranslates F
        (s.settle rt destination a >>= fun bank => pure ({ world := w', bank } : Chain)) (.ok w')
      cases hb : s.settle rt destination a with
      | ok b => exact hsat.ok hb
      | error e => exact hsat.error hb

/-- **An instruction that creates accounts does what it does without lamports**, or the payer
cannot pay. -/
theorem Chain.execute_follows (hs : s.Inv) (ha : a.opened ≠ []) :
    Follows
      (fun s' w' => s'.world = w' ∧ Bank.Billed rt s.bank a.payer (a.creations rt s.world) s'.bank)
      StepTranslates (s.bank.Short a.payer (s.bank.cost (a.creations rt s.world)))
      (s.execute rt (.act a destination)) (StablecoinAmm.step s.world a) := by
  cases a with
  | initializeStablecoin ctx symbol name uri decimals supplyCap =>
      have hfollows := Chain.initializeStablecoin_follows rt hs ctx symbol name uri decimals
        supplyCap
      refine (hfollows.imp ?_).mapError (fun _ _ h => Translates.step (fun d => by cases d <;> rfl) h)
        fun _ h => Bank.Short.map h _
      rintro s' w' - - ⟨hw, b, hb, hbank⟩
      have hmem : (⟨ctx.mint, rt.minimumBalance (ctx.finalLen rt symbol name uri),
          rt.mintLen initialMintExtensions, .token2022⟩ : Creation) ∈
            ctx.creations rt symbol name uri := by simp [InitializeStablecoin.creations]
      have hgrown := rt.minimumBalance_mono (ctx.grownLen_le rt symbol name uri)
      have hbase := rt.minimumBalance_mono (Nat.le_add_right (rt.mintLen initialMintExtensions)
        (rt.metadataLen (ctx.metadata symbol name uri)))
      have hrent : ∀ c ∈ ctx.creations rt symbol name uri,
          rt.minimumBalance c.space ≤ c.rentExempt :=
        List.forall_mem_cons.mpr ⟨le_rfl, List.forall_mem_singleton.mpr hbase⟩
      rw [hbank]
      exact ⟨hw, (hb.billed hrent).resize hmem (hb.ne_payer _ hmem) hgrown⟩
  | initializePool ctx feeBps =>
      have hfollows := Chain.initializePool_follows rt hs ctx feeBps
      refine (hfollows.imp ?_).mapError (fun _ _ h => Translates.step (fun d => by cases d <;> rfl) h)
        fun _ h => Bank.Short.map h _
      rintro s' w' - - ⟨hw, hb⟩
      refine ⟨hw, hb.billed fun c hc => ?_⟩
      simp only [InitializePool.creations, tokenCreation, List.mem_cons, List.not_mem_nil,
        or_false] at hc
      rcases hc with rfl | rfl | rfl | rfl | rfl <;> exact le_rfl
  | grantMinter ctx allowance =>
      refine Chain.settle_follows ?_ ?_ rfl
      · intro e he
        obtain ⟨d, hd, rfl⟩ := mapError_error_iff.mp he
        exact (grantMinter_sat _ ctx allowance).error hd
      · intro w' hw'
        obtain ⟨c, h⟩ := grantMinter_effect (mapError_ok_iff.mp hw')
        have hfree := h.minterRole_free
        have hcreate : s.bank.Creatable ctx.admin ⟨ctx.minterRole,
            rt.minimumBalance MinterRole.space, MinterRole.space, .stablecoin⟩ := by
          rw [h.minterRole_key] at hfree ⊢
          refine hs.creatable h.signer Bool.false_ne_true ?_ (by rintro ⟨⟩)
            (by decide : MinterRole.space ≤ _) (by decide) rfl
          rw [World.inUse, hfree]; rfl
        have hsat := (Bank.Paid.nil s.bank ctx.admin).step (.anchorInit StepError) hcreate
          (List.forall_mem_nil _) le_rfl
        exact .intro (fun b hb => ⟨rfl, (hsat.ok hb).billed (List.forall_mem_singleton.mpr le_rfl)⟩)
          fun e he => hsat.error he
  | setWalletPolicy ctx status t =>
      refine Chain.settle_follows ?_ ?_ rfl
      · intro e he
        obtain ⟨d, hd, rfl⟩ := mapError_error_iff.mp he
        exact (setWalletPolicy_sat _ ctx status t).error hd
      · intro w' hw'
        have hkey := (setWalletPolicy_sat _ ctx status t).ok (mapError_ok_iff.mp hw')
        obtain ⟨c, b, h⟩ := setWalletPolicy_ok (mapError_ok_iff.mp hw')
        simp only [Chain.settle, Action.creations]
        cases hu : s.world.inUse ctx.walletPolicy with
        | true =>
            rw [if_neg (hs.taken _ hu), if_pos rfl]
            exact .pure ⟨trivial, (Bank.Paid.nil s.bank ctx.complianceAuthority).billed
              (List.forall_mem_nil _)⟩
        | false =>
            have hk : ¬ ctx.walletPolicy.isSigner := by rw [hkey]; exact Bool.false_ne_true
            have hcreate : s.bank.Creatable ctx.complianceAuthority ⟨ctx.walletPolicy,
                rt.minimumBalance WalletPolicy.space, WalletPolicy.space, .stablecoin⟩ :=
              hs.creatable h.signer hk hu (by rintro ⟨⟩) (by decide : WalletPolicy.space ≤ _)
                (by decide) rfl
            rw [if_pos (hs.free _ hk hu).1, if_neg Bool.false_ne_true]
            have hsat := (Bank.Paid.nil s.bank ctx.complianceAuthority).step
              (.anchorInit StepError) hcreate (List.forall_mem_nil _) le_rfl
            exact .intro
              (fun b hb => ⟨trivial, (hsat.ok hb).billed (List.forall_mem_singleton.mpr le_rfl)⟩)
              fun e he => hsat.error he
  | _ => exact absurd rfl ha

/-! ### The invariant -/

/-- What instructions of the system program leave of an account that does not sign. -/
structure AccountInfo.Kept (a a' : AccountInfo) : Prop where
  owner : a'.owner = a.owner
  dataLen : a'.dataLen = a.dataLen
  lamports : a.lamports ≤ a'.lamports

theorem AccountInfo.Kept.refl (a : AccountInfo) : a.Kept a := ⟨rfl, rfl, le_rfl⟩

theorem AccountInfo.Kept.trans {a₁ a₂ a₃ : AccountInfo} (h : a₁.Kept a₂) (h' : a₂.Kept a₃) :
    a₁.Kept a₃ :=
  ⟨h'.owner.trans h.owner, h'.dataLen.trans h.dataLen, h.lamports.trans h'.lamports⟩

theorem AccountInfo.Kept.free {a a' : AccountInfo} (h : a.Kept a') (ha : a.IsFree) : a'.IsFree :=
  ⟨h.owner.trans ha.1, h.dataLen.trans ha.2⟩

theorem Bank.transfer_kept {b b' : Bank} {signers : List Pubkey} {source destination : Pubkey}
    {n : ℕ} (h : b.transfer signers source destination n = .ok b') {k : Pubkey} (hk : k ≠ source) :
    (b.info k).Kept (b'.info k) := by
  simp only [Bank.transfer, bind_ok_iff, okOr_ok_iff, checkedAdd_eq_some, pure_ok_iff] at h
  obtain ⟨-, -, -, -, -, -, -, -, _, ⟨-, rfl⟩, rfl⟩ := h
  by_cases hd : k = destination
  · subst hd
    rw [Bank.set_self, Bank.set_of_ne _ _ hk]
    exact ⟨rfl, rfl, Nat.le_add_right _ _⟩
  · rw [Bank.set_of_ne _ _ hd, Bank.set_of_ne _ _ hk]
    exact .refl _

theorem Bank.allocate_kept {b b' : Bank} {signers : List Pubkey} {account : Pubkey} {n : ℕ}
    (h : b.allocate signers account n = .ok b') {k : Pubkey} (hk : k ≠ account) :
    b'.info k = b.info k := by
  simp only [Bank.allocate, bind_ok_iff, pure_ok_iff] at h
  obtain ⟨-, -, -, -, -, -, rfl⟩ := h
  exact Bank.set_of_ne _ _ hk

theorem Bank.assign_kept {b b' : Bank} {signers : List Pubkey} {account : Pubkey}
    {owner : ProgramId} (h : b.assign signers account owner = .ok b') {k : Pubkey}
    (hk : k ≠ account) : b'.info k = b.info k := by
  unfold Bank.assign at h
  split at h
  · obtain rfl := pure_ok_iff.mp h
    rfl
  · simp only [bind_ok_iff, pure_ok_iff] at h
    obtain ⟨-, -, -, -, rfl⟩ := h
    exact Bank.set_of_ne _ _ hk

/-- **Whoever does not sign is only given lamports.** -/
theorem Bank.execute_kept {b b' : Bank} {i : SystemInstruction} (h : b.execute i = .ok b')
    {k : Pubkey} (hk : k ∉ i.signers) : (b.info k).Kept (b'.info k) := by
  cases i with
  | transfer source => exact Bank.transfer_kept h fun e => hk (List.mem_singleton.mpr e)
  | allocate account =>
      rw [Bank.allocate_kept h fun e => hk (List.mem_singleton.mpr e)]
      exact .refl _
  | assign account =>
      rw [Bank.assign_kept h fun e => hk (List.mem_singleton.mpr e)]
      exact .refl _
  | createAccount source account =>
      simp only [SystemInstruction.signers, List.mem_cons, List.not_mem_nil, or_false, not_or] at hk
      simp only [Bank.execute, Bank.createAccount, bind_ok_iff] at h
      obtain ⟨-, -, b₁, h₁, b₂, h₂, h₃⟩ := h
      have hkept := Bank.transfer_kept h₃ hk.1
      rwa [Bank.assign_kept h₂ hk.2, Bank.allocate_kept h₁ hk.2] at hkept

theorem Bank.close_ok {b b' : Bank} {k destination : Pubkey} (h : b.close k destination = .ok b') :
    (b'.info k).IsFree ∧ ∀ j, j ≠ k → (b.info j).Kept (b'.info j) := by
  simp only [Bank.close, bind_ok_iff, okOr_ok_iff, checkedAdd_eq_some, pure_ok_iff] at h
  obtain ⟨_, ⟨-, rfl⟩, rfl⟩ := h
  refine ⟨by rw [Bank.set_self]; exact ⟨rfl, rfl⟩, fun j hj => ?_⟩
  rw [Bank.set_of_ne _ _ hj]
  by_cases hd : j = destination
  · subst hd
    rw [Bank.set_self]
    exact ⟨rfl, rfl, Nat.le_add_right _ _⟩
  · rw [Bank.set_of_ne _ _ hd]
    exact .refl _

/-- The bank keeps up with the world. -/
theorem Chain.Inv.next (hs : s.Inv) {w' : World} {b' : Bank}
    (h : StablecoinAmm.step s.world a = .ok w')
    (hkept : ∀ k, ¬ k.isSigner → k ∉ a.opened → k ∉ a.closed →
      (b'.info k).owner = (s.bank.info k).owner ∧ (b'.info k).dataLen = (s.bank.info k).dataLen)
    (hopened : ∀ k ∈ a.opened, k ∉ a.closed → (b'.info k).owner ≠ .system)
    (hclosed : ∀ k ∈ a.closed, (b'.info k).IsFree) : Chain.Inv ⟨w', b'⟩ := by
  have huse := step_inUse hs.world hs.anchored h
  constructor
  · exact step_inv _ _ _ hs.world h
  · exact (step_effect hs.world h).anchored hs.world.shape hs.anchored
  · exact step_rooted hs.world hs.anchored hs.rooted h
  · intro k hk hu
    by_cases hc : k ∈ a.closed
    · exact hclosed k hc
    · rw [huse] at hu
      simp only [hc, decide_false, Bool.not_false, Bool.and_true, Bool.or_eq_false_iff,
        decide_eq_false_iff_not] at hu
      obtain ⟨ho, hd⟩ := hkept k hk hu.1 hc
      obtain ⟨hf, hf'⟩ := hs.free k hk hu.2
      exact ⟨ho.trans hf, hd.trans hf'⟩
  · intro k hu
    have hk := World.not_isSigner_of_inUse hu
    rw [huse] at hu
    simp only [Bool.and_eq_true, Bool.or_eq_true, decide_eq_true_eq, Bool.not_eq_true',
      decide_eq_false_iff_not] at hu
    by_cases ho : k ∈ a.opened
    · exact hopened k ho hu.2
    · rw [(hkept k hk ho hu.2).1]
      exact hs.taken k (hu.1.resolve_left ho)

theorem initializePool_keys {w w' : World} {ctx : InitializePool} {feeBps : ℕ}
    (h : StablecoinAmm.initializePool w ctx feeBps = .ok w') :
    ctx.vaultA = .vault ctx.pool ctx.mintA ∧ ctx.vaultB = .vault ctx.pool ctx.mintB ∧
      ctx.lpMint = .lpMint ctx.pool ∧ ctx.lockedLp = .lockedLp ctx.pool := by
  simp only [StablecoinAmm.initializePool, requireSeeds, bind_ok_iff, require_ok_iff] at h
  obtain ⟨-, -, _, -, _, -, _, -, _, -, -, -, -, -, -, -, -, -, -, hA, -, hB, -, hlp, -, hlk, -⟩ := h
  exact ⟨hA, hB, hlp, hlk⟩

/-- The accounts created stand at the addresses opened. -/
theorem creations_opened (rt : Runtime) {w w' : World} (h : StablecoinAmm.step w a = .ok w') :
    (∀ c ∈ a.creations rt w, c.target ∈ a.opened ∧ c.owner ≠ .system) ∧
      ∀ k ∈ a.opened, (∃ c ∈ a.creations rt w, c.target = k) ∨ w.inUse k = true := by
  cases a with
  | initializeStablecoin ctx =>
      simp [Action.creations, Action.opened, InitializeStablecoin.creations]
  | initializePool ctx =>
      obtain ⟨hA, hB, hlp, hlk⟩ := initializePool_keys (mapError_ok_iff.mp h)
      simp [Action.creations, Action.opened, InitializePool.creations, tokenCreation, hA, hB, hlp,
        hlk]
  | grantMinter ctx => simp [Action.creations, Action.opened]
  | setWalletPolicy ctx status t =>
      have hkey := (setWalletPolicy_sat w ctx status t).ok (mapError_ok_iff.mp h)
      cases hu : w.inUse ctx.walletPolicy with
      | true => simp [Action.creations, Action.opened, ← hkey, hu]
      | false => simp [Action.creations, Action.opened, ← hkey, hu]
  | _ => simp [Action.creations, Action.opened]

/-- An action that opens nothing: the world goes first, and the bank settles. -/
theorem Chain.execute_settles (ha : a.opened = []) (h : s.execute rt (.act a destination) = .ok s') :
    StablecoinAmm.step s.world a = .ok s'.world ∧ s.settle rt destination a = .ok s'.bank := by
  have hsplit : ∀ {x : Except (Fault StepError) Chain}, x = (do
      let world ← plain (StablecoinAmm.step s.world a)
      let bank ← s.settle rt destination a
      pure { world, bank }) → x = .ok s' →
        StablecoinAmm.step s.world a = .ok s'.world ∧ s.settle rt destination a = .ok s'.bank := by
    rintro x rfl hx
    simp only [plain, bind_ok_iff, mapError_ok_iff, pure_ok_iff] at hx
    obtain ⟨w', hw', b, hb, rfl⟩ := hx
    exact ⟨hw', hb⟩
  cases a with
  | initializeStablecoin | initializePool | grantMinter | setWalletPolicy => cases ha
  | _ => exact hsplit rfl h

/-- Such an action takes no derived address, and gives back the one it closes. -/
theorem Chain.settle_kept (hA : s.world.Anchored) (ha : a.opened = []) {w' : World} {b' : Bank}
    (hw : a.Effect s.world w') (h : s.settle rt destination a = .ok b') :
    (∀ k, ¬ k.isSigner → k ∉ a.closed → (s.bank.info k).Kept (b'.info k)) ∧
      ∀ k ∈ a.closed, (b'.info k).IsFree := by
  cases a with
  | initializeStablecoin | initializePool | grantMinter | setWalletPolicy => cases ha
  | revokeMinter ctx =>
      obtain ⟨hfree, hkept⟩ := Bank.close_ok (mapError_ok_iff.mp h)
      refine ⟨fun k _ hc => hkept k fun e => hc (List.mem_singleton.mpr e), fun k hk => ?_⟩
      rwa [List.mem_singleton.mp hk]
  | closeAccount account authority =>
      obtain ⟨b, hsig, hb, -, ho, -⟩ := hw
      simp only [Chain.settle, bind_ok_iff, mapError_ok_iff] at h
      obtain ⟨-, -, h⟩ := h
      have hacc := hA.signer_of hb (ho ▸ hsig)
      refine ⟨fun k hk _ => (Bank.close_ok h).2 k ?_, List.forall_mem_nil _⟩
      rintro rfl
      exact hk hacc
  | createAccount =>
      simp only [Chain.settle, bind_ok_iff, pure_ok_iff] at h
      obtain ⟨-, -, -, -, rfl⟩ := h
      exact ⟨fun k _ _ => .refl _, List.forall_mem_nil _⟩
  | _ =>
      obtain rfl := pure_ok_iff.mp h
      exact ⟨fun k _ _ => .refl _, List.forall_mem_nil _⟩

/-- **A step keeps world and bank in agreement**, and without the bank it is one of the world's. -/
theorem Chain.act_inv (hs : s.Inv) (h : s.execute rt (.act a destination) = .ok s') :
    StablecoinAmm.step s.world a = .ok s'.world ∧ s'.Inv := by
  by_cases ha : a.opened = []
  · obtain ⟨hw, hb⟩ := Chain.execute_settles ha h
    obtain ⟨hkept, hclosed⟩ := Chain.settle_kept hs.anchored ha (step_effect hs.world hw) hb
    refine ⟨hw, hs.next hw (fun k hk _ hc => ?_) (by rw [ha]; exact List.forall_mem_nil _) hclosed⟩
    exact ⟨(hkept k hk hc).owner, (hkept k hk hc).dataLen⟩
  · obtain ⟨w', hw, rfl, hbill⟩ := (Chain.execute_follows hs ha).of_ok h
    obtain ⟨htarget, hopen⟩ := creations_opened rt hw
    have hclosed : a.closed = [] := by cases a <;> first | rfl | exact absurd rfl ha
    have hkept : ∀ k, (∀ c ∈ a.creations rt s.world, k ≠ c.target) →
        (s'.bank.info k).owner = (s.bank.info k).owner ∧
          (s'.bank.info k).dataLen = (s.bank.info k).dataLen := by
      intro k hk
      by_cases hp : k = a.payer
      · rw [hp, hbill.payer_info]
        exact ⟨rfl, rfl⟩
      · rw [hbill.elsewhere k hp hk]
        exact ⟨rfl, rfl⟩
    refine ⟨hw, hs.next hw (fun k _ ho _ => ?_) (fun k ho _ => ?_)
      (by rw [hclosed]; exact List.forall_mem_nil _)⟩
    · exact hkept k fun c hc e => ho (e ▸ (htarget c hc).1)
    · by_cases hc : ∃ c ∈ a.creations rt s.world, c.target = k
      · obtain ⟨c, hc, rfl⟩ := hc
        rw [hbill.owner c hc]
        exact (htarget c hc).2
      · rw [(hkept k fun c hc' e => hc ⟨c, hc', e.symm⟩).1]
        exact hs.taken k ((hopen k ho).resolve_left hc)

/-- The addresses an action opens are derived. -/
theorem opened_derived {w w' : World} (hw : w.Inv) (hA : w.Anchored)
    (h : StablecoinAmm.step w a = .ok w') {k : Pubkey} (hk : k ∈ a.opened) : ¬ k.isSigner := by
  have hclosed : a.closed = [] := by cases a <;> first | rfl | cases hk
  refine World.not_isSigner_of_inUse (w := w') ?_
  rw [step_inUse hw hA h, hclosed]
  simp [hk]

/-- In the bank, instructions of the system program only give. -/
theorem Chain.system_kept {i : SystemInstruction} (h : s.execute rt (.system i) = .ok s') :
    (∀ k ∈ i.signers, k.isSigner) ∧ s'.world = s.world ∧
      ∀ k, k ∉ i.signers → (s.bank.info k).Kept (s'.bank.info k) := by
  simp only [Chain.execute, bind_ok_iff, require_ok_iff, mapError_ok_iff, pure_ok_iff] at h
  obtain ⟨-, hsig, b, hb, rfl⟩ := h
  exact ⟨hsig, rfl, fun k hk => Bank.execute_kept hb hk⟩

/-- A step is what the instruction does, as far as the runtime lets it. -/
theorem Chain.step_ok_iff {x : ChainAction} :
    s.step rt x = .ok s' ↔
      s.execute rt x = .ok s' ∧ ∀ k ∈ x.funded, rt.RentKept (s.bank.info k) (s'.bank.info k) := by
  simp only [Chain.step, bind_ok_iff, require_ok_iff, pure_ok_iff]
  constructor
  · rintro ⟨s₁, hx, -, hrent, rfl⟩
    exact ⟨hx, hrent⟩
  · rintro ⟨hx, hrent⟩
    exact ⟨s', hx, (), hrent, rfl⟩

theorem Chain.step_inv (s : Chain) (x : ChainAction) (s' : Chain) (hs : s.Inv)
    (h : s.step rt x = .ok s') : s'.Inv := by
  obtain ⟨h, -⟩ := Chain.step_ok_iff.mp h
  cases x with
  | act a destination => exact (Chain.act_inv hs h).2
  | system i =>
      obtain ⟨hsig, hw, hkept⟩ := Chain.system_kept h
      have hderived : ∀ {k}, ¬ k.isSigner → (s.bank.info k).Kept (s'.bank.info k) := fun hk =>
        hkept _ fun hi => hk (hsig _ hi)
      exact
        { world := hw ▸ hs.world
          anchored := hw ▸ hs.anchored
          rooted := hw ▸ hs.rooted
          free := fun k hk hu => (hderived hk).free (hs.free k hk (hw ▸ hu))
          taken := fun k hu => by
            rw [(hderived (World.not_isSigner_of_inUse hu)).owner]
            exact hs.taken k (hw ▸ hu) }

/-- Some run from genesis ends in `s`. -/
def Chain.Reachable (rt : Runtime) (s : Chain) : Prop :=
  Support.Reachable (Chain.step rt) Chain.IsGenesis s

theorem Chain.IsGenesis.inv (h : s.IsGenesis) : s.Inv := by
  obtain ⟨⟨bytes, hw⟩, hd⟩ := h
  obtain ⟨w, b⟩ := s
  dsimp only at hw hd
  subst hw
  exact
    { world := inv_genesis bytes
      anchored := anchored_genesis bytes
      rooted := rooted_genesis bytes
      free := fun k hk _ => hd k hk
      taken := fun k hu => by cases k <;> cases hu }

theorem Chain.Reachable.inv (h : s.Reachable rt) : s.Inv :=
  Support.Reachable.invariant (fun _ => Chain.IsGenesis.inv) Chain.step_inv h

/-- **Lamports add no behaviour**: every run of the chain is one of the world. -/
theorem Chain.Reachable.world (h : s.Reachable rt) : s.world.Reachable := by
  obtain ⟨s₀, xs, h₀, hr⟩ := h
  refine ⟨s₀.world, _, h₀.world, hr.follows Chain.world
    (fun x => match x with | .act a _ => some a | .system _ => none) Chain.step_inv ?_ h₀.inv⟩
  intro s x s' hs hx
  obtain ⟨hx, -⟩ := Chain.step_ok_iff.mp hx
  cases x with
  | act a destination => exact (Chain.act_inv hs hx).1
  | system i => exact (Chain.system_kept hx).2.1

end

end StablecoinAmm
