import StablecoinAmm.Funding.Addresses
import StablecoinAmm.Funding.Creation
import StablecoinAmm.Support.Simulation

/-!
# Funding — the handlers that create accounts

`initialize_stablecoin` and `initialize_pool`, with their lamports, follow the same instructions
without: what they ask of the bank about an address is what the others ask of the world, and
beyond that they fail only when the payer cannot pay.  In particular none of the errors that the
programs have for an address in use or a mint that owes rent is ever seen.

The invariant between the world and the bank is `Chain.Inv`: a derived address is in use in the
one exactly when a program has taken it in the other.
-/

namespace StablecoinAmm
open Support Ledger

/-! ### The accounts an instruction creates -/

/-- The metadata that the handler writes. -/
def InitializeStablecoin.metadata (ctx : InitializeStablecoin) (symbol : Symbol)
    (name uri : List UInt8) : TokenMetadata :=
  { updateAuthority := ctx.config, mint := ctx.mint, name,
    symbol := symbol.1.takeWhile (· ≠ 0), uri }

/-- `final_len`. -/
def InitializeStablecoin.finalLen (rt : Runtime) (ctx : InitializeStablecoin) (symbol : Symbol)
    (name uri : List UInt8) : ℕ :=
  rt.mintLen initialMintExtensions + rt.metadataLen (ctx.metadata symbol name uri)

/-- The length that the mint ends up with. -/
def InitializeStablecoin.grownLen (rt : Runtime) (ctx : InitializeStablecoin) (symbol : Symbol)
    (name uri : List UInt8) : ℕ :=
  rt.mintLen initialMintExtensions + rt.metadataGrowth (ctx.metadata symbol name uri)

def InitializeStablecoin.creations (rt : Runtime) (ctx : InitializeStablecoin) (symbol : Symbol)
    (name uri : List UInt8) : List Creation :=
  [⟨ctx.config, rt.minimumBalance MintConfig.space, MintConfig.space, .stablecoin⟩,
    ⟨ctx.mint, rt.minimumBalance (ctx.finalLen rt symbol name uri), rt.mintLen initialMintExtensions,
      .token2022⟩]

def mintExtensionsOf (w : World) (k : Pubkey) : List ExtensionType :=
  (w.ledger.mints k).elim [] (·.extensions)

/-- A mint or a token account. -/
def tokenCreation (rt : Runtime) (target : Pubkey) (space : ℕ) : Creation :=
  ⟨target, rt.minimumBalance space, space, .token2022⟩

def InitializePool.creations (rt : Runtime) (w : World) (ctx : InitializePool) : List Creation :=
  [⟨ctx.pool, rt.minimumBalance Pool.space, Pool.space, .amm⟩,
    tokenCreation rt ctx.vaultA (rt.tokenLen (mintExtensionsOf w ctx.mintA)),
    tokenCreation rt ctx.vaultB (rt.tokenLen (mintExtensionsOf w ctx.mintB)),
    tokenCreation rt ctx.lpMint (rt.mintLen []), tokenCreation rt ctx.lockedLp (rt.tokenLen [])]

/-- What each address holds, as far as lamports do not enter. -/
structure Chain.Inv (s : Chain) : Prop where
  world : s.world.Inv
  anchored : s.world.Anchored
  rooted : s.world.Rooted
  free : ∀ k, ¬ k.isSigner → s.world.inUse k = false → (s.bank.info k).IsFree
  taken : ∀ k, s.world.inUse k = true → (s.bank.info k).owner ≠ .system

/-- The errors of an address or a rent that the programs check themselves. -/
def StablecoinError.aboutMint : StablecoinError → Bool
  | .mintAccountInUse | .mintNotRentExempt => true
  | _ => false

def AmmError.aboutChild : AmmError → Bool
  | .childAccountInUse => true
  | _ => false

/-- How an error of the instruction is one of the program without lamports. -/
def Translates {ε : Type} (about : ε → Bool) (e : Fault (ProgramError ε)) (d : ProgramError ε) :
    Prop :=
  (e = .code d ∧ ∀ e', d = .custom e' → about e' = false) ∨
    (d = .anchor .accountAlreadyInUse ∧ ∃ e', e = .system e')

namespace Translates
variable {ε : Type} {about : ε → Bool}

theorem anchor (e : AnchorError) : Translates about (.code (.anchor e)) (.anchor e) :=
  .inl ⟨rfl, by rintro _ ⟨⟩⟩

theorem token (e : TokenError) : Translates about (.code (.token e)) (.token e) :=
  .inl ⟨rfl, by rintro _ ⟨⟩⟩

theorem custom {e : ε} (h : about e = false) : Translates about (.code (.custom e)) (.custom e) := by
  refine .inl ⟨rfl, ?_⟩
  rintro _ ⟨⟩
  exact h

end Translates

section
variable {rt : Runtime} {s : Chain}

theorem InitializeStablecoin.grownLen_le (rt : Runtime) (ctx : InitializeStablecoin)
    (symbol : Symbol) (name uri : List UInt8) :
    ctx.grownLen rt symbol name uri ≤ ctx.finalLen rt symbol name uri :=
  Nat.add_le_add_left (rt.metadataGrowth_le _) _

theorem normalizeSymbol_ok {symbol : Symbol} {text : List UInt8}
    (h : normalizeSymbol symbol = .ok text) : text = symbol.1.takeWhile (· ≠ 0) := by
  simp only [normalizeSymbol, bind_ok_iff, pure_ok_iff] at h
  obtain ⟨-, -, h⟩ := h
  exact h.symm

theorem normalizeSymbol_error {symbol : Symbol} {e : ProgramError StablecoinError}
    (h : normalizeSymbol symbol = .error e) : e = .custom .invalidSymbol := by
  simp only [normalizeSymbol, ensure, bind_error_iff, require_error_iff] at h
  rcases h with ⟨-, h⟩ | ⟨-, -, h⟩
  · exact h.symm
  · cases h

theorem Chain.Inv.creatable (hs : s.Inv) {payer : Pubkey} {c : Creation} (hp : payer.isSigner)
    (hk : ¬ c.target.isSigner) (hu : s.world.inUse c.target = false) (ho : c.owner ≠ .system)
    (hle : c.space ≤ maxPermittedDataLength) {n : ℕ} (hn : n ≤ maxPermittedDataLength)
    (hrent : c.rentExempt = rt.minimumBalance n) : s.bank.Creatable payer c where
  free := hs.free _ hk hu
  ne_payer := by
    rintro h
    rw [h] at hk
    exact hk hp
  owner := ho
  space_le := hle
  rentExempt_pos := hrent ▸ rt.minimumBalance_pos n
  rentExempt_lt := hrent ▸ rt.minimumBalance_lt n hn

theorem Chain.initializeStablecoin_follows (rt : Runtime) (hs : s.Inv) (ctx : InitializeStablecoin)
    (symbol : Symbol) (name uri : List UInt8) (decimals supplyCap : ℕ) :
    Follows
      (fun s' w' => s'.world = w' ∧ ∃ b, s.bank.Paid ctx.payer (ctx.creations rt symbol name uri) b ∧
        s'.bank = b.resize ctx.mint (ctx.grownLen rt symbol name uri))
      (Translates StablecoinError.aboutMint)
      (s.bank.Short ctx.payer (s.bank.cost (ctx.creations rt symbol name uri)))
      (s.initializeStablecoin rt ctx symbol name uri decimals supplyCap)
      (StablecoinAmm.initializeStablecoin s.world ctx symbol name uri decimals supplyCap) := by
  refine .check (.anchor _) fun hsig => ?_
  refine .check (.anchor _) fun hck => ?_
  have hcne : ctx.config ≠ ctx.payer := by
    rw [hck]
    rintro h
    rw [← h] at hsig
    cases hsig
  cases hc : s.world.configs ctx.config with
  | some c =>
      have hu : s.world.inUse ctx.config = true := by rw [hck] at hc ⊢; exact inUse_config hc
      have htaken : ¬ (s.bank.info ctx.config).IsFree := fun h => hs.taken _ hu h.1
      obtain ⟨e, he⟩ := Bank.initAccount_taken htaken hcne .stablecoin
        (rt.minimumBalance MintConfig.space) MintConfig.space
      exact .both he rfl (.inr ⟨rfl, e, rfl⟩)
  | none =>
  have hu : s.world.inUse ctx.config = false := by
    rw [hck] at hc ⊢
    rw [World.inUse, hc]; rfl
  set cs := ctx.creations rt symbol name uri with hcs
  set cConfig : Creation :=
    ⟨ctx.config, rt.minimumBalance MintConfig.space, MintConfig.space, .stablecoin⟩ with hcConfig
  have hcreate : s.bank.Creatable ctx.payer cConfig :=
    hs.creatable hsig (by rw [hcConfig, hck]; exact Bool.false_ne_true) hu (by rintro ⟨⟩)
      (by decide : MintConfig.space ≤ maxPermittedDataLength) (by decide) rfl
  refine .ahead ((Bank.Paid.nil s.bank ctx.payer).step (.anchorInit _) hcreate
    (List.forall_mem_nil _) (Bank.cost_append_le s.bank [cConfig] _)) fun b₁ hb₁ => ?_
  refine .passed rfl ?_
  refine .check (.anchor _) fun hmk => ?_
  refine .check (.custom rfl) fun _ => ?_
  refine .check (.custom rfl) fun _ => ?_
  refine .check (.custom rfl) fun _ => ?_
  refine .check (.custom rfl) fun hname => ?_
  refine .check (.custom rfl) fun huri => ?_
  refine .seq (fun d hd => .inl ⟨rfl, ?_⟩) fun text htext => ?_
  · rw [normalizeSymbol_error hd]
    rintro _ ⟨⟩; rfl
  obtain rfl := normalizeSymbol_ok htext
  -- a mint that is there has a configuration
  have hmint : s.world.ledger.mints ctx.mint = none := by
    cases hM : s.world.ledger.mints ctx.mint with
    | none => rfl
    | some M =>
        obtain ⟨c, hc'⟩ := hs.world.shape.isStablecoin_of_mint hM ⟨symbol, hmk⟩
        rw [hck, hc'] at hc
        cases hc
  refine .passed (require_of (by rw [hmint]; rfl) _) ?_
  have hum : s.world.inUse ctx.mint = false := by
    rw [hmk] at hmint ⊢
    rw [World.inUse, hmint]; rfl
  set cMint : Creation := ⟨ctx.mint, rt.minimumBalance (ctx.finalLen rt symbol name uri),
    rt.mintLen initialMintExtensions, .token2022⟩ with hcMint
  have hfinal : ctx.finalLen rt symbol name uri ≤ maxPermittedDataLength := by
    apply rt.mintLen_le _ hname.2 _ huri.2
    exact (List.takeWhile_prefix _).length_le.trans_eq symbol.2
  have hcreate' : s.bank.Creatable ctx.payer cMint :=
    hs.creatable hsig (by rw [hcMint, hmk]; exact Bool.false_ne_true) hum (by rintro ⟨⟩)
      ((Nat.le_add_right _ _).trans hfinal) hfinal rfl
  refine .ahead (hb₁.step (.derived _) hcreate' (by simp [hcConfig, hcMint, hck, hmk]) le_rfl)
    fun b₂ hb₂ => ?_
  have hinfo : b₂.info ctx.mint = s.bank.created cMint := hb₂.target_info cMint (by simp)
  have hrent : rt.minimumBalance (ctx.finalLen rt symbol name uri) ≤ (b₂.info ctx.mint).lamports := by
    rw [hinfo]; exact le_max_left _ _
  have hexempt : rt.isExempt (b₂.info ctx.mint) = true := by
    refine decide_eq_true ((rt.minimumBalance_mono ?_).trans hrent)
    rw [hinfo]; exact Nat.le_add_right _ _
  refine .sure (require_of hexempt _) ?_
  refine .seq (fun d hd => .inl ⟨rfl, ?_⟩) fun l hl => ?_
  · obtain ⟨e, -, rfl⟩ := mapError_error_iff.mp hd
    rintro _ ⟨⟩
  have hexempt' : rt.isExempt ((b₂.resize ctx.mint (ctx.grownLen rt symbol name uri)).info
      ctx.mint) = true := by
    rw [Bank.resize, Bank.set_self]
    exact decide_eq_true ((rt.minimumBalance_mono (ctx.grownLen_le rt symbol name uri)).trans hrent)
  refine .sure (require_of hexempt' _) ?_
  exact .pure ⟨rfl, b₂, hb₂, rfl⟩

/-- Creating a mint or token account at a free address, and Token-2022's look at it. -/
theorem createPdaAccount_follows {b b₁ : Bank} {payer target : Pubkey} {cs : List Creation}
    {space n : ℕ} {α β δ : Type} {R : α → β → Prop} {T : Fault (ProgramError AmmError) → δ → Prop}
    {f : Bank → Except (Fault (ProgramError AmmError)) α} {y : Except δ β}
    (hpaid : b.Paid payer cs b₁) (hc : b.Creatable payer (tokenCreation rt target space))
    (hnew : ∀ d ∈ cs, target ≠ d.target)
    (hle : b.cost (cs ++ [tokenCreation rt target space]) ≤ n)
    (hf : ∀ b₂, b.Paid payer (cs ++ [tokenCreation rt target space]) b₂ →
      Follows R T (b.Short payer n) (f b₂) y) :
    Follows R T (b.Short payer n)
      (do let b₂ ← createPdaAccount rt b₁ payer target .token2022 space
          requireExempt rt b₂ target
          f b₂) y := by
  refine .ahead (hpaid.step (.derived _) hc hnew hle) fun b₂ hb₂ => ?_
  have hinfo : b₂.info target = b.created (tokenCreation rt target space) :=
    hb₂.target_info (tokenCreation rt target space) (by simp)
  have hexempt : rt.isExempt (b₂.info target) = true := by
    refine decide_eq_true ?_
    rw [hinfo]; exact le_max_left _ _
  exact .sure (require_of hexempt _) (hf b₂ hb₂)

/-- One of the vaults. -/
theorem createVaultAccount_follows {b b₁ : Bank} {l : Ledger} {payer vault mint pool : Pubkey}
    {cs : List Creation} {n : ℕ} {M : Mint} (hM : l.mints mint = some M)
    (hfree : l.tokens vault = none) (hpaid : b.Paid payer cs b₁)
    (hc : rt.tokenLen M.extensions ≤ maxPermittedDataLength →
      b.Creatable payer (tokenCreation rt vault (rt.tokenLen M.extensions)))
    (hnew : ∀ d ∈ cs, vault ≠ d.target)
    (hle : b.cost (cs ++ [tokenCreation rt vault (rt.tokenLen M.extensions)]) ≤ n) :
    Follows
      (fun lb l' => lb.1 = l' ∧ l' = l.setToken vault (emptyAccount mint pool M.defaultState false) ∧
        b.Paid payer (cs ++ [tokenCreation rt vault (rt.tokenLen M.extensions)]) lb.2)
      (Translates AmmError.aboutChild) (b.Short payer n)
      (createVaultAccount rt l b₁ payer vault mint pool) (createVault l vault mint pool) := by
  have hmint : (invoke (l.mint mint) : Except (ProgramError AmmError) Mint) = .ok M := by
    rw [invoke, Ledger.mint, hM]; rfl
  refine .passed hmint ?_
  by_cases hsup : M.extensions.all (· ∈ supportedMintExtensions)
  · have hspace : vaultSpace rt l mint = .ok (rt.tokenLen M.extensions) := by
      rw [vaultSpace, hmint, ok_bind, ensure, require_of hsup]; rfl
    have hlen : rt.tokenLen M.extensions ≤ maxPermittedDataLength := by
      refine rt.tokenLen_le _ fun x hx => ?_
      simpa using List.all_eq_true.mp hsup x hx
    refine .sure (by rw [hspace]; rfl) ?_
    refine .passed (require_of hsup _) ?_
    refine .passed (require_of (by rw [hfree]; rfl) _) ?_
    refine createPdaAccount_follows hpaid (hc hlen) hnew hle fun b₂ hb₂ => ?_
    have hinit : (invoke (l.initializeAccount3 vault mint pool false) :
        Except (ProgramError AmmError) Ledger) =
          .ok (l.setToken vault (emptyAccount mint pool M.defaultState false)) := by
      rw [invoke, initializeAccount3, require_of hfree, ok_bind, Ledger.mint, hM]; rfl
    rw [hinit]
    exact ⟨rfl, rfl, hb₂⟩
  · have hspace : vaultSpace rt l mint = .error (.custom .unsupportedMintExtension) := by
      rw [vaultSpace, hmint, ok_bind, ensure, require_not hsup]; rfl
    refine .both (by rw [hspace]; rfl) (require_not hsup _) ?_
    exact .custom rfl

theorem requireConfig_error {key mint : Pubkey} {c : MintConfig} {e : ProgramError AmmError}
    (h : requireConfig key mint c = .error e) :
    e = .anchor .constraintSeeds ∨ e = .custom .invalidStablecoinConfig := by
  simp only [requireConfig, requireSeeds, ensure, bind_error_iff, require_error_iff] at h
  rcases h with ⟨-, h⟩ | ⟨-, -, -, h⟩
  · exact .inl h.symm
  · exact .inr h.symm

theorem Chain.initializePool_follows (rt : Runtime) (hs : s.Inv) (ctx : InitializePool) (feeBps : ℕ) :
    Follows
      (fun s' w' => s'.world = w' ∧
        s.bank.Paid ctx.payer (ctx.creations rt s.world) s'.bank)
      (Translates AmmError.aboutChild)
      (s.bank.Short ctx.payer (s.bank.cost (ctx.creations rt s.world)))
      (s.initializePool rt ctx feeBps) (StablecoinAmm.initializePool s.world ctx feeBps) := by
  have hw := hs.world.shape
  -- what neither reads nor creates an account is the same on both sides
  have hload : ∀ {α : Type} {o : Option α} {e : ProgramError AmmError}, load o = .error e →
      Translates AmmError.aboutChild (.code e) e := by
    intro α o e h
    obtain ⟨-, rfl⟩ := okOr_error_iff.mp h
    exact .anchor _
  have hcfg : ∀ {key mint : Pubkey} {c : MintConfig} {e : ProgramError AmmError},
      requireConfig key mint c = .error e → Translates AmmError.aboutChild (.code e) e := by
    intro key mint c e h
    rcases requireConfig_error h with rfl | rfl
    · exact .anchor _
    · exact .custom rfl
  refine .check (.anchor _) fun hsig => ?_
  refine .seq (fun _ => hload) fun mA hmA => ?_
  refine .seq (fun _ => hload) fun mB hmB => ?_
  refine .seq (fun _ => hload) fun cA _ => ?_
  refine .seq (fun _ => hload) fun cB _ => ?_
  rw [load, okOr_ok_iff] at hmA hmB
  refine .check (.anchor _) fun hpk => ?_
  have hpne : ctx.pool ≠ ctx.payer := by
    rw [hpk]
    rintro h
    rw [← h] at hsig
    cases hsig
  cases hp : s.world.pools ctx.pool with
  | some P =>
      have hu : s.world.inUse ctx.pool = true := by
        rw [hpk] at hp ⊢
        rw [World.inUse, hp]; rfl
      have htaken : ¬ (s.bank.info ctx.pool).IsFree := fun h => hs.taken _ hu h.1
      obtain ⟨e, he⟩ := Bank.initAccount_taken htaken hpne .amm (rt.minimumBalance Pool.space)
        Pool.space
      exact .both he rfl (.inr ⟨rfl, e, rfl⟩)
  | none =>
  have hchild : ∀ k, k.parent = some ctx.pool → s.world.inUse k = false := by
    intro k hk
    by_contra hu
    obtain ⟨P, hP⟩ := hs.rooted k ctx.pool hk (by simpa using hu)
    cases hp.symm.trans hP
  have hu : s.world.inUse ctx.pool = false := by
    rw [hpk] at hp ⊢
    rw [World.inUse, hp]; rfl
  set cPool : Creation := ⟨ctx.pool, rt.minimumBalance Pool.space, Pool.space, .amm⟩ with hcPool
  have hcreations : ctx.creations rt s.world =
      [cPool, tokenCreation rt ctx.vaultA (rt.tokenLen mA.extensions),
        tokenCreation rt ctx.vaultB (rt.tokenLen mB.extensions),
        tokenCreation rt ctx.lpMint (rt.mintLen []),
        tokenCreation rt ctx.lockedLp (rt.tokenLen [])] := by
    rw [InitializePool.creations, mintExtensionsOf, mintExtensionsOf, hmA, hmB]; rfl
  rw [hcreations]
  have hcreate : s.bank.Creatable ctx.payer cPool :=
    hs.creatable hsig (by rw [hcPool, hpk]; exact Bool.false_ne_true) hu (by rintro ⟨⟩)
      (by decide : Pool.space ≤ maxPermittedDataLength) (by decide) rfl
  refine .ahead ((Bank.Paid.nil s.bank ctx.payer).step (.anchorInit _) hcreate
    (List.forall_mem_nil _) (Bank.cost_append_le s.bank [cPool] _)) fun b₁ hb₁ => ?_
  refine .passed rfl ?_
  refine .seq (fun _ => hcfg) fun _ _ => ?_
  refine .seq (fun _ => hcfg) fun _ _ => ?_
  refine .check (.anchor _) fun hvA => ?_
  refine .check (.anchor _) fun hvB => ?_
  refine .check (.anchor _) fun hlp => ?_
  refine .check (.anchor _) fun hlk => ?_
  refine .check (.custom rfl) fun hne => ?_
  refine .check (.custom rfl) fun _ => ?_
  refine .check (.custom rfl) fun _ => ?_
  refine .check (.custom rfl) fun _ => ?_
  have hlater : ∀ {k space}, k = .vault ctx.pool ctx.mintA ∨ k = .vault ctx.pool ctx.mintB ∨
      k = .lpMint ctx.pool ∨ k = .lockedLp ctx.pool → space ≤ maxPermittedDataLength →
      s.bank.Creatable ctx.payer (tokenCreation rt k space) := by
    intro k space hk hle
    refine hs.creatable hsig ?_ ?_ (by rintro ⟨⟩) hle hle rfl
    · rcases hk with rfl | rfl | rfl | rfl <;> exact Bool.false_ne_true
    · rcases hk with rfl | rfl | rfl | rfl
      · exact hchild _ rfl
      · exact hchild _ rfl
      · exact congrArg Option.isSome (hw.lpMint_of_none hp)
      · exact hchild _ rfl
  have htoken : ∀ {k}, k.parent = some ctx.pool → s.world.ledger.tokens k = none := by
    intro k hk
    have := hchild k hk
    cases k with
    | vault | lockedLp => simpa [World.inUse] using this
    | _ => cases hk
  have hvne : ctx.vaultB ≠ ctx.vaultA := by
    rw [hvA, hvB]
    exact fun h => hne (Pubkey.vault.inj h).2.symm
  refine Follows.bind (createVaultAccount_follows hmA (htoken (by rw [hvA]; rfl)) hb₁
    (hlater (.inl hvA)) (by simp [hcPool, hpk, hvA]) (Bank.cost_append_le s.bank [cPool, _] _)) ?_
  rintro ⟨l, b₂⟩ _ ⟨rfl, rfl, hb₂⟩
  have hfreeB : (s.world.ledger.setToken ctx.vaultA
      (emptyAccount ctx.mintA ctx.pool mA.defaultState false)).tokens ctx.vaultB = none := by
    rw [setToken_tokens_of_ne _ _ _ hvne]
    exact htoken (by rw [hvB]; rfl)
  refine Follows.bind (createVaultAccount_follows hmB hfreeB hb₂ (hlater (.inr (.inl hvB)))
    (by simp [hcPool, hpk, hvB, hvA, tokenCreation, Ne.symm hne])
    (Bank.cost_append_le s.bank [cPool, _, _] _)) ?_
  rintro ⟨l, b₃⟩ _ ⟨rfl, rfl, hb₃⟩
  refine .passed (require_of ?_ _) ?_
  · rw [hlp]
    exact Option.isNone_iff_eq_none.mpr (hw.lpMint_of_none hp)
  refine createPdaAccount_follows hb₃ (hlater (.inr (.inr (.inl hlp))) rt.lpMintLen_le)
    (by simp [hcPool, hpk, hvB, hvA, hlp, tokenCreation])
    (Bank.cost_append_le s.bank [cPool, _, _, _] _) fun b₄ hb₄ => ?_
  refine .seq (fun d hd => ?_) fun l hl => ?_
  · obtain ⟨e, -, rfl⟩ := mapError_error_iff.mp hd
    exact .token _
  obtain rfl := initializeLpMint_ok (mapError_ok_iff.mp hl)
  refine .passed (require_of ?_ _) ?_
  · rw [hlk, setMint_tokens, setToken_tokens_of_ne _ _ _ (by rw [hvB]; rintro ⟨⟩),
      setToken_tokens_of_ne _ _ _ (by rw [hvA]; rintro ⟨⟩), htoken rfl]; rfl
  refine createPdaAccount_follows hb₄
    (hlater (.inr (.inr (.inr hlk))) (rt.tokenLen_le [] (List.forall_mem_nil _)))
    (by simp [hcPool, hpk, hvB, hvA, hlp, hlk, tokenCreation]) le_rfl fun b₅ hb₅ => ?_
  refine .seq (fun d hd => ?_) fun l hl => ?_
  · obtain ⟨e, -, rfl⟩ := mapError_error_iff.mp hd
    exact .token _
  exact .pure ⟨rfl, hb₅⟩

end

end StablecoinAmm
