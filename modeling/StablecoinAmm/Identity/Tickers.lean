import StablecoinAmm.Identity.Mints
import StablecoinAmm.Support.Padding
import StablecoinAmm.System.ClusterHistory

/-!
# Identity — tickers

A stablecoin is created for a symbol of eight bytes.  The address of its mint is derived from all
eight; what wallets display, the symbol in the metadata of the mint, is the part before the
zeros.  `normalize_symbol` accepts exactly the zero-padded alphanumeric texts
(`normalizeSymbol_iff`), so the displayed text determines the address.  Since mints stay what they
are, a ticker once issued belongs to one stablecoin for ever (`tickers`).
-/

namespace StablecoinAmm
open Support Ledger

/-! ### Symbols -/

/-- What a stablecoin can be called. -/
structure IsTicker (text : List UInt8) : Prop where
  ne_nil : text ≠ []
  alphanumeric : ∀ b ∈ text, isAsciiAlphanumeric b

theorem IsTicker.clean {text : List UInt8} (h : IsTicker text) : 0 ∉ text := by
  intro h0
  exact absurd (h.alphanumeric 0 h0) (by decide)

/-- **What `normalize_symbol` accepts, and as what.** -/
theorem normalizeSymbol_iff {symbol : Symbol} {text : List UInt8} :
    normalizeSymbol symbol = .ok text ↔ IsTicker text ∧ Padded 0 symbol.1 text := by
  simp only [normalizeSymbol, ensure, bind_ok_iff, require_ok_iff, pure_ok_iff, exists_const,
    padded_iff, List.all_eq_true, decide_eq_true_eq]
  constructor
  · rintro ⟨⟨hne, htext, hpad⟩, rfl⟩
    exact ⟨⟨hne, htext⟩, rfl, hpad⟩
  · rintro ⟨ht, rfl, hpad⟩
    exact ⟨⟨ht.ne_nil, ht.alphanumeric, hpad⟩, rfl⟩

/-- The symbol a ticker is issued under. -/
def Symbol.of (text : List UInt8) (h : text.length ≤ 8) : Symbol :=
  ⟨text.rightpad 8 0, by rw [List.length_rightpad, max_eq_left h]⟩

theorem Symbol.padded_of {text : List UInt8} (ht : IsTicker text) (h : text.length ≤ 8) :
    Padded 0 (Symbol.of text h).1 text :=
  padded_rightpad ht.clean h

/-- One ticker, one symbol. -/
theorem Symbol.eq_of_padded {s s' : Symbol} {text : List UInt8} (h : Padded 0 s.1 text)
    (h' : Padded 0 s'.1 text) : s = s' :=
  Subtype.ext (h.injective h' (s.2.trans s'.2.symm))

/-! ### What a mint says of itself -/

/-- A mint and its metadata, as those of the stablecoin `c` at `k`. -/
structure Mint.Describes (k : Pubkey) (c : MintConfig) (M : Mint) (T : TokenMetadata) : Prop where
  metadata : M.metadata = some T
  mint : T.mint = c.mint
  updateAuthority : T.updateAuthority = k
  ticker : IsTicker T.symbol
  symbol : Padded 0 c.symbol.1 T.symbol
  name : T.name ≠ [] ∧ T.name.length ≤ maxNameLen
  uri : T.uri ≠ [] ∧ T.uri.length ≤ maxUriLen
  decimals : M.decimals = stablecoinDecimals
  extensions : M.extensions = mintExtensions

theorem Mint.Describes.kept {k : Pubkey} {c c' : MintConfig} {M M' : Mint} {T : TokenMetadata}
    (h : M.Describes k c T) (hM : M'.identity = M.identity) (hm : c'.mint = c.mint)
    (hs : c'.symbol = c.symbol) : M'.Describes k c' T := by
  obtain ⟨hd, he, ht, -⟩ := Mint.identity_eq hM
  exact
    { h with
      metadata := ht.trans h.metadata
      mint := h.mint.trans hm.symm
      symbol := hs ▸ h.symbol
      decimals := hd.trans h.decimals
      extensions := he.trans h.extensions }

/-- The mint of every stablecoin describes it. -/
def World.Described (w : World) : Prop :=
  ∀ k c, w.configs k = some c → ∃ M T, w.ledger.mints c.mint = some M ∧ M.Describes k c T

/-! ### `initialize_stablecoin` -/

/-- The arguments and accounts that `initialize_stablecoin` accepts, whoever came before. -/
structure InitializeStablecoin.Proper (ctx : InitializeStablecoin) (symbol : Symbol)
    (name uri : List UInt8) (decimals supplyCap : ℕ) (text : List UInt8) : Prop where
  signer : ctx.payer.isSigner
  config_key : ctx.config = .config ctx.mint
  mint_key : ctx.mint = .mint symbol
  decimals : decimals = stablecoinDecimals
  supplyCap : 0 < supplyCap ∧ supplyCap ≤ maxSupplyCap
  name : name ≠ [] ∧ name.length ≤ maxNameLen
  uri : uri ≠ [] ∧ uri.length ≤ maxUriLen
  ticker : IsTicker text
  symbol : Padded 0 symbol.1 text

/-- The mint it creates. -/
def InitializeStablecoin.newMint (ctx : InitializeStablecoin) (name text uri : List UInt8) :
    Mint where
  mintAuthority := some ctx.config
  supply := 0
  decimals := stablecoinDecimals
  freezeAuthority := some ctx.config
  extensions := mintExtensions
  defaultState := .frozen
  pausable := some { authority := ctx.config, paused := false }
  metadata := some { updateAuthority := ctx.config, mint := ctx.mint, name, symbol := text, uri }

/-- And the configuration. -/
def InitializeStablecoin.newConfig (ctx : InitializeStablecoin) (symbol : Symbol)
    (supplyCap : ℕ) : MintConfig where
  admin := ctx.payer
  pendingAdmin := none
  complianceAuthority := ctx.payer
  mint := ctx.mint
  symbol := symbol
  decimals := stablecoinDecimals
  supplyCap := supplyCap
  totalMinted := 0
  totalBurned := 0
  paused := false

section
variable {w w' : World} {ctx : InitializeStablecoin} {symbol : Symbol} {name uri text : List UInt8}
  {decimals supplyCap : ℕ}

/-- **When a stablecoin is created, and what that is.** -/
theorem initializeStablecoin_iff :
    initializeStablecoin w ctx symbol name uri decimals supplyCap = .ok w' ↔
      w.configs ctx.config = none ∧ w.ledger.mints ctx.mint = none ∧
      ∃ text, ctx.Proper symbol name uri decimals supplyCap text ∧
        w' = { w with ledger := w.ledger.setMint ctx.mint (ctx.newMint name text uri) }.setConfig
          ctx.config (ctx.newConfig symbol supplyCap) := by
  simp only [initializeStablecoin, requireSigner, requireSeeds, requireFree, ensure, invoke,
    initializeMint2, bind_ok_iff, require_ok_iff, mapError_ok_iff, pure_ok_iff, exists_const,
    Option.isNone_iff_eq_none, normalizeSymbol_iff]
  constructor
  · rintro ⟨hsigner, hck, hfree, hmk, rfl, hpos, hcap, hname, huri, text, ⟨hticker, hpad⟩, hm, _,
      ⟨-, rfl⟩, rfl⟩
    exact ⟨hfree, hm, text, ⟨hsigner, hck, hmk, rfl, ⟨hpos, hcap⟩, hname, huri, hticker, hpad⟩, rfl⟩
  · rintro ⟨hfree, hm, text, h, rfl⟩
    obtain ⟨hsigner, hck, hmk, rfl, ⟨hpos, hcap⟩, hname, huri, hticker, hpad⟩ := h
    exact ⟨hsigner, hck, hfree, hmk, rfl, hpos, hcap, hname, huri, text, ⟨hticker, hpad⟩, hm, _,
      ⟨hm, rfl⟩, rfl⟩

theorem InitializeStablecoin.Proper.describes
    (h : ctx.Proper symbol name uri decimals supplyCap text) :
    (ctx.newMint name text uri).Describes ctx.config (ctx.newConfig symbol supplyCap)
      { updateAuthority := ctx.config, mint := ctx.mint, name, symbol := text, uri } :=
  ⟨rfl, rfl, rfl, h.ticker, h.symbol, h.name, h.uri, rfl, rfl⟩

/-- The stablecoin's mint is there exactly when its configuration is. -/
theorem World.Shape.mint_of_none (hs : w.Shape) {s : Symbol}
    (hc : w.configs (.config (.mint s)) = none) : w.ledger.mints (.mint s) = none := by
  rcases hM : w.ledger.mints (.mint s) with _ | M
  · rfl
  · rcases hs.mint _ M hM with ⟨-, c, hc'⟩ | ⟨p, P, hp, -⟩
    · cases hc.symm.trans hc'
    · cases hp

end

/-! ### The invariant -/

section
variable {w w' : World}

theorem MintConfig.symbol_of_mint {k : Pubkey} {c c' : MintConfig} (h : c.Placed k)
    (h' : c'.Placed k) (hm : c'.mint = c.mint) : c'.symbol = c.symbol :=
  Pubkey.mint.inj (h'.mint.symm.trans (hm.trans h.mint))

/-- A new configuration comes with a new mint, and so from `initialize_stablecoin`. -/
theorem config_new_action (hw : w.Inv) {a : Action} (h : step w a = .ok w') {k : Pubkey}
    {c' : MintConfig} (hc : w.configs k = none) (hc' : w'.configs k = some c') :
    ∃ ctx symbol name uri decimals supplyCap,
      a = .initializeStablecoin ctx symbol name uri decimals supplyCap ∧ k = ctx.config := by
  have heff := step_effect hw h
  obtain ⟨hplaced, M', hM', -⟩ := (heff.inv hw).shape.config k c' hc'
  obtain ⟨ctx₀, s, cap, N, heff₀⟩ := heff.config_created hc hc'
  have hfree : w.ledger.mints c'.mint = none := by
    rw [heff₀.config]
    exact heff₀.mint_free
  have hnew : a.mintCreated = some c'.mint := by
    by_contra hne
    have hkept := heff.mintKept hne
    rw [MintKept, hfree, hM'] at hkept
    cases hkept
  cases a with
  | initializeStablecoin ctx symbol name uri decimals supplyCap =>
      obtain ⟨M, c, heff⟩ := heff
      refine ⟨_, _, _, _, _, _, rfl, ?_⟩
      rw [hplaced.key, heff.config_key, Option.some.inj hnew]
  | initializePool => cases (Option.some.inj hnew).trans hplaced.mint
  | _ => cases hnew

/-- **A step keeps the descriptions**, and describes what it creates. -/
theorem step_described (hw : w.Inv) (hd : w.Described) {a : Action} (h : step w a = .ok w') :
    w'.Described := by
  intro k c' hc'
  have heff := step_effect hw h
  have hplaced := ((heff.inv hw).shape.config k c' hc').1
  rcases hc : w.configs k with _ | c
  · obtain ⟨ctx, symbol, name, uri, decimals, cap, rfl, rfl⟩ := config_new_action hw h hc hc'
    obtain ⟨-, -, text, hproper, rfl⟩ := initializeStablecoin_iff.mp (mapError_ok_iff.mp h)
    obtain rfl := Option.some.inj ((World.setConfig_configs_self ..).symm.trans hc')
    exact ⟨_, _, setMint_mints_self .., hproper.describes⟩
  · obtain ⟨c₁, hc₁, hb⟩ := heff.booked hw.shape k c hc
    obtain rfl := Option.some.inj (hc₁.symm.trans hc')
    obtain ⟨M, T, hM, hdesc⟩ := hd k c hc
    obtain ⟨M', hM', he⟩ := step_mint_kept hw h hM
    have hsym := MintConfig.symbol_of_mint (hw.shape.config k c hc).1 hplaced hb.mint
    exact ⟨M', T, hb.mint ▸ hM', hdesc.kept he hb.mint hsym⟩

theorem World.Reachable.described (hw : w.Reachable) : w.Described := by
  have hinv : w.Inv ∧ w.Described := by
    refine Reachable.invariant (I := fun w => w.Inv ∧ w.Described) ?_ ?_ hw
    · rintro _ ⟨addressBytes, rfl⟩
      exact ⟨inv_genesis addressBytes, fun _ _ h => nomatch h⟩
    · rintro w a w' ⟨hw, hd⟩ h
      exact ⟨step_inv _ _ _ hw h, step_described hw hd h⟩
  exact hinv.2

/-! ### Tickers -/

/-- The stablecoin at `m` is displayed as `text`. -/
def World.Shows (w : World) (m : Pubkey) (text : List UInt8) : Prop :=
  w.IsStablecoin m ∧ ∃ M T, w.ledger.mints m = some M ∧ M.metadata = some T ∧ T.symbol = text

/-- What is displayed is in the address. -/
theorem World.Shows.key (hw : w.Reachable) {m : Pubkey} {text : List UInt8} (h : w.Shows m text) :
    ∃ s, m = .mint s ∧ IsTicker text ∧ Padded 0 s.1 text := by
  obtain ⟨⟨c, hc⟩, M, T, hM, hT, rfl⟩ := h
  obtain ⟨N, U, hN, hdesc⟩ := hw.described _ c hc
  have hm := hw.inv.shape.config_mint hc
  rw [hm] at hN
  obtain rfl := Option.some.inj (hM.symm.trans hN)
  obtain rfl := Option.some.inj (hT.symm.trans hdesc.metadata)
  exact ⟨c.symbol, hm.symm.trans (hw.inv.shape.config _ c hc).1.mint, hdesc.ticker, hdesc.symbol⟩

/-- One ticker, one address, whenever it is looked up. -/
theorem World.Shows.unique (hw : w.Reachable) (hw' : w'.Reachable) {m m' : Pubkey}
    {text : List UInt8} (h : w.Shows m text) (h' : w'.Shows m' text) : m' = m := by
  obtain ⟨s, rfl, -, hs⟩ := h.key hw
  obtain ⟨s', rfl, -, hs'⟩ := h'.key hw'
  rw [Symbol.eq_of_padded hs hs']

/-- A stablecoin stays one. -/
theorem run_isStablecoin (hw : w.Inv) {as : List Action} (t : Run step w as w') {m : Pubkey}
    (h : w.IsStablecoin m) : w'.IsStablecoin m := by
  induction t with
  | refl => exact h
  | more hstep _ ih =>
      obtain ⟨c, hc⟩ := h
      have heff := step_effect hw hstep
      obtain ⟨c', hc', -⟩ := heff.booked hw.shape _ c hc
      exact ih (heff.inv hw) ⟨c', hc'⟩

/-- A symbol is taken exactly when its ticker is. -/
theorem World.Reachable.config_free (hw : w.Reachable) {s : Symbol} {text : List UInt8}
    (hs : Padded 0 s.1 text) (hfree : ∀ m, ¬ w.Shows m text) :
    w.configs (.config (.mint s)) = none := by
  rcases hc : w.configs (.config (.mint s)) with _ | c
  · rfl
  · obtain ⟨M, T, hM, hdesc⟩ := hw.described _ c hc
    obtain ⟨hplaced, -⟩ := hw.inv.shape.config _ c hc
    have hsym : c.symbol = s :=
      Pubkey.mint.inj (hplaced.mint.symm.trans (hw.inv.shape.config_mint hc))
    refine absurd ⟨⟨c, hc⟩, M, T, ?_, hdesc.metadata, ?_⟩ (hfree (.mint s))
    · rwa [hw.inv.shape.config_mint hc] at hM
    · exact (hsym ▸ hdesc.symbol).unique hs

/-- The accounts for a ticker. -/
def InitializeStablecoin.of (payer : Pubkey) (s : Symbol) : InitializeStablecoin :=
  { payer, mint := .mint s, config := .config (.mint s) }

theorem InitializeStablecoin.Proper.eq_of {ctx : InitializeStablecoin} {symbol : Symbol}
    {name uri text : List UInt8} {decimals supplyCap : ℕ}
    (h : ctx.Proper symbol name uri decimals supplyCap text) : ctx = .of ctx.payer symbol := by
  obtain ⟨payer, mint, config⟩ := ctx
  obtain rfl : mint = .mint symbol := h.mint_key
  obtain rfl : config = .config (.mint symbol) := h.config_key
  rfl

/-- What it costs to issue under a ticker. -/
def Chain.tickerCost (rt : Runtime) (s : Chain) (payer : Pubkey) (symbol : Symbol)
    (name uri : List UInt8) : ℕ :=
  s.bank.cost ((InitializeStablecoin.of payer symbol).creations rt symbol name uri)

/-- A stablecoin that has been issued is displayed as its symbol. -/
theorem shows_of_ok {ctx : InitializeStablecoin} {symbol : Symbol} {name uri text : List UInt8}
    {decimals supplyCap : ℕ} (h : ctx.Proper symbol name uri decimals supplyCap text)
    (hstep : step w (.initializeStablecoin ctx symbol name uri decimals supplyCap) = .ok w') :
    w'.Shows ctx.mint text := by
  obtain ⟨-, -, text', h', rfl⟩ := initializeStablecoin_iff.mp (mapError_ok_iff.mp hstep)
  obtain rfl := h.symbol.unique h'.symbol
  rw [h.config_key]
  exact ⟨⟨_, World.setConfig_configs_self ..⟩, _, _, setMint_mints_self .., rfl, rfl⟩

/-- Whether somebody who can pay can issue under a ticker. -/
theorem issues_iff (hw : w.Reachable) {payer : Pubkey} {name uri text : List UInt8}
    {supplyCap : ℕ} {symbol : Symbol} :
    (∃ w', step w (.initializeStablecoin (.of payer symbol) symbol name uri stablecoinDecimals
        supplyCap) = .ok w' ∧ w'.Shows (.mint symbol) text) ↔
      payer.isSigner ∧ (0 < supplyCap ∧ supplyCap ≤ maxSupplyCap) ∧
        (name ≠ [] ∧ name.length ≤ maxNameLen) ∧ (uri ≠ [] ∧ uri.length ≤ maxUriLen) ∧
        IsTicker text ∧ Padded 0 symbol.1 text ∧ ∀ m, ¬ w.Shows m text := by
  constructor
  · rintro ⟨w', h, hshows⟩
    have hw' := hw.run (.one h)
    obtain ⟨-, hmfree, text', hproper, -⟩ := initializeStablecoin_iff.mp (mapError_ok_iff.mp h)
    obtain ⟨s, hkey, hticker, hpad⟩ := hshows.key hw'
    obtain rfl := Pubkey.mint.inj hkey
    refine ⟨hproper.signer, hproper.supplyCap, hproper.name, hproper.uri, hticker, hpad,
      fun m hm => ?_⟩
    obtain rfl := World.Shows.unique hw hw' hm hshows
    obtain ⟨-, M, T, hM, -⟩ := hm
    cases hmfree.symm.trans hM
  · rintro ⟨hsigner, hcap, hname, huri, hticker, hpad, hfree⟩
    have hproper : (InitializeStablecoin.of payer symbol).Proper symbol name uri
        stablecoinDecimals supplyCap text :=
      ⟨hsigner, rfl, rfl, rfl, hcap, hname, huri, hticker, hpad⟩
    have hc := hw.config_free hpad hfree
    have hm := hw.inv.shape.mint_of_none hc
    obtain ⟨w', h⟩ : ∃ w', initializeStablecoin w (.of payer symbol) symbol name uri
        stablecoinDecimals supplyCap = .ok w' :=
      ⟨_, initializeStablecoin_iff.mpr ⟨hc, hm, text, hproper, rfl⟩⟩
    have hstep : step w (.initializeStablecoin (.of payer symbol) symbol name uri
        stablecoinDecimals supplyCap) = .ok w' := mapError_ok_iff.mpr h
    exact ⟨w', hstep, shows_of_ok hproper hstep⟩

/-- **Tickers.**  In every reachable state the mint of a stablecoin describes it, under the ticker
its address is derived from; whatever happens afterwards the description stays, and no other
stablecoin is ever displayed under the ticker; and anyone can issue under a ticker exactly when it
is well formed, nobody has it and the rent can be paid. -/
theorem tickers {rt : Runtime} {s : Chain} (hs : s.Reachable rt) :
    (∀ k c, s.world.configs k = some c → k = .config c.mint ∧ c.mint = .mint c.symbol ∧
      ∃ M T, s.world.ledger.mints c.mint = some M ∧ M.Describes k c T) ∧
    (∀ m M T as w', s.world.IsStablecoin m → s.world.ledger.mints m = some M →
      M.metadata = some T → Run step s.world as w' →
      (w'.IsStablecoin m ∧ ∃ M', w'.ledger.mints m = some M' ∧ M'.metadata = some T) ∧
        ∀ m', w'.Shows m' T.symbol → m' = m) ∧
    ∀ payer name uri text supplyCap destination,
      (∃ ctx symbol s', ctx.payer = payer ∧
        s.step rt (.act (.initializeStablecoin ctx symbol name uri stablecoinDecimals supplyCap)
          destination) = .ok s' ∧ s'.world.Shows ctx.mint text) ↔
      payer.isSigner ∧ (0 < supplyCap ∧ supplyCap ≤ maxSupplyCap) ∧
        (name ≠ [] ∧ name.length ≤ maxNameLen) ∧ (uri ≠ [] ∧ uri.length ≤ maxUriLen) ∧
        IsTicker text ∧ (∀ m, ¬ s.world.Shows m text) ∧
        ∃ hlen : text.length ≤ 8,
          s.bank.Affords rt payer (s.tickerCost rt payer (.of text hlen) name uri) := by
  have hw := hs.world
  refine ⟨fun k c hc => ?_, fun m M T as w' hst hM hT t => ⟨?_, fun m' hm' => ?_⟩, ?_⟩
  · obtain ⟨hplaced, -⟩ := hw.inv.shape.config k c hc
    exact ⟨hplaced.key, hplaced.mint, hw.described k c hc⟩
  · obtain ⟨M', hM', he⟩ := run_mint_kept hw.inv t hM
    exact ⟨run_isStablecoin hw.inv t hst, M', hM', (Mint.identity_eq he).2.2.1.trans hT⟩
  · exact World.Shows.unique hw (hw.run t) ⟨hst, M, T, hM, hT, rfl⟩ hm'
  · intro payer name uri text supplyCap destination
    have hopened : ∀ ctx symbol, (Action.initializeStablecoin ctx symbol name uri
        stablecoinDecimals supplyCap).opened ≠ [] := fun _ _ => List.cons_ne_nil _ _
    have hpays : ∀ symbol,
        (∃ s', s.step rt (.act (.initializeStablecoin (.of payer symbol) symbol name uri
            stablecoinDecimals supplyCap) destination) = .ok s') ↔
          (∃ w', step s.world (.initializeStablecoin (.of payer symbol) symbol name uri
            stablecoinDecimals supplyCap) = .ok w') ∧
            s.bank.Affords rt payer (s.tickerCost rt payer symbol name uri) := fun _ =>
      Chain.creates_iff hs.inv (hopened _ _) destination
    constructor
    · rintro ⟨ctx, symbol, s', rfl, h, hshows⟩
      obtain ⟨hstep, -⟩ := Chain.creates_billed hs.inv (hopened _ _) h
      obtain ⟨-, -, _, hproper, -⟩ := initializeStablecoin_iff.mp (mapError_ok_iff.mp hstep)
      have hctx := hproper.eq_of
      have hmint := hproper.mint_key
      generalize ctx.payer = payer at hctx hpays
      subst hctx
      obtain ⟨hsigner, hcap, hname, huri, hticker, hpad, hfree⟩ :=
        (issues_iff hw).mp ⟨_, hstep, hshows⟩
      have hlen : text.length ≤ 8 := symbol.2 ▸ hpad.length_le
      obtain rfl := Symbol.eq_of_padded hpad (Symbol.padded_of hticker hlen)
      exact ⟨hsigner, hcap, hname, huri, hticker, hfree, hlen, ((hpays _).mp ⟨s', h⟩).2⟩
    · rintro ⟨hsigner, hcap, hname, huri, hticker, hfree, hlen, hafford⟩
      have hpad := Symbol.padded_of hticker hlen
      obtain ⟨w', hstep, hshows⟩ :=
        (issues_iff hw).mpr ⟨hsigner, hcap, hname, huri, hticker, hpad, hfree⟩
      obtain ⟨s', h⟩ := (hpays _).mpr ⟨⟨w', hstep⟩, hafford⟩
      obtain ⟨hstep', -⟩ := Chain.creates_billed hs.inv (hopened _ _) h
      obtain rfl := Except.ok.inj (hstep.symm.trans hstep')
      exact ⟨_, _, s', rfl, h, hshows⟩

end

open Lopsided in
/-- Nobody but the first stablecoin of `issued` will ever be displayed as `A`. -/
theorem tickers_issued :
    ∃ M T, issued.chain.world.ledger.mints mintA = some M ∧ M.metadata = some T ∧
      T.symbol = [65] ∧
      ∀ as w', Run step issued.chain.world as w' → ∀ m', w'.Shows m' [65] → m' = mintA := by
  have hst : issued.chain.world.IsStablecoin mintA :=
    Option.isSome_iff_exists.mp (by decide +kernel)
  obtain ⟨M, hM⟩ : ∃ M, issued.chain.world.ledger.mints mintA = some M :=
    Option.isSome_iff_exists.mp (by decide +kernel)
  have hT : (issued.chain.world.ledger.mints mintA).bind Mint.metadata =
      some ⟨.config mintA, mintA, [1], [65], [1]⟩ := by decide +kernel
  rw [hM, Option.bind_some] at hT
  exact ⟨M, _, hM, hT, rfl, fun as w' t =>
    ((tickers issued_reachable.chain).2.1 mintA M _ as w' hst hM hT t).2⟩

end StablecoinAmm
