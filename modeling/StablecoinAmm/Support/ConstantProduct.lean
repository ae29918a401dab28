import Mathlib.Algebra.Order.Ring.Int
import Mathlib.Algebra.Order.Ring.Nat
import Mathlib.Order.Bounds.Basic
import Mathlib.Tactic.Linarith
import Mathlib.Tactic.Ring
import Mathlib.Tactic.Positivity

/-!
# Support — constant-product pricing with a fee

A payment `x` into the stock `a` is answered by an output from the stock `b`.  Of every `scale`
units paid, `net` count towards the price and the rest is a fee; what is paid stays in the stock
in full.  An output is affordable (`Affords`) when it is at most `b · x · net / (a · scale + x · net)`,
or, what is the same, when the stock that remains of `b` keeps the product with the part of the
payment that counts (`Keeps`).

* `Affords.payment`, `.stockOut`, `.stockIn`, `.fee`: what makes an output affordable keeps it so
  for a larger payment, a larger `b`, a smaller `a` and a smaller fee.
* `Keeps.product`, `.product_lt`: the plain product does not fall, and rises where a fee is taken.
* `product_out`: the product after the largest whole output, to the unit: the fee and what rounding
  leaves behind account for all of its growth.
* `Keeps.then`: two payments in succession keep what one payment of their sum keeps, since the
  fee of the first has joined the stock that prices the second.
* `price_le_iff`: the average prices of two outputs, compared by what each falls short of the
  exact one.
* `out`: the largest affordable whole output (`isGreatest_out`).
* `out_price_le`, `room_le_of_price`: when no whole output can have a better price than the one
  for a smaller payment, whatever rounding does to either; `out_price_lt`: by how much it can.
-/

namespace Support

/-- Of `scale` units, `net` count. -/
structure Fee (K : Type*) [Zero K] [LE K] [LT K] where
  scale : K
  net : K
  net_nonneg : 0 ≤ net
  net_le : net ≤ scale
  scale_pos : 0 < scale

namespace Fee

section Semiring
variable {K : Type*} [CommSemiring K] [LinearOrder K] [IsStrictOrderedRing K]

/-- The stock and the payment, in units of `1 / scale`. -/
def base (φ : Fee K) (a x : K) : K := a * φ.scale + x * φ.net

/-- The output `o` is affordable. -/
def Affords (φ : Fee K) (a b x o : K) : Prop := o * φ.base a x ≤ x * φ.net * b

/-- If `r` remains of `b`, the product is kept. -/
def Keeps (φ : Fee K) (a b x r : K) : Prop := b * (a * φ.scale) ≤ r * φ.base a x

variable {φ : Fee K} {a b x y r r₁ o : K}

theorem base_pos (ha : 0 < a) (hx : 0 ≤ x) : 0 < φ.base a x :=
  add_pos_of_pos_of_nonneg (mul_pos ha φ.scale_pos) (mul_nonneg hx φ.net_nonneg)

theorem keeps_iff_affords (h : r + o = b) : φ.Keeps a b x r ↔ φ.Affords a b x o := by
  have hl : b * (a * φ.scale) = o * (a * φ.scale) + r * (a * φ.scale) := by rw [← h]; ring
  have hr : r * φ.base a x = r * (x * φ.net) + r * (a * φ.scale) := by unfold base; ring
  have hl' : o * φ.base a x = o * (a * φ.scale) + o * (x * φ.net) := by unfold base; ring
  have hr' : x * φ.net * b = r * (x * φ.net) + o * (x * φ.net) := by rw [← h]; ring
  rw [Keeps, Affords, hl, hr, hl', hr', add_le_add_iff_right, add_le_add_iff_right]

/-! ### What makes an output affordable -/

theorem Affords.payment [ExistsAddOfLE K] (h : φ.Affords a b x o) (hx : x ≤ y) (ho : o ≤ b) :
    φ.Affords a b y o := by
  obtain ⟨d, rfl⟩ : ∃ d, y = x + d := exists_add_of_le hx
  have hd : 0 ≤ d := le_of_add_le_add_left (a := x) (by simpa using hx)
  calc o * φ.base a (x + d) = o * φ.base a x + d * φ.net * o := by unfold base; ring
    _ ≤ x * φ.net * b + d * φ.net * b :=
        add_le_add h (mul_le_mul_of_nonneg_left ho (mul_nonneg hd φ.net_nonneg))
    _ = (x + d) * φ.net * b := by ring

theorem Affords.stockOut (h : φ.Affords a b x o) {b' : K} (hb : b ≤ b') (hx : 0 ≤ x) :
    φ.Affords a b' x o :=
  h.trans (mul_le_mul_of_nonneg_left hb (mul_nonneg hx φ.net_nonneg))

theorem Affords.stockIn (h : φ.Affords a b x o) {a' : K} (ha : a' ≤ a) (ho : 0 ≤ o) :
    φ.Affords a' b x o := by
  refine (mul_le_mul_of_nonneg_left ?_ ho).trans h
  exact add_le_add_left (mul_le_mul_of_nonneg_right ha φ.scale_pos.le) _

theorem Affords.fee [ExistsAddOfLE K] (h : φ.Affords a b x o) {ψ : Fee K} (hs : ψ.scale = φ.scale)
    (hn : φ.net ≤ ψ.net) (hx : 0 ≤ x) (ho : o ≤ b) : ψ.Affords a b x o := by
  obtain ⟨d, hd⟩ : ∃ d, ψ.net = φ.net + d := exists_add_of_le hn
  have hd0 : 0 ≤ d := le_of_add_le_add_left (a := φ.net) (by rw [← hd]; simpa using hn)
  calc o * ψ.base a x = o * φ.base a x + x * d * o := by unfold base; rw [hs, hd]; ring
    _ ≤ x * φ.net * b + x * d * b :=
        add_le_add h (mul_le_mul_of_nonneg_left ho (mul_nonneg hx hd0))
    _ = x * ψ.net * b := by rw [hd]; ring

/-! ### What remains -/

omit [IsStrictOrderedRing K] in
theorem keeps_zero (φ : Fee K) (a b : K) : φ.Keeps a b 0 b := by
  unfold Keeps base
  rw [zero_mul, add_zero]

/-- **The product does not fall.** -/
theorem Keeps.product (h : φ.Keeps a b x r) (hx : 0 ≤ x) (hr : 0 ≤ r) : a * b ≤ (a + x) * r := by
  refine le_of_mul_le_mul_right ?_ φ.scale_pos
  calc a * b * φ.scale = b * (a * φ.scale) := by ring
    _ ≤ r * φ.base a x := h
    _ ≤ r * (a * φ.scale + x * φ.scale) :=
        mul_le_mul_of_nonneg_left (add_le_add_right (mul_le_mul_of_nonneg_left φ.net_le hx) _) hr
    _ = (a + x) * r * φ.scale := by ring

/-- It rises where a fee is taken. -/
theorem Keeps.product_lt (h : φ.Keeps a b x r) (hf : φ.net < φ.scale) (hx : 0 < x) (hr : 0 < r) :
    a * b < (a + x) * r := by
  refine lt_of_mul_lt_mul_right ?_ φ.scale_pos.le
  calc a * b * φ.scale = b * (a * φ.scale) := by ring
    _ ≤ r * φ.base a x := h
    _ < r * (a * φ.scale + x * φ.scale) :=
        mul_lt_mul_of_pos_left (add_lt_add_right (mul_lt_mul_of_pos_left hf hx) _) hr
    _ = (a + x) * r * φ.scale := by ring

/-- **One payment after another.**  The stock `a + x` that prices the second holds the fee of the
first. -/
theorem Keeps.then (h₁ : φ.Keeps a b x r₁) (h₂ : φ.Keeps (a + x) r₁ y r) (ha : 0 < a)
    (hx : 0 ≤ x) (hy : 0 ≤ y) (hr : 0 ≤ r) : φ.Keeps a b (x + y) r := by
  have hax : 0 < (a + x) * φ.scale := mul_pos (add_pos_of_pos_of_nonneg ha hx) φ.scale_pos
  have hbase : φ.base a x * φ.base (a + x) y ≤ φ.base a (x + y) * ((a + x) * φ.scale) := by
    have hfee : x * y * φ.net * φ.net ≤ x * y * φ.net * φ.scale :=
      mul_le_mul_of_nonneg_left φ.net_le (mul_nonneg (mul_nonneg hx hy) φ.net_nonneg)
    calc φ.base a x * φ.base (a + x) y
        = a * φ.scale * ((a + x) * φ.scale) + x * φ.net * ((a + x) * φ.scale) +
            a * y * φ.scale * φ.net + x * y * φ.net * φ.net := by unfold base; ring
      _ ≤ a * φ.scale * ((a + x) * φ.scale) + x * φ.net * ((a + x) * φ.scale) +
            a * y * φ.scale * φ.net + x * y * φ.net * φ.scale := add_le_add_right hfee _
      _ = φ.base a (x + y) * ((a + x) * φ.scale) := by unfold base; ring
  refine le_of_mul_le_mul_right ?_ hax
  calc b * (a * φ.scale) * ((a + x) * φ.scale)
      ≤ r₁ * φ.base a x * ((a + x) * φ.scale) := mul_le_mul_of_nonneg_right h₁ hax.le
    _ = r₁ * ((a + x) * φ.scale) * φ.base a x := by ring
    _ ≤ r * φ.base (a + x) y * φ.base a x :=
        mul_le_mul_of_nonneg_right h₂ (base_pos ha hx).le
    _ = r * (φ.base a x * φ.base (a + x) y) := by ring
    _ ≤ r * (φ.base a (x + y) * ((a + x) * φ.scale)) := mul_le_mul_of_nonneg_left hbase hr
    _ = r * φ.base a (x + y) * ((a + x) * φ.scale) := by ring

/-! ### Average prices -/

/-- **Average prices compared.**  The outputs `o` and `o'` for `x` and for `x + d` fall short of
the exact ones by `s / base` and `s' / base'`.  The larger payment gets no better price exactly
when the shortfall of the smaller one is covered by that of the larger one and by what the
additional `d` costs. -/
theorem price_le_iff {o' d s s' : K} (ha : 0 < a) (hx : 0 ≤ x) (hd : 0 ≤ d)
    (ho : o * φ.base a x + s = x * φ.net * b)
    (ho' : o' * φ.base a (x + d) + s' = (x + d) * φ.net * b) :
    o' * x ≤ o * (x + d) ↔
      s * (x + d) * φ.base a (x + d) ≤
        x * (x + d) * d * φ.net * φ.net * b + s' * x * φ.base a x := by
  have hB : 0 < φ.base a x := base_pos ha hx
  have hB' : 0 < φ.base a (x + d) := base_pos ha (add_nonneg hx hd)
  have hbase : φ.base a (x + d) = φ.base a x + d * φ.net := by unfold base; ring
  have hl : o' * x * (φ.base a x * φ.base a (x + d)) + (s' * x * φ.base a x +
      s * (x + d) * φ.base a (x + d)) =
      (x + d) * φ.net * b * x * φ.base a x + s * (x + d) * φ.base a (x + d) := by
    rw [← ho']; ring
  have hr : o * (x + d) * (φ.base a x * φ.base a (x + d)) + (s' * x * φ.base a x +
      s * (x + d) * φ.base a (x + d)) =
      (x + d) * φ.net * b * x * φ.base a x +
        (x * (x + d) * d * φ.net * φ.net * b + s' * x * φ.base a x) := by
    calc _ = (o * φ.base a x + s) * (x + d) * φ.base a (x + d) + s' * x * φ.base a x := by ring
      _ = _ := by rw [ho, hbase]; ring
  rw [← mul_le_mul_iff_left₀ (mul_pos hB hB'), ← add_le_add_iff_right, hl, hr,
    add_le_add_iff_left]

/-- An output short of the exact one by less than a unit gets a price at most a unit worse. -/
theorem price_lt_succ {o' d : K} (ha : 0 < a) (hx : 0 < x) (hd : 0 ≤ d)
    (ho : x * φ.net * b < (o + 1) * φ.base a x) (ho' : φ.Affords a b (x + d) o')
    (ho0 : 0 ≤ o) : o' * x < (o + 1) * (x + d) := by
  have hB' : 0 < φ.base a (x + d) := base_pos ha (add_nonneg hx.le hd)
  have hbase : φ.base a x ≤ φ.base a (x + d) := by
    unfold base
    exact add_le_add_right (mul_le_mul_of_nonneg_right (le_add_of_nonneg_right hd) φ.net_nonneg) _
  refine lt_of_mul_lt_mul_right ?_ hB'.le
  calc o' * x * φ.base a (x + d) = o' * φ.base a (x + d) * x := by ring
    _ ≤ (x + d) * φ.net * b * x := mul_le_mul_of_nonneg_right ho' hx.le
    _ = x * φ.net * b * (x + d) := by ring
    _ < (o + 1) * φ.base a x * (x + d) :=
        mul_lt_mul_of_pos_right ho (add_pos_of_pos_of_nonneg hx hd)
    _ ≤ (o + 1) * φ.base a (x + d) * (x + d) := by gcongr
    _ = (o + 1) * (x + d) * φ.base a (x + d) := by ring

end Semiring

/-! ### Whole outputs -/

section Whole
variable {φ : Fee ℕ} {a b x o : ℕ}

/-- The largest affordable whole output. -/
def out (φ : Fee ℕ) (a b x : ℕ) : ℕ := x * φ.net * b / φ.base a x

/-- What rounding leaves behind, in units of `1 / base`. -/
def dust (φ : Fee ℕ) (a b x : ℕ) : ℕ := x * φ.net * b % φ.base a x

theorem le_out_iff (ha : 0 < a) : o ≤ φ.out a b x ↔ φ.Affords a b x o :=
  Nat.le_div_iff_mul_le (base_pos ha (Nat.zero_le _))

theorem out_affords (φ : Fee ℕ) (a b x : ℕ) : φ.Affords a b x (φ.out a b x) :=
  Nat.div_mul_le_self _ _

theorem out_add_dust (φ : Fee ℕ) (a b x : ℕ) :
    φ.out a b x * φ.base a x + φ.dust a b x = x * φ.net * b := by
  rw [Nat.mul_comm]
  exact Nat.div_add_mod _ _

theorem dust_lt (φ : Fee ℕ) (ha : 0 < a) (b x : ℕ) : φ.dust a b x < φ.base a x :=
  Nat.mod_lt _ (base_pos ha (Nat.zero_le _))

/-- The same fee, over the integers. -/
def toInt (φ : Fee ℕ) : Fee ℤ where
  scale := φ.scale
  net := φ.net
  net_nonneg := Int.natCast_nonneg _
  net_le := Int.ofNat_le.mpr φ.net_le
  scale_pos := Int.natCast_pos.mpr φ.scale_pos

/-- **No whole output, negative ones included, is affordable beyond `out`.** -/
theorem isGreatest_out (φ : Fee ℕ) (ha : 0 < a) (b x : ℕ) :
    IsGreatest {o : ℤ | φ.toInt.Keeps a b x (b - o)} (φ.out a b x) := by
  have hbase : (φ.base a x : ℤ) = φ.toInt.base a x := by simp [base, toInt]
  have hpos : 0 < φ.toInt.base (a : ℤ) x := base_pos (Int.natCast_pos.mpr ha) (Int.natCast_nonneg _)
  have hiff : ∀ o : ℤ, φ.toInt.Keeps a b x (b - o) ↔ o ≤ φ.out a b x := by
    intro o
    rw [keeps_iff_affords (sub_add_cancel (b : ℤ) o), Affords, out, Int.natCast_div, hbase,
      Int.le_ediv_iff_mul_le hpos]
    simp [toInt]
  exact ⟨(hiff _).mpr le_rfl, fun o ho => (hiff o).mp ho⟩

theorem out_le (φ : Fee ℕ) (a b x : ℕ) : φ.out a b x ≤ b :=
  Nat.div_le_of_le_mul (Nat.mul_le_mul_right _ (Nat.le_add_left _ _))

/-- An output leaves something of the stock it is taken from. -/
theorem out_lt (φ : Fee ℕ) (ha : 0 < a) (hb : 0 < b) (x : ℕ) : φ.out a b x < b := by
  rw [out, Nat.div_lt_iff_lt_mul (base_pos ha (Nat.zero_le _)), Nat.mul_comm]
  refine Nat.mul_lt_mul_of_pos_left ?_ hb
  exact Nat.lt_add_of_pos_left (Nat.mul_pos ha φ.scale_pos)

theorem keeps_out (φ : Fee ℕ) (a b x : ℕ) : φ.Keeps a b x (b - φ.out a b x) :=
  (keeps_iff_affords (Nat.sub_add_cancel (φ.out_le a b x))).mpr (φ.out_affords a b x)

/-! ### Average prices of whole outputs -/

/-- The most that rounding can leave behind: numerator and denominator are multiples of the
divisor they share, and so is what one leaves in the other. -/
def room (φ : Fee ℕ) (a b x : ℕ) : ℕ := φ.base a x - (φ.base a x).gcd (x * φ.net * b)

theorem dust_le_room (φ : Fee ℕ) (ha : 0 < a) (b x : ℕ) : φ.dust a b x ≤ φ.room a b x := by
  have hlt := φ.dust_lt ha b x
  have hbase : (φ.base a x).gcd (x * φ.net * b) ∣ φ.base a x := Nat.gcd_dvd_left ..
  have hdust : (φ.base a x).gcd (x * φ.net * b) ∣ φ.dust a b x :=
    (Nat.dvd_mod_iff hbase).mpr (Nat.gcd_dvd_right ..)
  have hle := Nat.le_of_dvd (Nat.sub_pos_of_lt hlt) (Nat.dvd_sub hbase hdust)
  unfold room
  omega

/-- It does leave the most where one step more would fill the last unit. -/
theorem dust_eq_room (ha : 0 < a)
    (h : φ.base a x ∣ x * φ.net * b + (φ.base a x).gcd (x * φ.net * b)) :
    φ.dust a b x = φ.room a b x := by
  have hpos : 0 < φ.base a x := base_pos ha (Nat.zero_le _)
  have hgcd : 0 < (φ.base a x).gcd (x * φ.net * b) := Nat.gcd_pos_of_pos_left _ hpos
  have hle := φ.dust_le_room ha b x
  have hsum : φ.base a x ∣
      φ.out a b x * φ.base a x + (φ.dust a b x + (φ.base a x).gcd (x * φ.net * b)) := by
    rwa [← Nat.add_assoc, φ.out_add_dust a b x]
  have hge := Nat.le_of_dvd (Nat.add_pos_right _ hgcd)
    ((Nat.dvd_add_right (Nat.dvd_mul_left ..)).mp hsum)
  unfold room at hle ⊢
  omega

/-- **Where what the additional `d` costs outweighs the most that rounding can take** from the
smaller output, the larger one gets no better price. -/
theorem out_price_le {d : ℕ} (ha : 0 < a)
    (h : φ.room a b x * φ.base a (x + d) ≤ x * d * φ.net * φ.net * b) :
    φ.out a b (x + d) * x ≤ φ.out a b x * (x + d) := by
  rw [price_le_iff ha (Nat.zero_le x) (Nat.zero_le d) (φ.out_add_dust a b x)
    (φ.out_add_dust a b (x + d))]
  calc φ.dust a b x * (x + d) * φ.base a (x + d)
      ≤ φ.room a b x * (x + d) * φ.base a (x + d) := by gcongr; exact φ.dust_le_room ha b x
    _ = (x + d) * (φ.room a b x * φ.base a (x + d)) := by ring
    _ ≤ (x + d) * (x * d * φ.net * φ.net * b) := Nat.mul_le_mul_left _ h
    _ = x * (x + d) * d * φ.net * φ.net * b := by ring
    _ ≤ _ := Nat.le_add_right ..

/-- And only there, if rounding does take the most from the smaller output and nothing from the
larger one. -/
theorem room_le_of_price {d : ℕ} (ha : 0 < a) (hx : 0 < x)
    (hmost : φ.base a x ∣ x * φ.net * b + (φ.base a x).gcd (x * φ.net * b))
    (hnone : φ.base a (x + d) ∣ (x + d) * φ.net * b)
    (h : φ.out a b (x + d) * x ≤ φ.out a b x * (x + d)) :
    φ.room a b x * φ.base a (x + d) ≤ x * d * φ.net * φ.net * b := by
  have hzero : φ.dust a b (x + d) = 0 := Nat.mod_eq_zero_of_dvd hnone
  rw [price_le_iff ha (Nat.zero_le x) (Nat.zero_le d) (φ.out_add_dust a b x)
    (φ.out_add_dust a b (x + d)), dust_eq_room ha hmost, hzero, Nat.zero_mul, Nat.zero_mul,
    Nat.add_zero] at h
  refine Nat.le_of_mul_le_mul_left ?_ (Nat.add_pos_left hx d)
  calc (x + d) * (φ.room a b x * φ.base a (x + d))
      = φ.room a b x * (x + d) * φ.base a (x + d) := by ring
    _ ≤ x * (x + d) * d * φ.net * φ.net * b := h
    _ = (x + d) * (x * d * φ.net * φ.net * b) := by ring

/-- A better price never beats one unit more. -/
theorem out_price_lt {d : ℕ} (ha : 0 < a) (hx : 0 < x) :
    φ.out a b (x + d) * x < (φ.out a b x + 1) * (x + d) := by
  refine price_lt_succ ha hx (Nat.zero_le d) ?_ (φ.out_affords a b (x + d)) (Nat.zero_le _)
  rw [Nat.mul_comm (_ + 1)]
  exact Nat.lt_mul_div_succ _ (base_pos ha (Nat.zero_le _))

/-! ### The product -/

/-- **What makes the product grow**: of each payment the fee, and what rounding leaves behind. -/
theorem product_out (φ : Fee ℕ) (a b x : ℕ) {fee : ℕ} (hf : fee + φ.net = φ.scale) :
    φ.scale * ((a + x) * (b - φ.out a b x)) =
      φ.scale * (a * b) + fee * (x * (b - φ.out a b x)) + φ.dust a b x := by
  obtain ⟨r, hr⟩ : ∃ r, b = r + φ.out a b x :=
    ⟨b - φ.out a b x, (Nat.sub_add_cancel (φ.out_le a b x)).symm⟩
  have hdust := φ.out_add_dust a b x
  have hrest : r * φ.base a x = φ.scale * (a * b) + φ.dust a b x := by
    refine Nat.add_right_cancel (m := φ.out a b x * φ.base a x) ?_
    calc r * φ.base a x + φ.out a b x * φ.base a x
        = (r + φ.out a b x) * φ.base a x := by ring
      _ = b * φ.base a x := by rw [← hr]
      _ = φ.scale * (a * b) + x * φ.net * b := by unfold base; ring
      _ = φ.scale * (a * b) + φ.dust a b x + φ.out a b x * φ.base a x := by rw [← hdust]; ring
  have hsub : b - φ.out a b x = r := Nat.sub_eq_of_eq_add hr
  rw [hsub]
  calc φ.scale * ((a + x) * r) = r * φ.base a x + fee * (x * r) := by unfold base; rw [← hf]; ring
    _ = φ.scale * (a * b) + fee * (x * r) + φ.dust a b x := by rw [hrest]; ring

end Whole

end Fee

end Support
