import Dosix.SearchTree.Comparison
import Mathlib.Data.Int.Basic

/-!
This module contains comparisons by a difference that is cut down to a few bits. The numbers are then
on a circle, as the hours are on a clock, and of two of them that one is the greater which the other
reaches in less than half a turn.
-/

namespace Circular

open SearchTree

/--
The difference in units, rounded towards zero, as a signed number with `2 * half` values.
-/
def cmp (half unit : Nat) (x y : Int) : Int :=
  ((x - y).tdiv unit).bmod (2 * half)

/--
All numbers are within half a turn from some point on, and no two of them are a multiple of half a turn
apart, counted in whole units.
-/
structure OnArc (half unit : Nat) (s : List Int) : Prop where
  clear : ∀ x ∈ s, ∀ y ∈ s, y < x → unit ≤ (x - y) % (half * unit : Nat)
  arc : ∃ m, ∀ x ∈ s, (x - m) % (2 * (half * unit) : Nat) < (half * unit : Nat)

variable {half unit : Nat} {x y m : Int} {s : List Int}

@[simp]
theorem cmp_self (half unit : Nat) (x : Int) : cmp half unit x x = 0 := by
  simp [cmp]

/-! One comparison. -/

theorem sub_emod_eq {n : Int} (hn : 0 < n) (a b : Int)
    : (a - b) % n = if b % n ≤ a % n then a % n - b % n else a % n - b % n + n := by
  have ha := Int.emod_nonneg a (show n ≠ 0 by omega)
  have hb := Int.emod_nonneg b (show n ≠ 0 by omega)
  have ha' := Int.emod_lt_of_pos a hn
  have hb' := Int.emod_lt_of_pos b hn
  rw [Int.sub_emod]
  split
  . apply Int.emod_eq_of_lt
    . omega
    . omega
  . rw [← Int.add_emod_right]
    apply Int.emod_eq_of_lt
    . omega
    . omega

theorem bmod_sign (hhalf : 0 < half) (q : Int)
    : (0 < q.bmod (2 * half) ↔ 0 < q % (2 * half : Nat) ∧ q % (2 * half : Nat) < half)
        ∧ (q.bmod (2 * half) < 0 ↔ half ≤ q % (2 * half : Nat)) := by
  have hnonneg := Int.emod_nonneg q (show ((2 * half : Nat) : Int) ≠ 0 by omega)
  have hlt := Int.emod_lt_of_pos q (show (0 : Int) < (2 * half : Nat) by omega)
  rw [Int.bmod_def]
  split
  . omega
  . omega

theorem bmod_neg_sign (hhalf : 0 < half) (q : Int)
    : (0 < (-q).bmod (2 * half) ↔ half < q % (2 * half : Nat))
        ∧ ((-q).bmod (2 * half) < 0 ↔ 0 < q % (2 * half : Nat) ∧ q % (2 * half : Nat) ≤ half) := by
  have hnonneg := Int.emod_nonneg q (show ((2 * half : Nat) : Int) ≠ 0 by omega)
  have hlt := Int.emod_lt_of_pos q (show (0 : Int) < (2 * half : Nat) by omega)
  have hsign := bmod_sign hhalf (-q)
  rw [← Int.zero_sub, sub_emod_eq (by omega), Int.zero_emod] at hsign
  rw [← Int.zero_sub]
  split at hsign
  . omega
  . omega

theorem div_emod_lt_iff (hunit : 0 < unit) (d k : Nat)
    : d / unit % (2 * half) < k ↔ d % (2 * (half * unit)) < k * unit := by
  have hlap : d / unit % (2 * half) = d % (2 * (half * unit)) / unit := by
    rw [← Nat.mod_mul_right_div_self]
    congr 2
    ac_rfl
  rw [hlap, Nat.div_lt_iff_lt_mul hunit]

/--
How far the way from `y` to `x` leads around the circle decides both comparisons. They go by whole
units, so that the last unit of a full turn is still equal, and half a turn is negative from either
side.
-/
theorem cmp_sign (hhalf : 0 < half) (hunit : 0 < unit) (h : y ≤ x) {r : Int}
    (hr : (x - y) % (2 * (half * unit) : Nat) = r)
    : (0 < cmp half unit x y ↔ unit ≤ r ∧ r < (half * unit : Nat))
        ∧ (cmp half unit x y < 0 ↔ (half * unit : Nat) ≤ r)
        ∧ (0 < cmp half unit y x ↔ (half * unit : Nat) + unit ≤ r)
        ∧ (cmp half unit y x < 0 ↔ unit ≤ r ∧ r < (half * unit : Nat) + unit) := by
  obtain ⟨d, hd⟩ := Int.eq_ofNat_of_zero_le (Int.sub_nonneg_of_le h)
  have hback : y - x = -(d : Int) := by omega
  have hone : d / unit % (2 * half) < 1 ↔ d % (2 * (half * unit)) < unit := by
    rw [div_emod_lt_iff hunit, Nat.one_mul]
  have hhalfway : d / unit % (2 * half) < half ↔ d % (2 * (half * unit)) < half * unit :=
    div_emod_lt_iff hunit d half
  have hnext : d / unit % (2 * half) < half + 1 ↔ d % (2 * (half * unit)) < half * unit + unit := by
    rw [div_emod_lt_iff hunit, Nat.succ_mul half unit]
  have hto := bmod_sign hhalf ((d / unit : Nat) : Int)
  have hfro := bmod_neg_sign hhalf ((d / unit : Nat) : Int)
  rw [← Int.natCast_emod] at hto hfro
  rw [hd, ← Int.natCast_emod] at hr
  unfold cmp
  rw [hd, hback, Int.neg_tdiv, ← Int.ofNat_tdiv]
  subst hr
  omega

theorem emod_half_turn (hhalf : 0 < half) (hunit : 0 < unit) (n : Int)
    : n % (half * unit : Nat)
        = if n % (2 * (half * unit) : Nat) < (half * unit : Nat) then n % (2 * (half * unit) : Nat)
          else n % (2 * (half * unit) : Nat) - (half * unit : Nat) := by
  have hpos : 0 < half * unit := Nat.mul_pos hhalf hunit
  have hdvd : ((half * unit : Nat) : Int) ∣ (2 * (half * unit) : Nat) :=
    Int.natCast_dvd_natCast.mpr (Nat.dvd_mul_left _ _)
  have hnonneg := Int.emod_nonneg n (show ((2 * (half * unit) : Nat) : Int) ≠ 0 by omega)
  have hlt := Int.emod_lt_of_pos n (show (0 : Int) < (2 * (half * unit) : Nat) by omega)
  rw [← Int.emod_emod_of_dvd n hdvd]
  split
  . apply Int.emod_eq_of_lt
    . omega
    . omega
  . rw [← Int.sub_emod_right]
    apply Int.emod_eq_of_lt
    . omega
    . omega

/--
Two numbers are compared the same from either side exactly where they are clear of each other and of
the opposite point.
-/
theorem clear_iff (hhalf : 0 < half) (hunit : 0 < unit) (h : y < x)
    : unit ≤ (x - y) % (half * unit : Nat)
        ↔ cmp half unit x y ≠ 0 ∧ (cmp half unit x y < 0 ↔ 0 < cmp half unit y x)
          ∧ (cmp half unit y x < 0 ↔ 0 < cmp half unit x y) := by
  obtain ⟨hto, hto', hfro, hfro'⟩ := cmp_sign hhalf hunit h.le rfl
  have hrest := emod_half_turn hhalf hunit (x - y)
  rw [hrest]
  split
  . omega
  . omega

/-! The comparisons of all numbers of a list. -/

/--
On one half of the circle the numbers are in the order of their distances from its start.
-/
theorem cmp_sign_of_arc (hhalf : 0 < half) (hunit : 0 < unit) (h : y < x)
    (hclear : unit ≤ (x - y) % (half * unit : Nat))
    (hx : (x - m) % (2 * (half * unit) : Nat) < (half * unit : Nat))
    (hy : (y - m) % (2 * (half * unit) : Nat) < (half * unit : Nat))
    : (0 < cmp half unit x y
          ↔ (y - m) % (2 * (half * unit) : Nat) < (x - m) % (2 * (half * unit) : Nat))
        ∧ (x - m) % (2 * (half * unit) : Nat) ≠ (y - m) % (2 * (half * unit) : Nat) := by
  have hpos : 0 < half * unit := Nat.mul_pos hhalf hunit
  have hx' := Int.emod_nonneg (x - m) (show ((2 * (half * unit) : Nat) : Int) ≠ 0 by omega)
  have hy' := Int.emod_nonneg (y - m) (show ((2 * (half * unit) : Nat) : Int) ≠ 0 by omega)
  have hrest := emod_half_turn hhalf hunit (x - y)
  have hto := (cmp_sign hhalf hunit h.le rfl).1
  have hway := sub_emod_eq (show (0 : Int) < (2 * (half * unit) : Nat) by omega) (x - m) (y - m)
  rw [show x - m - (y - m) = x - y by omega] at hway
  rw [hto]
  by_cases hle : (y - m) % (2 * (half * unit) : Nat) ≤ (x - m) % (2 * (half * unit) : Nat)
  . rw [if_pos hle] at hway
    rw [if_pos (by omega)] at hrest
    omega
  . rw [if_neg hle] at hway
    rw [if_neg (by omega)] at hrest
    omega

theorem OnArc.orders (hhalf : 0 < half) (hunit : 0 < unit) (h : OnArc half unit s)
    : Orders (cmp half unit) s := by
  obtain ⟨m, hm⟩ := h.arc
  apply orders_of_rank fun x => (x - m) % (2 * (half * unit) : Nat)
  intro x hx y hy
  rcases Int.lt_trichotomy x y with hlt | rfl | hlt
  . have hclear := h.clear y hy x hx hlt
    have hsign := cmp_sign_of_arc hhalf hunit hlt hclear (hm y hy) (hm x hx)
    rw [clear_iff hhalf hunit hlt] at hclear
    omega
  . simp
  . have hclear := h.clear x hx y hy hlt
    have hsign := cmp_sign_of_arc hhalf hunit hlt hclear (hm x hx) (hm y hy)
    rw [clear_iff hhalf hunit hlt] at hclear
    omega

/--
The half of the circle starts at the least number.
-/
theorem onArc_of_orders (hhalf : 0 < half) (hunit : 0 < unit) (h : Orders (cmp half unit) s)
    : OnArc half unit s := by
  have hclear : ∀ x ∈ s, ∀ y ∈ s, y < x → unit ≤ (x - y) % (half * unit : Nat) := by
    intro x hx y hy hlt
    rw [clear_iff hhalf hunit hlt]
    have hzero := h.eq_zero x hx y hy
    have hswap := h.swap x hx y hy
    have hswap' := h.swap y hy x hx
    omega
  refine ⟨hclear, ?_⟩
  by_cases hne : s = []
  . subst hne
    exact ⟨0, by simp⟩
  obtain ⟨m, hmem, hmin⟩ := h.exists_min hne
  refine ⟨m, ?_⟩
  intro x hx
  have hpos : 0 < half * unit := Nat.mul_pos hhalf hunit
  obtain rfl | hless := hmin x hx
  . rw [Int.sub_self, Int.zero_emod]
    omega
  rcases Int.lt_trichotomy m x with hlt | rfl | hlt
  . have hsign := cmp_sign hhalf hunit hlt.le rfl
    have hclear := hclear x hx m hmem hlt
    rw [clear_iff hhalf hunit hlt] at hclear
    omega
  . simp at hless
  . -- the way to the least number is more than half a turn, so the way on from it is less
    have hsign := cmp_sign hhalf hunit hlt.le rfl
    have hclear := hclear m hmem x hx hlt
    rw [clear_iff hhalf hunit hlt] at hclear
    have hback := sub_emod_eq (show (0 : Int) < (2 * (half * unit) : Nat) by omega) 0 (m - x)
    rw [Int.zero_emod, show 0 - (m - x) = x - m by omega] at hback
    rw [hback]
    split
    . omega
    . omega

theorem orders_iff (hhalf : 0 < half) (hunit : 0 < unit)
    : Orders (cmp half unit) s ↔ OnArc half unit s :=
  ⟨onArc_of_orders hhalf hunit, fun h => h.orders hhalf hunit⟩

/--
Numbers that are less than half a turn apart are compared like the numbers themselves.
-/
theorem cmp_near (hhalf : 0 < half) (hunit : 0 < unit) (hle : y + unit ≤ x)
    (hlt : x < y + (half * unit : Nat))
    : 0 < cmp half unit x y ∧ cmp half unit y x < 0 := by
  have hway : (x - y) % (2 * (half * unit) : Nat) = x - y := by
    apply Int.emod_eq_of_lt
    . omega
    . omega
  obtain ⟨hto, -, -, hfro⟩ := cmp_sign hhalf hunit (show y ≤ x by omega) hway
  omega

theorem orders_of_near (hhalf : 0 < half) (hunit : 0 < unit)
    (h : ∀ x ∈ s, ∀ y ∈ s, y < x → y + unit ≤ x ∧ x < y + (half * unit : Nat))
    : Orders (cmp half unit) s := by
  apply orders_of_rank id
  intro x hx y hy
  dsimp only [id]
  rcases Int.lt_trichotomy x y with hlt | rfl | hlt
  . obtain ⟨hle, hnear⟩ := h y hy x hx hlt
    have := cmp_near hhalf hunit hle hnear
    omega
  . simp
  . obtain ⟨hle, hnear⟩ := h x hx y hy hlt
    have := cmp_near hhalf hunit hle hnear
    omega

end Circular
