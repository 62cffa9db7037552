import Mathlib.Data.ZMod.Basic
import Mathlib.Tactic.LinearCombination

/-! # The checksum of the hash files

The tests write every `.hash` file with `adler32`, their control instance of the checksum that
`calculate_hash_adler32` computes: two `uint32_t` accumulators reduced modulo 65521 at each
byte, the second shifted above the first. `prepare_environment` puts the four bytes of the
checksum in the file most significant first.

The loop never wraps a `uint32_t`, whatever the length of the input, and reducing at each byte
gives what reducing once at the end gives: the checksum is Adler-32 in its closed form. So
changing one byte of a file, or swapping two neighbouring bytes, always changes its checksum.
-/

namespace Persistency.Checksum
set_option autoImplicit false

def mod : UInt32 := 65521

def adler32Step (ab : UInt32 × UInt32) (c : UInt8) : UInt32 × UInt32 :=
  let a := (ab.1 + c.toUInt32) % mod
  (a, (ab.2 + a) % mod)

/-- `adler32`, the control instance of the tests. -/
def adler32 (data : List UInt8) : UInt32 :=
  let ab := data.foldl adler32Step (1, 0)
  (ab.2 <<< 16) ||| ab.1

/-- `n·D₁ + (n-1)·D₂ + … + 1·Dₙ` for the bytes `D₁ … Dₙ`. -/
def weightedSum : List UInt8 → Nat
  | [] => 0
  | c :: cs => (cs.length + 1) * c.toNat + weightedSum cs

/-- Adler-32 of the bytes `D₁ … Dₙ` in closed form: `A = 1 + D₁ + … + Dₙ` and
`B = n + n·D₁ + (n-1)·D₂ + … + 1·Dₙ`, each modulo 65521, and the checksum `B·65536 + A`. -/
def closedForm (data : List UInt8) : Nat :=
  (data.length + weightedSum data) % 65521 * 65536 + (1 + (data.map UInt8.toNat).sum) % 65521

/-! ## The `uint32_t` arithmetic -/

theorem toNat_add_of_lt {x y : UInt32} (h : x.toNat + y.toNat < 2 ^ 32) :
    (x + y).toNat = x.toNat + y.toNat :=
  (BitVec.toNat_add x.toBitVec y.toBitVec).trans (Nat.mod_eq_of_lt h)

@[simp] theorem toNat_toUInt32 (c : UInt8) : c.toUInt32.toNat = c.toNat := rfl

@[simp] theorem mod_toNat : mod.toNat = 65521 := rfl

theorem combine_toNat {a b : UInt32} (ha : a.toNat < 2 ^ 16) (hb : b.toNat < 2 ^ 16) :
    ((b <<< 16) ||| a).toNat = b.toNat * 65536 + a.toNat := by
  have hs : (b <<< 16).toNat = 2 ^ 16 * b.toNat := by
    show (b.toBitVec <<< ((16 : UInt32).toBitVec % 32)).toNat = _
    simp [BitVec.toNat_shiftLeft, Nat.shiftLeft_eq]
    show b.toNat * 65536 % 4294967296 = _
    omega
  show ((b <<< 16).toBitVec ||| a.toBitVec).toNat = _
  rw [BitVec.toNat_or]
  show (b <<< 16).toNat ||| a.toNat = _
  rw [hs, ← Nat.mul_add_lt_is_or ha]
  omega

/-! ## The loop -/

theorem adler32Step_toNat {a b : UInt32} (ha : a.toNat < 65521) (hb : b.toNat < 65521) (c : UInt8) :
    (adler32Step (a, b) c).1.toNat = (a.toNat + c.toNat) % 65521 ∧
      (adler32Step (a, b) c).2.toNat = (b.toNat + (a.toNat + c.toNat) % 65521) % 65521 := by
  have hc : c.toNat < 256 := c.toNat_lt_size
  have h₁ : (a + c.toUInt32).toNat = a.toNat + c.toNat := toNat_add_of_lt (by simp; omega)
  have hmod : ((a + c.toUInt32) % mod).toNat = (a.toNat + c.toNat) % 65521 := by simp [h₁]
  have h₂ : (b + (a + c.toUInt32) % mod).toNat = b.toNat + (a.toNat + c.toNat) % 65521 :=
    hmod ▸ toNat_add_of_lt (by rw [hmod]; omega)
  simp [adler32Step, hmod, h₂]

/-- The loop from reduced accumulators `a` and `b`: the sums it reduces at each byte,
reduced once. -/
theorem foldl_adler32Step_toNat (data : List UInt8) {a b : UInt32} (ha : a.toNat < 65521)
    (hb : b.toNat < 65521) :
    (data.foldl adler32Step (a, b)).1.toNat = (a.toNat + (data.map UInt8.toNat).sum) % 65521 ∧
      (data.foldl adler32Step (a, b)).2.toNat =
        (b.toNat + data.length * a.toNat + weightedSum data) % 65521 := by
  induction data generalizing a b with
  | nil => simp [weightedSum, Nat.mod_eq_of_lt ha, Nat.mod_eq_of_lt hb]
  | cons c cs ih =>
    obtain ⟨h₁, h₂⟩ := adler32Step_toNat ha hb c
    obtain ⟨ih₁, ih₂⟩ := ih (h₁ ▸ Nat.mod_lt _ (by decide)) (h₂ ▸ Nat.mod_lt _ (by decide))
    simp only [List.foldl_cons]
    refine ⟨ih₁.trans ?_, ih₂.trans ?_⟩ <;>
      rw [← ZMod.natCast_eq_natCast_iff'] <;>
      push_cast [h₁, h₂, ZMod.natCast_mod, weightedSum, List.length_cons, List.map_cons,
        List.sum_cons] <;> ring

theorem adler32_toNat (data : List UInt8) :
    (adler32 data).toNat = (data.length + weightedSum data) % 65521 * 65536 +
      (1 + (data.map UInt8.toNat).sum) % 65521 := by
  obtain ⟨h₁, h₂⟩ := foldl_adler32Step_toNat data (show (1 : UInt32).toNat < 65521 by decide)
    (show (0 : UInt32).toNat < 65521 by decide)
  unfold adler32
  rw [combine_toNat (by rw [h₁]; omega) (by rw [h₂]; omega), h₁, h₂]
  simp

/-- For every input, of any length, `adler32` computes Adler-32 in closed form: no `uint32_t`
operation of the loop wraps, and reducing at each byte gives what one reduction at the end
gives. -/
theorem adler32_eq_closedForm (data : List UInt8) : (adler32 data).toNat = closedForm data :=
  adler32_toNat data

example : adler32 [72, 105] = 0x00fb00b2 := by decide

/-! ## Changes the checksum sees -/

theorem adler32_low (data : List UInt8) :
    (adler32 data).toNat % 65536 = (1 + (data.map UInt8.toNat).sum) % 65521 := by
  rw [adler32_toNat]; omega

theorem adler32_high (data : List UInt8) :
    (adler32 data).toNat / 65536 = (data.length + weightedSum data) % 65521 := by
  rw [adler32_toNat]; omega

theorem weightedSum_append (l₁ l₂ : List UInt8) :
    weightedSum (l₁ ++ l₂) =
      weightedSum l₁ + l₂.length * (l₁.map UInt8.toNat).sum + weightedSum l₂ := by
  induction l₁ with
  | nil => simp [weightedSum]
  | cons c cs ih =>
    rw [List.cons_append, weightedSum, weightedSum, ih, List.length_append, List.map_cons,
      List.sum_cons]
    ring

/-- A byte changed anywhere changes the checksum: the low half moves by the difference of the
two bytes, which is less than 65521. -/
theorem adler32_ne_of_byte_ne (l₁ l₂ : List UInt8) {c c' : UInt8} (hc : c ≠ c') :
    adler32 (l₁ ++ c :: l₂) ≠ adler32 (l₁ ++ c' :: l₂) := by
  intro h
  have hA := congrArg (fun x => x.toNat % 65536) h
  simp only [adler32_low, List.map_append, List.map_cons, List.sum_append, List.sum_cons] at hA
  have : c.toNat < 256 := c.toNat_lt_size
  have : c'.toNat < 256 := c'.toNat_lt_size
  exact hc (UInt8.toNat.inj (by omega))

theorem hiByte_changed :
    (72 : UInt8) ≠ 73 ∧ adler32 ([] ++ 72 :: [105]) ≠ adler32 ([] ++ 73 :: [105]) :=
  ⟨by decide, adler32_ne_of_byte_ne [] [105] (by decide)⟩

/-- Two different neighbouring bytes swapped anywhere change the checksum: the low half stays,
and the high half moves by the difference of the two bytes. -/
theorem adler32_ne_of_swap (l₁ l₂ : List UInt8) {x y : UInt8} (hxy : x ≠ y) :
    adler32 (l₁ ++ x :: y :: l₂) ≠ adler32 (l₁ ++ y :: x :: l₂) := by
  intro h
  have hB := congrArg (fun v => v.toNat / 65536) h
  simp only [adler32_high] at hB
  rw [← ZMod.natCast_eq_natCast_iff'] at hB
  simp only [List.length_append, List.length_cons, weightedSum_append, weightedSum, List.map_cons,
    List.sum_cons] at hB
  push_cast at hB
  have hxy' : (x.toNat : ZMod 65521) = y.toNat := by linear_combination hB
  have : x.toNat < 256 := x.toNat_lt_size
  have : y.toNat < 256 := y.toNat_lt_size
  rw [ZMod.natCast_eq_natCast_iff', Nat.mod_eq_of_lt (by omega), Nat.mod_eq_of_lt (by omega)] at hxy'
  exact hxy (UInt8.toNat.inj hxy')

theorem hiBytes_swapped :
    (72 : UInt8) ≠ 105 ∧ adler32 ([] ++ 72 :: 105 :: []) ≠ adler32 ([] ++ 105 :: 72 :: []) :=
  ⟨by decide, adler32_ne_of_swap [] [] (by decide)⟩

/-! ## The hash file -/

/-- The four bytes `prepare_environment` puts in a `.hash` file for the checksum `hash`. -/
def hashBytes (hash : UInt32) : List UInt8 :=
  [((hash >>> 24) &&& 0xFF).toUInt8, ((hash >>> 16) &&& 0xFF).toUInt8,
    ((hash >>> 8) &&& 0xFF).toUInt8, (hash &&& 0xFF).toUInt8]

end Persistency.Checksum
