import Mathlib
import Quill.Number.Word

/-!
# Neutral words

Zero and one as operands of the operations on words of 64 bits: the other operand comes out, or its
opposite, or the result is settled. `0 / a` and `1 ** a` have no result for some `a`; where they
have one, it is 0 and 1.
-/

namespace Quill.Number

variable {a v : Int64}

/-- A word is the word of its own value. -/
theorem ofInt?_toInt (a : Int64) : ofInt? a.toInt = some a := by
  have hfits : fits a.toInt = true := by
    simp only [fits, Bool.and_eq_true, decide_eq_true_eq]
    exact ⟨a.minValue_le_toInt, a.toInt_le⟩
  rw [ofInt?, if_pos hfits, Int64.ofInt_toInt]

theorem add?_zero (a : Int64) : add? a 0 = some a := by
  rw [add?, Int64.toInt_zero, Int.add_zero, ofInt?_toInt]

theorem zero_add? (a : Int64) : add? 0 a = some a := by
  rw [add?, Int64.toInt_zero, Int.zero_add, ofInt?_toInt]

theorem sub?_zero (a : Int64) : sub? a 0 = some a := by
  rw [sub?, Int64.toInt_zero, Int.sub_zero, ofInt?_toInt]

theorem zero_sub? (a : Int64) : sub? 0 a = neg? a := by
  rw [sub?, Int64.toInt_zero, Int.zero_sub, neg?]

theorem toInt_one : (1 : Int64).toInt = 1 := by decide

theorem mul?_one (a : Int64) : mul? a 1 = some a := by
  rw [mul?, toInt_one, Int.mul_one, ofInt?_toInt]

theorem one_mul? (a : Int64) : mul? 1 a = some a := by
  rw [mul?, toInt_one, Int.one_mul, ofInt?_toInt]

theorem mul?_zero (a : Int64) : mul? a 0 = some 0 := by
  rw [mul?, Int64.toInt_zero, Int.mul_zero]
  rfl

theorem zero_mul? (a : Int64) : mul? 0 a = some 0 := by
  rw [mul?, Int64.toInt_zero, Int.zero_mul]
  rfl

theorem div?_one (a : Int64) : div? a 1 = some a := by
  rw [div?, if_neg (by decide), toInt_one, Int.tdiv_one, ofInt?_toInt]

theorem eq_zero_of_zero_div? (h : div? 0 a = some v) : v = 0 := by
  rw [div?] at h
  split at h
  · cases h
  · rw [Int64.toInt_zero, Int.zero_tdiv] at h
    exact (Option.some.inj h).symm

theorem power?_zero (a : Int64) : power? a 0 = some 1 := by
  have hzero : a.toInt.pow 0 = 1 := Int.pow_zero _
  have hpow : pow? a 0 = some 1 := by
    rw [pow?]
    split
    · rw [if_pos rfl, hzero]
      rfl
    · rw [if_pos (by decide), hzero]
      rfl
  exact hpow

theorem eq_one_of_one_power? (h : power? 1 a = some v) : v = 1 := by
  have hone (k : Nat) : Int.pow 1 k = 1 := Int.one_pow
  obtain ⟨n, -, h⟩ := Option.bind_eq_some_iff.mp h
  rw [pow?, if_pos (by decide), toInt_one, hone] at h
  exact (Option.some.inj h).symm

end Quill.Number
