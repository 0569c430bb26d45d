import Quill.Proofs.Meaning
import Quill.Proofs.Word
import Quill.Simplify.Expr

/-!
# Integer operators are exact

What an operator on two integers is worth, said of the integers themselves and without words of 64
bits: `Literal.Exact a b op l` says that `l` is the value of `a op b`, and
`Literal.Undefined a b op` that there is none. Division is stated by the equation of quotient and
remainder (`Truncates`), a shift to the left by a congruence, one to the right by the floor of a
fraction, and the operators on bits by the bits of a two's complement that goes on for ever.

Folding goes by machine words, and by shorter ways where there are any: a power is never worked out
beyond the 63rd, and bits are taken from words. It gives a literal if and only if that is the exact
value, and none if and only if there is none.

Results:
* `ofInt?_eq_some_iff`, `natBelow?_eq_some_iff`, `pow?_eq`: the words behind the operators.
* `truncates_iff`: the equation of division has one solution.
* `testBit_toInt`: the bits of a word are those of its value.
* **`foldInt?_exact`**: folding gives the exact value, where there is one.
-/

namespace Quill

namespace Number

variable {a b q r n : Int} {u v w : Int64}

/-! ## Words -/

/-- The integer is a signed word of 64 bits. -/
def IsWord (n : Int) : Prop := -2 ^ 63 ≤ n ∧ n < 2 ^ 63

theorem isWord_toInt (v : Int64) : IsWord v.toInt := ⟨v.le_toInt, v.toInt_lt⟩

theorem toInt_eq_zero_iff : v.toInt = 0 ↔ v = 0 := by
  rw [← Int64.toInt_zero, Int64.toInt_inj]

theorem fits_iff : fits n = true ↔ IsWord n := by
  have hmin : Int64.minValue.toInt = -2 ^ 63 := by decide
  have hmax : Int64.maxValue.toInt = 2 ^ 63 - 1 := by decide
  simp only [fits, IsWord, Bool.and_eq_true, decide_eq_true_eq, hmin, hmax]
  omega

theorem ofInt?_eq_none_iff : ofInt? n = none ↔ ¬ IsWord n := by
  rw [ofInt?, ← fits_iff]
  split_ifs with h <;> simp [h]

theorem ofInt?_eq_some_iff : ofInt? n = some v ↔ v.toInt = n := by
  constructor
  · intro h
    rw [ofInt?] at h
    split_ifs at h with hfits
    obtain ⟨hlow, hhigh⟩ := fits_iff.mp hfits
    rw [← Option.some.inj h, Int64.toInt_ofInt_of_le hlow hhigh]
  · rintro rfl
    exact ofInt?_toInt v

/-! ## Division -/

/-- `q` and `r` are the quotient and the remainder of `a` by `b`, cut toward zero: the remainder is
smaller than the divisor, and has the sign of the dividend. -/
structure Truncates (a b q r : Int) : Prop where
  sum : r + b * q = a
  small : r.natAbs < b.natAbs
  sign : 0 ≤ a * r

theorem Truncates.neg (h : Truncates a b q r) : Truncates (-a) b (-q) (-r) where
  sum := by
    have hsum := h.sum
    rw [Int.mul_neg]
    omega
  small := by rw [Int.natAbs_neg]; exact h.small
  sign := by rw [Int.neg_mul_neg]; exact h.sign

theorem Truncates.ne_zero (h : Truncates a b q r) : b ≠ 0 := by
  rintro rfl
  exact Nat.not_lt_zero _ h.small

/-- **The equation of division has one solution**, the quotient and the remainder of the library. -/
theorem truncates_iff : Truncates a b q r ↔ b ≠ 0 ∧ a.tdiv b = q ∧ a.tmod b = r := by
  -- a negative dividend is the opposite of a positive one
  have hnonneg : ∀ {a q r : Int}, 0 ≤ a → Truncates a b q r → a.tdiv b = q ∧ a.tmod b = r := by
    intro a q r ha h
    refine (Int.tdiv_tmod_unique ha h.ne_zero).mpr ⟨h.sum, ?_, ?_⟩
    · rcases ha.eq_or_lt with rfl | hpos
      · -- zero is a multiple of the divisor, and so is the remainder
        have hdvd : b ∣ r := ⟨-q, by have hsum := h.sum; rw [Int.mul_neg]; omega⟩
        exact (Int.eq_zero_of_dvd_of_natAbs_lt_natAbs hdvd h.small).ge
      · exact nonneg_of_mul_nonneg_right h.sign hpos
    · have hsmall := h.small
      omega
  constructor
  · intro h
    refine ⟨h.ne_zero, ?_⟩
    rcases le_total 0 a with ha | ha
    · exact hnonneg ha h
    · have hneg := hnonneg (Int.neg_nonneg_of_nonpos ha) h.neg
      rw [Int.neg_tdiv, Int.neg_tmod] at hneg
      omega
  · rintro ⟨hb, rfl, rfl⟩
    refine ⟨by rw [add_comm, Int.mul_tdiv_add_tmod], ?_, ?_⟩
    · rw [Int.natAbs_tmod]
      exact Nat.mod_lt _ (Int.natAbs_pos.mpr hb)
    · rcases le_total 0 a with ha | ha
      · exact Int.mul_nonneg ha (Int.tmod_nonneg b ha)
      · have hneg := Int.tmod_nonneg b (Int.neg_nonneg_of_nonpos ha)
        rw [Int.neg_tmod] at hneg
        exact Int.mul_nonneg_of_nonpos_of_nonpos ha (by omega)

/-- The quotient of two words is a word, with one exception. -/
theorem isWord_tdiv_iff (ha : IsWord a) (hb : b ≠ 0) :
    IsWord (a.tdiv b) ↔ ¬ (a = -2 ^ 63 ∧ b = -1) := by
  have hle : (a.tdiv b).natAbs ≤ a.natAbs := Int.natAbs_tdiv_le_natAbs a b
  unfold IsWord at ha ⊢
  constructor
  · rintro hword ⟨rfl, rfl⟩
    exact absurd hword.2 (by decide)
  · intro hexception
    by_cases hmin : a = -2 ^ 63
    · -- any other divisor leaves at most half of the least word, or keeps its sign
      have hb' : b ≠ -1 := fun h => hexception ⟨hmin, h⟩
      rcases lt_or_gt_of_ne hb with hneg | hpos
      · have hhalf : (a.tdiv b).natAbs ≤ a.natAbs / 2 := by
          rw [Int.natAbs_tdiv]
          exact Nat.div_le_div_left (by omega) (by decide)
        omega
      · have hsign := Int.tdiv_nonneg (a := -a) (b := b) (by omega) hpos.le
        rw [Int.neg_tdiv] at hsign
        omega
    · omega

theorem isWord_tmod (ha : IsWord a) : IsWord (a.tmod b) := by
  have hle : (a.tmod b).natAbs ≤ a.natAbs := by
    rw [Int.natAbs_tmod]
    exact Nat.mod_le _ _
  unfold IsWord at ha ⊢
  rcases le_total 0 a with hpos | hneg
  · have hsign := Int.tmod_nonneg b hpos
    omega
  · have hsign := Int.tmod_nonneg b (Int.neg_nonneg_of_nonpos hneg)
    rw [Int.neg_tmod] at hsign
    omega

theorem div?_eq_some_iff :
    div? v w = some u ↔ w.toInt ≠ 0 ∧ v.toInt.tdiv w.toInt = u.toInt := by
  simp only [div?, ← toInt_eq_zero_iff]
  split_ifs with hw
  · simp [hw]
  · rw [ofInt?_eq_some_iff, eq_comm]
    exact (and_iff_right hw).symm

theorem div?_eq_none_iff :
    div? v w = none ↔ w.toInt = 0 ∨ v.toInt = -2 ^ 63 ∧ w.toInt = -1 := by
  simp only [div?, ← toInt_eq_zero_iff]
  split_ifs with hw
  · simp [hw]
  · rw [ofInt?_eq_none_iff, isWord_tdiv_iff (isWord_toInt v) hw, not_not]
    exact (or_iff_right hw).symm

/-- The remainder is missing where the quotient is, though it would always be a word. -/
theorem rem?_eq_none_iff : rem? v w = none ↔ div? v w = none := by
  rw [rem?]
  split_ifs with hdiv
  · rw [ofInt?_eq_none_iff, ← Option.not_isSome_iff_eq_none]
    exact iff_of_false (not_not_intro (isWord_tmod (isWord_toInt v))) (not_not_intro hdiv)
  · simpa using hdiv

theorem rem?_eq_some_iff :
    rem? v w = some u ↔ div? v w ≠ none ∧ v.toInt.tmod w.toInt = u.toInt := by
  rw [rem?, ← Option.isSome_iff_ne_none]
  split_ifs with hdiv
  · rw [ofInt?_eq_some_iff, eq_comm]
    exact (and_iff_right hdiv).symm
  · simp [hdiv]

/-! ## Powers and shifts -/

theorem natBelow?_eq_some_iff {bound k : Nat} :
    natBelow? bound v = some k ↔ v.toInt = k ∧ k < bound := by
  rw [natBelow?]
  simp only [Bool.and_eq_true, decide_eq_true_eq]
  split_ifs with h
  · rw [Option.some.injEq]
    omega
  · simp only [false_iff]
    omega

theorem natBelow?_eq_none_iff {bound : Nat} :
    natBelow? bound v = none ↔ v.toInt < 0 ∨ (bound : Int) ≤ v.toInt := by
  rw [natBelow?]
  simp only [Bool.and_eq_true, decide_eq_true_eq]
  split_ifs with h
  · simp only [false_iff]
    omega
  · simp only [true_iff]
    omega

/-- The powers of 0, 1 and -1 repeat with period 2. -/
theorem pow_period (ha : a.natAbs ≤ 1) (k : Nat) :
    a ^ (if k = 0 then 0 else 2 - k % 2) = a ^ k := by
  have hsquare : a ^ 3 = a := by
    obtain rfl | rfl | rfl : a = -1 ∨ a = 0 ∨ a = 1 := by omega
    all_goals rfl
  have hodd : ∀ j : Nat, a ^ (2 * j + 1) = a := by
    intro j
    induction j with
    | zero => exact pow_one a
    | succ j ih =>
      rw [show 2 * (j + 1) + 1 = 2 * j + 1 + 2 by omega, pow_add, ih, ← pow_succ', hsquare]
  rcases Nat.even_or_odd' k with ⟨j, rfl | rfl⟩
  · cases j with
    | zero => rfl
    | succ j =>
      rw [if_neg (by omega), show 2 - 2 * (j + 1) % 2 = 2 by omega,
        show 2 * (j + 1) = 2 * j + 1 + 1 by omega, pow_succ a (2 * j + 1), hodd, sq]
  · rw [if_neg (by omega), show 2 - (2 * j + 1) % 2 = 1 by omega, hodd, pow_one]

/-- A base beyond 1 and -1 has left the words at its 64th power. -/
theorem not_isWord_pow (ha : 2 ≤ a.natAbs) {k : Nat} (hk : 64 ≤ k) : ¬ IsWord (a ^ k) := by
  have hpow : 2 ^ 64 ≤ (a ^ k).natAbs :=
    calc 2 ^ 64 ≤ 2 ^ k := Nat.pow_le_pow_right (by decide) hk
      _ ≤ a.natAbs ^ k := Nat.pow_le_pow_left ha k
      _ = (a ^ k).natAbs := (Int.natAbs_pow a k).symm
  rintro ⟨hlow, hhigh⟩
  omega

/-- **Powers are exact**, however they are worked out. -/
theorem pow?_eq (v : Int64) (k : Nat) : pow? v k = ofInt? (v.toInt ^ k) := by
  rw [pow?]
  by_cases hsmall : v.toInt.natAbs ≤ 1
  · rw [if_pos hsmall]
    exact congrArg ofInt? (pow_period hsmall k)
  · rw [if_neg hsmall]
    split_ifs with hk
    · rfl
    · exact (ofInt?_eq_none_iff.mpr (not_isWord_pow (by omega) (by omega))).symm

theorem power?_eq_some_iff :
    power? v w = some u ↔ ∃ k : Nat, w.toInt = k ∧ k < 2 ^ 32 ∧ u.toInt = v.toInt ^ k := by
  rw [power?, Option.bind_eq_some_iff]
  refine exists_congr fun k => ?_
  rw [natBelow?_eq_some_iff, pow?_eq, ofInt?_eq_some_iff, and_assoc]
  exact Iff.rfl

theorem power?_eq_none_iff : power? v w = none ↔
    w.toInt < 0 ∨ 2 ^ 32 ≤ w.toInt ∨ ¬ IsWord (v.toInt ^ w.toInt.toNat) := by
  rw [power?]
  cases hk : natBelow? (Nat.pow 2 32) w with
  | none =>
    have hrange := natBelow?_eq_none_iff.mp hk
    simp only [Option.bind_none, true_iff]
    rcases hrange with h | h
    · exact .inl h
    · exact .inr (.inl h)
  | some k =>
    obtain ⟨hw, hlt⟩ := natBelow?_eq_some_iff.mp hk
    have hlt' : k < 2 ^ 32 := hlt
    rw [Option.bind_some, pow?_eq, ofInt?_eq_none_iff, hw, Int.toNat_natCast]
    constructor
    · exact fun h => .inr (.inr h)
    · rintro (h | h | h)
      · omega
      · omega
      · exact h

/-- A word is what an integer leaves of itself in 64 bits if and only if the two are congruent. -/
theorem ofInt_eq_iff_modEq : Int64.ofInt n = v ↔ v.toInt ≡ n [ZMOD 2 ^ 64] := by
  rw [Int64.ofInt_eq_iff_bmod_eq_toInt]
  have hword := isWord_toInt v
  unfold IsWord at hword
  constructor
  · intro h
    rw [← h]
    exact Int.bmod_emod
  · intro h
    have hmod : n.bmod (2 ^ 64) = v.toInt.bmod (2 ^ 64) := by
      rw [← Int.emod_bmod, ← Int.emod_bmod (x := v.toInt)]
      exact congrArg (Int.bmod · (2 ^ 64)) h.symm
    rw [hmod]
    exact Int.bmod_eq_of_le (by omega) (by omega)

theorem shiftLeft?_eq_some_iff : shiftLeft? v w = some u ↔
    ∃ k : Nat, w.toInt = k ∧ k < 64 ∧ u.toInt ≡ v.toInt * 2 ^ k [ZMOD 2 ^ 64] := by
  rw [shiftLeft?, Option.map_eq_some_iff]
  refine exists_congr fun k => ?_
  rw [natBelow?_eq_some_iff, ofInt_eq_iff_modEq, and_assoc]
  exact Iff.rfl

/-- The floor of a fraction of a word is a word. -/
theorem isWord_fdiv (ha : IsWord a) (k : Nat) : IsWord (a.fdiv (2 ^ k)) := by
  have hpos : (0 : Int) < 2 ^ k := by positivity
  unfold IsWord at ha ⊢
  rw [Int.fdiv_eq_ediv_of_nonneg a hpos.le]
  constructor
  · refine Int.le_ediv_of_mul_le hpos ?_
    have hle : (1 : Int) ≤ 2 ^ k := hpos
    nlinarith [ha.1]
  · refine Int.ediv_lt_of_lt_mul hpos ?_
    have hle : (1 : Int) ≤ 2 ^ k := hpos
    nlinarith [ha.2]

theorem shiftRight?_eq_some_iff : shiftRight? v w = some u ↔
    ∃ k : Nat, w.toInt = k ∧ k < 64 ∧ u.toInt = ⌊(v.toInt : ℚ) / 2 ^ k⌋ := by
  rw [shiftRight?, Option.map_eq_some_iff]
  refine exists_congr fun k => ?_
  have hfloor : ⌊(v.toInt : ℚ) / 2 ^ k⌋ = v.toInt.fdiv (2 ^ k) := by
    have h := Rat.floor_intCast_div_natCast v.toInt (2 ^ k)
    rw [Int.fdiv_eq_ediv_of_nonneg _ (by positivity)]
    push_cast at h
    exact h
  obtain ⟨hlow, hhigh⟩ := isWord_fdiv (isWord_toInt v) k
  rw [natBelow?_eq_some_iff, hfloor, and_assoc, eq_comm (b := u), ← Int64.toInt_inj]
  change _ ∧ _ ∧ u.toInt = (Int64.ofInt (v.toInt.fdiv (2 ^ k))).toInt ↔ _
  rw [Int64.toInt_ofInt_of_le hlow hhigh]

/-! ## Bits -/

/-- **The bits of a word are those of its value.** Beyond the word, the sign goes on. -/
theorem testBit_toInt {width : Nat} (x : BitVec width) (i : Nat) :
    x.toInt.testBit i = if i < width then x.getLsbD i else x.msb := by
  rw [BitVec.toInt_eq_msb_cond]
  cases hsign : x.msb with
  | false =>
    rw [if_neg (by decide)]
    change x.toNat.testBit i = _
    split_ifs with hi
    · rfl
    · exact Nat.testBit_lt_two_pow (x.isLt.trans_le (Nat.pow_le_pow_right (by decide) (by omega)))
  | true =>
    have hlt := x.isLt
    have hneg : (x.toNat : Int) - (2 ^ width : Nat) = Int.negSucc (2 ^ width - (x.toNat + 1)) := by
      rw [Int.negSucc_eq]
      omega
    rw [if_pos rfl, hneg]
    change (!(2 ^ width - (x.toNat + 1)).testBit i) = _
    rw [Nat.testBit_two_pow_sub_succ hlt]
    split_ifs with hi <;> simp [hi, BitVec.getLsbD]

/-- Words with the bits of one integer are the same. -/
theorem toInt_ext (h : ∀ i, v.toInt.testBit i = w.toInt.testBit i) : v = w := by
  refine Int64.toBitVec_inj.mp (BitVec.eq_of_getLsbD_eq fun i hi => ?_)
  have hbit := h i
  rw [← Int64.toInt_toBitVec, ← Int64.toInt_toBitVec, testBit_toInt, testBit_toInt] at hbit
  simpa [hi] using hbit

/-- An operator that goes bit by bit over words does so over their values, the sign included. -/
theorem testBit_bitwise {f : Bool → Bool → Bool}
    (h : ∀ i, u.toBitVec.getLsbD i = f (v.toBitVec.getLsbD i) (w.toBitVec.getLsbD i)) (i : Nat) :
    u.toInt.testBit i = f (v.toInt.testBit i) (w.toInt.testBit i) := by
  simp only [← Int64.toInt_toBitVec, testBit_toInt, BitVec.msb_eq_getLsbD_last]
  split_ifs
  · exact h i
  · exact h 63

/-- The word that has given bits is the only one. -/
theorem eq_iff_testBit {f : Nat → Bool} (hv : ∀ i, v.toInt.testBit i = f i) :
    v = w ↔ ∀ i, w.toInt.testBit i = f i := by
  constructor
  · rintro rfl
    exact hv
  · intro hw
    exact toInt_ext fun i => (hv i).trans (hw i).symm

end Number

/-! ## Literals -/

namespace Typed

open Number

namespace Literal

/-- What an operator gives of the integers `a` and `b`. Comparisons give truth values; all else
gives a word, whose value is the exact one. A shift to the left keeps what is left in 64 bits. -/
inductive Exact (a b : Int) : BinaryOp → Literal → Prop
  | add {v : Int64} (h : v.toInt = a + b) : Exact a b .add (.int v)
  | subtract {v : Int64} (h : v.toInt = a - b) : Exact a b .subtract (.int v)
  | multiply {v : Int64} (h : v.toInt = a * b) : Exact a b .multiply (.int v)
  | divide {v : Int64} {r : Int} (h : Truncates a b v.toInt r) : Exact a b .divide (.int v)
  | remainder {v : Int64} {q : Int} (h : Truncates a b q v.toInt)
      (hover : ¬ (a = -2 ^ 63 ∧ b = -1)) : Exact a b .remainder (.int v)
  | power {v : Int64} {k : Nat} (hk : b = k) (hlt : k < 2 ^ 32) (h : v.toInt = a ^ k) :
      Exact a b .power (.int v)
  | shiftLeft {v : Int64} {k : Nat} (hk : b = k) (hlt : k < 64)
      (h : v.toInt ≡ a * 2 ^ k [ZMOD 2 ^ 64]) : Exact a b .shiftLeft (.int v)
  | shiftRight {v : Int64} {k : Nat} (hk : b = k) (hlt : k < 64)
      (h : v.toInt = ⌊(a : ℚ) / 2 ^ k⌋) : Exact a b .shiftRight (.int v)
  | bitOr {v : Int64} (h : ∀ i, v.toInt.testBit i = (a.testBit i || b.testBit i)) :
      Exact a b .bitOr (.int v)
  | bitXor {v : Int64} (h : ∀ i, v.toInt.testBit i = (a.testBit i ^^ b.testBit i)) :
      Exact a b .bitXor (.int v)
  | bitAnd {v : Int64} (h : ∀ i, v.toInt.testBit i = (a.testBit i && b.testBit i)) :
      Exact a b .bitAnd (.int v)
  | less : Exact a b .less (.bool (a < b))
  | lessEquals : Exact a b .lessEquals (.bool (a ≤ b))
  | equals : Exact a b .equals (.bool (a = b))
  | notEquals : Exact a b .notEquals (.bool (a ≠ b))
  | greaterEquals : Exact a b .greaterEquals (.bool (b ≤ a))
  | greater : Exact a b .greater (.bool (b < a))

/-- An operator gives nothing of the integers `a` and `b`. -/
def Undefined (a b : Int) : BinaryOp → Prop
  | .add => ¬ IsWord (a + b)
  | .subtract => ¬ IsWord (a - b)
  | .multiply => ¬ IsWord (a * b)
  | .divide | .remainder => b = 0 ∨ a = -2 ^ 63 ∧ b = -1
  | .power => b < 0 ∨ 2 ^ 32 ≤ b ∨ ¬ IsWord (a ^ b.toNat)
  | .shiftLeft | .shiftRight => b < 0 ∨ 64 ≤ b
  | .bitOr | .bitXor | .bitAnd => False
  | .less | .lessEquals | .equals | .notEquals | .greaterEquals | .greater => False
  | .coalesce | .or | .and => True

variable {op : BinaryOp} {a b : Int64} {l : Literal}

theorem Exact.eq_int {a b : Int} (h : Exact a b op l) (hop : op.isComparison = false) :
    ∃ v, l = .int v := by
  cases h with
  | less | lessEquals | equals | notEquals | greaterEquals | greater => cases hop
  | _ => exact ⟨_, rfl⟩

/-- An operator that gives words is exact if these are. -/
theorem map_int_eq_some_iff {o : Option Int64} (hop : op.isComparison = false)
    (h : ∀ v, o = some v ↔ Exact a.toInt b.toInt op (.int v)) :
    o.map .int = some l ↔ Exact a.toInt b.toInt op l := by
  rw [Option.map_eq_some_iff]
  constructor
  · rintro ⟨v, hv, rfl⟩
    exact (h v).mp hv
  · intro hl
    obtain ⟨v, rfl⟩ := hl.eq_int hop
    exact ⟨v, (h v).mpr hl, rfl⟩

theorem exact_divide_iff {v : Int64} :
    Exact a.toInt b.toInt .divide (.int v) ↔ div? a b = some v := by
  rw [div?_eq_some_iff]
  constructor
  · intro hexact
    cases hexact with
    | divide h =>
      obtain ⟨hb, hq, -⟩ := truncates_iff.mp h
      exact ⟨hb, hq⟩
  · rintro ⟨hb, hq⟩
    exact .divide (truncates_iff.mpr ⟨hb, hq, rfl⟩)

theorem exact_remainder_iff {v : Int64} :
    Exact a.toInt b.toInt .remainder (.int v) ↔ rem? a b = some v := by
  rw [rem?_eq_some_iff, Ne, div?_eq_none_iff, not_or]
  constructor
  · intro hexact
    cases hexact with
    | remainder h hover =>
      obtain ⟨hb, -, hr⟩ := truncates_iff.mp h
      exact ⟨⟨hb, hover⟩, hr⟩
  · rintro ⟨⟨hb, hover⟩, hr⟩
    exact .remainder (truncates_iff.mpr ⟨hb, rfl, hr⟩) hover

/-- Comparisons go by the order of the integers. -/
theorem compare?_eq_some_iff {x y : Int} (hop : op.isComparison = true) :
    compare? op (x < y) (x = y) (y < x) = some l ↔ Exact x y op l := by
  have hle : (decide (x < y) || decide (x = y)) = decide (x ≤ y) := by
    rw [← Bool.decide_or, decide_eq_decide]
    omega
  have hge : (decide (y < x) || decide (x = y)) = decide (y ≤ x) := by
    rw [← Bool.decide_or, decide_eq_decide]
    omega
  have hne : (!decide (x = y)) = decide (x ≠ y) := (decide_not ..).symm
  -- in each row the comparison gives one literal, and so does the rule
  cases op <;> cases hop <;> simp only [compare?, hle, hge, hne, Option.some.injEq]
  case less => exact ⟨fun h => h ▸ .less, fun h => by cases h; rfl⟩
  case lessEquals => exact ⟨fun h => h ▸ .lessEquals, fun h => by cases h; rfl⟩
  case equals => exact ⟨fun h => h ▸ .equals, fun h => by cases h; rfl⟩
  case notEquals => exact ⟨fun h => h ▸ .notEquals, fun h => by cases h; rfl⟩
  case greaterEquals => exact ⟨fun h => h ▸ .greaterEquals, fun h => by cases h; rfl⟩
  case greater => exact ⟨fun h => h ▸ .greater, fun h => by cases h; rfl⟩

theorem foldInt?_of_isComparison (hop : op.isComparison = true) : foldInt? op a b =
    compare? op (a.toInt < b.toInt) (a.toInt = b.toInt) (b.toInt < a.toInt) := by
  simp only [← Int64.lt_iff_toInt_lt, Int64.toInt_inj]
  cases op <;> cases hop <;> rfl

/-- **What an operator gives, it gives exactly.** -/
theorem foldInt?_eq_some_iff : foldInt? op a b = some l ↔ Exact a.toInt b.toInt op l := by
  by_cases hop : op.isComparison = true
  · rw [foldInt?_of_isComparison hop, compare?_eq_some_iff hop]
  have hop : op.isComparison = false := Bool.eq_false_of_not_eq_true hop
  cases op with
  | add =>
    refine map_int_eq_some_iff hop fun v => ofInt?_eq_some_iff.trans ⟨.add, fun hexact => ?_⟩
    cases hexact with | add h => exact h
  | subtract =>
    refine map_int_eq_some_iff hop fun v => ofInt?_eq_some_iff.trans ⟨.subtract, fun hexact => ?_⟩
    cases hexact with | subtract h => exact h
  | multiply =>
    refine map_int_eq_some_iff hop fun v => ofInt?_eq_some_iff.trans ⟨.multiply, fun hexact => ?_⟩
    cases hexact with | multiply h => exact h
  | divide => exact map_int_eq_some_iff hop fun v => exact_divide_iff.symm
  | remainder => exact map_int_eq_some_iff hop fun v => exact_remainder_iff.symm
  | power =>
    refine map_int_eq_some_iff hop fun v => power?_eq_some_iff.trans ⟨?_, fun hexact => ?_⟩
    · rintro ⟨k, hk, hlt, h⟩
      exact .power hk hlt h
    · cases hexact with | power hk hlt h => exact ⟨_, hk, hlt, h⟩
  | shiftLeft =>
    refine map_int_eq_some_iff hop fun v => shiftLeft?_eq_some_iff.trans ⟨?_, fun hexact => ?_⟩
    · rintro ⟨k, hk, hlt, h⟩
      exact .shiftLeft hk hlt h
    · cases hexact with | shiftLeft hk hlt h => exact ⟨_, hk, hlt, h⟩
  | shiftRight =>
    refine map_int_eq_some_iff hop fun v => shiftRight?_eq_some_iff.trans ⟨?_, fun hexact => ?_⟩
    · rintro ⟨k, hk, hlt, h⟩
      exact .shiftRight hk hlt h
    · cases hexact with | shiftRight hk hlt h => exact ⟨_, hk, hlt, h⟩
  | bitOr =>
    refine map_int_eq_some_iff (o := some (a ||| b)) hop fun v => ?_
    have hbits := testBit_bitwise (u := a ||| b) (v := a) (w := b) (f := or) (by simp)
    rw [Option.some.injEq, eq_iff_testBit hbits]
    refine ⟨.bitOr, fun hexact => ?_⟩
    cases hexact with | bitOr h => exact h
  | bitXor =>
    refine map_int_eq_some_iff (o := some (a ^^^ b)) hop fun v => ?_
    have hbits := testBit_bitwise (u := a ^^^ b) (v := a) (w := b) (f := xor) (by simp)
    rw [Option.some.injEq, eq_iff_testBit hbits]
    refine ⟨.bitXor, fun hexact => ?_⟩
    cases hexact with | bitXor h => exact h
  | bitAnd =>
    refine map_int_eq_some_iff (o := some (a &&& b)) hop fun v => ?_
    have hbits := testBit_bitwise (u := a &&& b) (v := a) (w := b) (f := and) (by simp)
    rw [Option.some.injEq, eq_iff_testBit hbits]
    refine ⟨.bitAnd, fun hexact => ?_⟩
    cases hexact with | bitAnd h => exact h
  | less | lessEquals | equals | notEquals | greaterEquals | greater => cases hop
  | coalesce | or | and => refine iff_of_false (fun h => ?_) (fun h => ?_) <;> cases h

/-- **An operator gives nothing only where there is nothing to give.** -/
theorem foldInt?_eq_none_iff : foldInt? op a b = none ↔ Undefined a.toInt b.toInt op := by
  cases op with
  | add | subtract | multiply => exact Option.map_eq_none_iff.trans ofInt?_eq_none_iff
  | divide => exact Option.map_eq_none_iff.trans div?_eq_none_iff
  | remainder => exact Option.map_eq_none_iff.trans (rem?_eq_none_iff.trans div?_eq_none_iff)
  | power => exact Option.map_eq_none_iff.trans power?_eq_none_iff
  | shiftLeft | shiftRight =>
    exact Option.map_eq_none_iff.trans (Option.map_eq_none_iff.trans natBelow?_eq_none_iff)
  | bitOr | bitXor | bitAnd | less | lessEquals | equals | notEquals | greaterEquals | greater =>
    exact iff_of_false (fun h => by cases h) id
  | coalesce | or | and => exact iff_of_true rfl trivial

end Literal

namespace Expr

variable {n m : Int64} {t : Ty}

theorem simplifyUnary_negate (n : Int64) (t : Ty) : simplifyUnary .negate (.int n) t =
    ((neg? n).map Expr.int).getD (.unary .negate (.int n) t) := by
  have hfold : foldUnary? .negate (.int n) = (neg? n).map .int := rfl
  rw [simplifyUnary, hfold]
  cases neg? n with
  | none => rfl
  | some m => rfl

/-- The opposite of a literal is a literal, with the opposite value. -/
theorem simplifyUnary_negate_eq_int_iff :
    simplifyUnary .negate (.int n) t = .int m ↔ m.toInt = -n.toInt := by
  rw [simplifyUnary_negate, ← ofInt?_eq_some_iff, ← neg?]
  cases neg? n <;> simp

/-- Only that of the least word is left alone. -/
theorem simplifyUnary_negate_eq_unary_iff :
    simplifyUnary .negate (.int n) t = .unary .negate (.int n) t ↔ n.toInt = -2 ^ 63 := by
  have hnone : neg? n = none ↔ n.toInt = -2 ^ 63 := by
    rw [neg?, ofInt?_eq_none_iff]
    have hword := isWord_toInt n
    unfold IsWord at hword ⊢
    omega
  rw [simplifyUnary_negate, ← hnone]
  cases neg? n <;> simp

end Expr

/-- **Integer folding is exact.** An operator on two literals of integers gives way to a literal if
and only if that is the exact value, and stays if and only if there is none. The opposite of a
literal is one too, except for that of the least word. -/
theorem foldInt?_exact :
    (∀ (a b : Int64) (op : BinaryOp) (l : Literal),
      Literal.foldInt? op a b = some l ↔ Literal.Exact a.toInt b.toInt op l) ∧
    (∀ (a b : Int64) (op : BinaryOp),
      Literal.foldInt? op a b = none ↔ Literal.Undefined a.toInt b.toInt op) ∧
    (∀ (n m : Int64) (t : Ty),
      Expr.simplifyUnary .negate (.int n) t = .int m ↔ m.toInt = -n.toInt) ∧
    ∀ (n : Int64) (t : Ty),
      Expr.simplifyUnary .negate (.int n) t = .unary .negate (.int n) t ↔ n.toInt = -2 ^ 63 :=
  ⟨fun _ _ _ _ => Literal.foldInt?_eq_some_iff, fun _ _ _ => Literal.foldInt?_eq_none_iff,
    fun _ _ _ => Expr.simplifyUnary_negate_eq_int_iff,
    fun _ _ => Expr.simplifyUnary_negate_eq_unary_iff⟩

end Typed

end Quill
