import InstallScript.Proofs.Expr.Reading
import Mathlib.Algebra.Group.Nat.Defs

/-!
The values of integer expressions. An expression has a value exactly if the grammar derives it as a
tree that is not nested too deeply and all of whose parts fit, and its value is that of the tree.
Nothing ever wraps.
-/

namespace InstallScript.Expr

open Number (long)

theorem contains_long_iff (n : Int) : long.contains n = true ↔ IsWord n := by
  have hlo : long.lo = -2 ^ 63 := rfl
  have hhi : long.hi = 2 ^ 63 - 1 := rfl
  simp only [Number.Range.contains, hlo, hhi, Bool.and_eq_true, decide_eq_true_eq, IsWord]

theorem fit_eq_ok_iff {n v : Int} : fit n = .ok v ↔ IsWord n ∧ n = v := by
  rw [← contains_long_iff, fit]
  split <;> simp_all

section Words

variable {a b : Int}

theorem isWord_of_natAbs_le {n : Int} (h : n.natAbs ≤ 2 ^ 62) : IsWord n := by
  unfold IsWord
  omega

/-- The quotient of a word fits unless the lowest word is divided by minus one. -/
theorem isWord_tdiv_iff (ha : IsWord a) (hb : b ≠ 0) : IsWord (a.tdiv b) ↔
    ¬(a = -2 ^ 63 ∧ b = -1) := by
  by_cases hone : b = 1
  · subst hone
    rw [Int.tdiv_one]
    exact iff_of_true ha (by omega)
  · by_cases hminus : b = -1
    · subst hminus
      rw [Int.tdiv_neg, Int.tdiv_one]
      unfold IsWord at *
      omega
    · refine iff_of_true (isWord_of_natAbs_le ?_) (by simp [hminus])
      have habs : a.natAbs ≤ 2 ^ 63 := by
        unfold IsWord at ha
        omega
      have htwo : 2 ≤ b.natAbs := by omega
      calc (a.tdiv b).natAbs = a.natAbs / b.natAbs := Int.natAbs_tdiv a b
        _ ≤ a.natAbs / 2 := Nat.div_le_div_left htwo (by decide)
        _ ≤ 2 ^ 62 := by omega

/-- A remainder is no larger than the dividend, and has its sign. -/
theorem isWord_tmod (ha : IsWord a) (b : Int) : IsWord (a.tmod b) := by
  have hle : (a.tmod b).natAbs ≤ a.natAbs := by
    rw [Int.natAbs_tmod]
    exact Nat.mod_le _ _
  unfold IsWord at *
  rcases Int.le_total 0 a with hpos | hneg
  · have hmod := Int.tmod_nonneg b hpos
    omega
  · have hmod := Int.tmod_nonneg b (Int.neg_nonneg.mpr hneg)
    rw [Int.neg_tmod] at hmod
    omega

/-- No power with a large base and a large exponent fits. -/
theorem not_isWord_pow (ha : 2 ≤ a.natAbs) {k : Nat} (hk : 64 ≤ k) : ¬IsWord (a ^ k) := by
  have habs : 2 ^ 64 ≤ (a ^ k).natAbs := by
    calc 2 ^ 64 ≤ 2 ^ k := Nat.pow_le_pow_right (by decide) hk
      _ ≤ a.natAbs ^ k := Nat.pow_le_pow_left ha k
      _ = (a ^ k).natAbs := (Int.natAbs_pow a k).symm
  unfold IsWord
  omega

/-- The powers of minus one, zero and one alternate. -/
theorem pow_of_natAbs_le_one (ha : a.natAbs ≤ 1) (hb : 0 ≤ b) :
    a ^ b.toNat = if b = 0 then 1 else if b % 2 = 0 then a * a else a := by
  have hcube : a * a * a = a := by
    obtain rfl | rfl | rfl : a = -1 ∨ a = 0 ∨ a = 1 := by omega
    all_goals rfl
  have hpow : ∀ k : Nat, a ^ (k + 1) = if (k + 1) % 2 = 0 then a * a else a := by
    intro k
    induction k with
    | zero =>
      rw [Int.pow_succ, Int.pow_zero, Int.one_mul]
      rfl
    | succ k ih =>
      rw [Int.pow_succ, ih]
      by_cases heven : (k + 1) % 2 = 0
      · rw [if_pos heven, if_neg (by omega), hcube]
      · rw [if_neg heven, if_pos (by omega)]
  obtain ⟨k, rfl⟩ := Int.eq_ofNat_of_zero_le hb
  cases k with
  | zero => simp
  | succ k =>
    have heven : ((k + 1 : Nat) : Int) % 2 = 0 ↔ (k + 1) % 2 = 0 := by omega
    have hne : ((k + 1 : Nat) : Int) ≠ 0 := by omega
    rw [Int.toNat_natCast, hpow, if_neg hne]
    simp only [heven]

theorem isWord_pow_of_natAbs_le_one (ha : a.natAbs ≤ 1) (k : Nat) : IsWord (a ^ k) := by
  apply isWord_of_natAbs_le
  calc (a ^ k).natAbs = a.natAbs ^ k := Int.natAbs_pow a k
    _ ≤ 1 ^ k := Nat.pow_le_pow_left ha k
    _ ≤ 2 ^ 62 := by simp

theorem power_eq_ok_iff {v : Int} : power a b = .ok v ↔
    (0 ≤ b ∧ b ≤ 2 ^ 32 - 1) ∧ IsWord (a ^ b.toNat) ∧ a ^ b.toNat = v := by
  have hlimit : Int.pow 2 32 = 2 ^ 32 := rfl
  unfold power
  rw [hlimit]
  split
  · rename_i hout
    simp only [Bool.or_eq_true, decide_eq_true_eq] at hout
    refine iff_of_false (by simp) fun h => ?_
    omega
  · rename_i hin
    simp only [Bool.or_eq_true, decide_eq_true_eq, not_or, Int.not_lt, Int.not_le] at hin
    have hallowed : 0 ≤ b ∧ b ≤ 2 ^ 32 - 1 := by omega
    simp only [hallowed, and_self, true_and]
    split
    · rename_i hone
      rw [← pow_of_natAbs_le_one hone hin.1, Except.ok.injEq]
      simp only [isWord_pow_of_natAbs_le_one hone, true_and]
    · rename_i hbase
      split
      · rename_i hexponent
        have hword := not_isWord_pow (a := a) (by omega) (k := b.toNat) (by omega)
        simp [hword]
      · exact fit_eq_ok_iff

/-- An operation on words gives a result exactly if it allows its operands and the result fits. -/
theorem binary_eq_ok_iff {op : Op} {v : Int} (ha : IsWord a) : integers.binary op a b = .ok v ↔
    op.Allows a b ∧ IsWord (op.apply a b) ∧ op.apply a b = v := by
  cases op with
  | add | sub | mul => simpa [integers, Op.Allows, Op.apply] using fit_eq_ok_iff
  | div =>
    simp only [integers, Op.Allows, Op.apply]
    split
    · rename_i hzero
      simp [hzero]
    · rename_i hb
      rw [fit_eq_ok_iff, ← isWord_tdiv_iff ha hb]
      simp [hb]
  | mod =>
    simp only [integers, Op.Allows, Op.apply, isWord_tmod ha b, true_and]
    split
    · rename_i hzero
      simp [hzero]
    · rename_i hb
      rw [← isWord_tdiv_iff ha hb, ← contains_long_iff]
      split <;> simp_all
  | pow => exact power_eq_ok_iff

end Words

theorem Tree.Fits.isWord {t : Tree} (h : t.Fits) : IsWord t.value := by
  cases t with
  | literal digits => exact h
  | group t => exact Fits.isWord (t := t) h
  | plus t => exact Fits.isWord (t := t) h
  | minus t => exact h.2
  | binary op s t => exact h.2.2.2

/-- Literals are read without a sign. -/
theorem read_of_number {cs : List Char} (h : ∀ c ∈ cs, isNumberChar c = true) :
    long.read cs = (Number.readDigits cs).bind fun n => long.check n := by
  unfold Number.Range.read
  split
  · cases h _ List.mem_cons_self
  · cases h _ List.mem_cons_self
  · rfl

theorem isPlain_integers : integers.IsPlain where
  read cs a h hread := by
    simp only [integers, String.toList_ofList, read_of_number h] at hread
    obtain ⟨n, hn, -⟩ := Option.bind_eq_some_iff.mp hread
    unfold Number.readDigits at hn
    split at hn
    · rename_i hdigits
      simp only [Bool.and_eq_true] at hdigits
      exact List.all_eq_true.mp hdigits.2
    · cases hn
  call name a b := by simp [integers]

theorem negate_eq_ok_iff {a v : Int} : integers.negate a = .ok v ↔ IsWord (-a) ∧ -a = v :=
  fit_eq_ok_iff

/-- Evaluating the parts of a tree within bounds gives their values. -/
theorem eval_binary_iff {s t : Tree} {op : Op} {n : Nat} {v : Int}
    (hs : ∀ n v, s.eval integers n = .ok v ↔ s.depth < n ∧ s.Fits ∧ s.value = v)
    (ht : ∀ n v, t.eval integers n = .ok v ↔ t.depth < n ∧ t.Fits ∧ t.value = v) :
    (Tree.binary op s t).eval integers n = .ok v ↔
      (Tree.binary op s t).depth < n ∧ (Tree.binary op s t).Fits ∧
      (Tree.binary op s t).value = v := by
  have hdepth : (Tree.binary op s t).depth < n ↔ s.depth < n ∧ t.depth < if op = .pow
      then n - 1 else n := by
    cases op <;> simp only [Tree.depth, reduceCtorEq, if_true, if_false] <;> omega
  simp only [Tree.eval, Except.bind_eq_ok_iff, hs, ht, hdepth, Tree.Fits, Tree.value]
  constructor
  · rintro ⟨_, ⟨hsn, hsf, rfl⟩, _, ⟨htn, htf, rfl⟩, hbinary⟩
    obtain ⟨hallows, hword, hv⟩ := (binary_eq_ok_iff hsf.isWord).mp hbinary
    exact ⟨⟨hsn, htn⟩, ⟨hsf, htf, hallows, hword⟩, hv⟩
  · rintro ⟨⟨hsn, htn⟩, ⟨hsf, htf, hallows, hword⟩, hv⟩
    exact ⟨_, ⟨hsn, hsf, rfl⟩, _, ⟨htn, htf, rfl⟩,
      (binary_eq_ok_iff hsf.isWord).mpr ⟨hallows, hword, hv⟩⟩

/-- A tree that is derived has a value exactly if it is not nested too deeply and everything in it
    fits. -/
theorem Derives.eval_iff {level : Level} {t : Tree} {w : List Token} (h : Derives level t w)
    (n : Nat) (v : Int) :
    t.eval integers n = .ok v ↔ t.depth < n ∧ t.Fits ∧ t.value = v := by
  induction h generalizing n v with
  | sum _ ih | product _ ih | unary _ ih | power _ ih => exact ih n v
  | sumMore _ _ _ ihs iht | productMore _ _ _ ihs iht | powerMore _ _ ihs iht =>
    exact eval_binary_iff ihs iht
  | group _ ih | plus _ ih =>
    cases n with
    | zero => simp [Tree.eval]
    | succ n => simp [Tree.eval, Tree.depth, Tree.Fits, Tree.value, ih]
  | minus _ ih =>
    cases n with
    | zero => simp [Tree.eval]
    | succ n =>
      simp only [Tree.eval, Tree.depth, Tree.Fits, Tree.value, Except.bind_eq_ok_iff, ih,
        negate_eq_ok_iff, Nat.add_lt_add_iff_right]
      constructor
      · rintro ⟨_, ⟨hn, hfits, rfl⟩, hword, hv⟩
        exact ⟨hn, ⟨hfits, hword⟩, hv⟩
      · rintro ⟨hn, ⟨hfits, hword⟩, hv⟩
        exact ⟨_, ⟨hn, hfits, rfl⟩, hword, hv⟩
  | @literal digits hne hdigits =>
    cases n with
    | zero => simp [Tree.eval]
    | succ n =>
      have hnumber : ∀ c ∈ digits, isNumberChar c = true := fun c hc => by
        simp [isNumberChar, Char.isAlphanum, hdigits c hc]
      have hread : Number.readDigits digits = some (Number.ofDigits digits) := by
        simpa [Number.readDigits, hne] using hdigits
      simp only [Tree.eval, integers, String.toList_ofList, read_of_number hnumber, hread,
        Option.bind_some, Tree.depth, Tree.Fits, Tree.value, Number.Range.check,
          ← contains_long_iff]
      by_cases hword : long.contains (Number.ofDigits digits) = true <;> simp [hword]

/-- An integer expression has a value exactly if the grammar derives it as a tree whose operands
    have at most 127 signs, parentheses and exponents around them, in which every literal and every
    intermediate result is a word of 64 bits, and in which no operator is applied to operands that
    it does not allow. The value is that of the tree among the integers, whichever tree of the
    expression is taken. -/
theorem evalInt_eq_ok_iff_derives (text : String) (v : Int) :
    (evalInt text = .ok v ↔ ∃ t : Tree, t.Derives text ∧ t.depth ≤ 127 ∧ t.Fits ∧
      t.value = v) ∧
    ∀ t : Tree, t.Derives text →
      (evalInt text = .ok v ↔ t.depth ≤ 127 ∧ t.Fits ∧ t.value = v) := by
  have hderived : ∀ t : Tree, t.Derives text →
      (evalInt text = .ok v ↔ t.depth ≤ 127 ∧ t.Fits ∧ t.value = v) := by
    intro t ht
    obtain ⟨w, -, hw⟩ := id ht
    rw [evalInt, eval_of_derives integers ht, hw.eval_iff, maxDepth, Nat.lt_succ_iff]
  refine ⟨⟨fun h => ?_, ?_⟩, hderived⟩
  · obtain ⟨t, ht⟩ := exists_derives_of_eval isPlain_integers h
    exact ⟨t, ht, (hderived t ht).mp h⟩
  · rintro ⟨t, ht, hfits⟩
    exact (hderived t ht).mpr hfits

end InstallScript.Expr
