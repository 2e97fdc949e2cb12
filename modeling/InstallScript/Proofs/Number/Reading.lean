import InstallScript.Machine.Argument
import InstallScript.Proofs.Expr.Grammar
import InstallScript.Proofs.Machine.Argument
import InstallScript.Proofs.Text.Pieces

/-!
Integers and their decimal forms. The decimal form of an integer is read back as that integer
wherever its range is admitted, so different integers have different decimal forms, and a script can
write any of them.
-/

namespace InstallScript

namespace Number

theorem digitValue_digitChar : ∀ d < 10, digitValue (digitChar d) = d := by
  decide

theorem isDigit_digitChar : ∀ d < 10, (digitChar d).isDigit = true := by
  decide

theorem isDigit_of_mem_decimal {n : Nat} {c : Char} (h : c ∈ decimal n) : c.isDigit = true := by
  induction n using decimal.induct with
  | case1 n hlt =>
    rw [decimal, if_pos hlt, List.mem_singleton] at h
    rw [h]
    exact isDigit_digitChar n hlt
  | case2 n hge ih =>
    rw [decimal, if_neg hge, List.mem_append, List.mem_singleton] at h
    rcases h with h | rfl
    · exact ih h
    · exact isDigit_digitChar _ (Nat.mod_lt n (by decide))

theorem decimal_ne_nil (n : Nat) : decimal n ≠ [] := by
  rw [decimal]
  split
  · exact List.cons_ne_nil _ _
  · simp

theorem ofDigits_decimal (n : Nat) : ofDigits (decimal n) = n := by
  induction n using decimal.induct with
  | case1 n hlt =>
    rw [decimal, if_pos hlt, ofDigits, List.foldl_cons, List.foldl_nil, digitValue_digitChar n hlt]
    omega
  | case2 n hge ih =>
    have hlast := digitValue_digitChar _ (Nat.mod_lt n (show 0 < 10 by decide))
    rw [decimal, if_neg hge, ofDigits, List.foldl_append, List.foldl_cons, List.foldl_nil,
      ← ofDigits, ih, hlast]
    omega

theorem readDigits_eq_some_iff {cs : List Char} {n : Nat} :
    readDigits cs = some n ↔ cs ≠ [] ∧ (∀ c ∈ cs, c.isDigit = true) ∧
      ofDigits cs = n := by
  simp [readDigits, and_assoc]

theorem readDigits_decimal (n : Nat) : readDigits (decimal n) = some n :=
  readDigits_eq_some_iff.mpr ⟨decimal_ne_nil n, fun _ hc => isDigit_of_mem_decimal hc,
    ofDigits_decimal n⟩

/-- Digits are read without a sign. -/
theorem Range.read_of_isDigit (r : Range) {ds : List Char} (h : ∀ c ∈ ds, c.isDigit = true) :
    r.read ds = (readDigits ds).bind fun n => r.check n := by
  unfold read
  split
  · cases h _ List.mem_cons_self
  · cases h _ List.mem_cons_self
  · rfl

/-- The decimal form of an integer is read back as the integer. -/
theorem Range.read_textOfInt {r : Range} {n : Int} (h : r.contains n = true) :
    r.read (textOfInt n).toList = some n := by
  have hcheck : r.check n = some n := if_pos h
  rw [textOfInt, String.toList_ofList]
  by_cases hneg : n < 0
  · have hlo : r.lo < 0 := by
      simp only [contains, Bool.and_eq_true, decide_eq_true_eq] at h
      omega
    have hback : -(n.natAbs : Int) = n := by omega
    rw [if_pos hneg, read, if_pos hlo, readDigits_decimal, Option.bind_some, hback, hcheck]
  · have hback : (n.natAbs : Int) = n := by omega
    rw [if_neg hneg, r.read_of_isDigit fun c hc => isDigit_of_mem_decimal hc, readDigits_decimal,
      Option.bind_some, hback, hcheck]

/-- Every character of a decimal form is a digit or the sign. -/
theorem of_mem_textOfInt {n : Int} {c : Char} (h : c ∈ (textOfInt n).toList) :
    c = '-' ∨ c.isDigit = true := by
  rw [textOfInt, String.toList_ofList] at h
  split at h
  · rcases List.mem_cons.mp h with rfl | h
    · exact .inl rfl
    · exact .inr (isDigit_of_mem_decimal h)
  · exact .inr (isDigit_of_mem_decimal h)

theorem trim_textOfInt (n : Int) : Text.trim (textOfInt n).toList = (textOfInt n).toList := by
  refine Text.trim_eq_self fun c hc => ?_
  rcases of_mem_textOfInt hc with rfl | hdigit
  · rfl
  · exact Expr.isBlank_of_isDigit hdigit

end Number

/-- An argument that is the decimal form of an integer is read as the integer. -/
theorem Argument.integer_textOfInt {range : Number.Range} {n : Int} (h : range.contains n = true) :
    Argument.integer range (Number.textOfInt n) = .ok n := by
  rw [Argument.integer, Number.trim_textOfInt, Number.Range.read_textOfInt h]

/-- Integers with one decimal form are the same. -/
theorem Number.textOfInt_inj {range : Number.Range} {n m : Int} (hn : range.contains n = true)
    (hm : range.contains m = true) (h : textOfInt n = textOfInt m) : n = m := by
  have hread := Argument.integer_textOfInt hn
  rw [h, Argument.integer_textOfInt hm] at hread
  exact (Except.ok.inj hread).symm

/-- There are no placeholders in a decimal form. -/
theorem Variables.substitute_textOfInt (vars : Variables) (n : Int) :
    vars.substitute (Number.textOfInt n) = .ok (Number.textOfInt n) := by
  refine substitute_eq_ok vars fun hmem => ?_
  rcases Number.of_mem_textOfInt hmem with heq | hdigit
  · cases heq
  · cases hdigit

end InstallScript
