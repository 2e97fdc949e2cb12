import InstallScript.Expr.Integer
import InstallScript.Proofs.Script.Vocabulary
import Mathlib.Algebra.Group.Int.Defs

/-!
The grammar of integer expressions. A text is a sequence of tokens with white space around them, a
sequence of tokens is derived as a tree, and a tree has a value among the integers. None of this
says how an expression is read: that reading agrees with it is what the theorems about expressions
say.
-/

namespace InstallScript.Expr

open Text (isBlank)

/-- A token of an expression: a literal, or a sign, which is an operator or a parenthesis. -/
inductive Token where
  | literal (digits : List Char)
  | sign (c : Char)
  deriving DecidableEq, Repr

/-- The characters of a token. -/
def Token.text : Token → List Char
  | .literal digits => digits
  | .sign c => [c]

/-- Whether a text consists of tokens, with any white space before, between and after them. -/
def Spells : List Token → List Char → Prop
  | [], cs => ∀ c ∈ cs, isBlank c = true
  | t :: ts, cs =>
    ∃ blanks after, (∀ c ∈ blanks, isBlank c = true) ∧ cs = blanks ++ (t.text ++ after) ∧
    Spells ts after

/-- An expression with its signs and parentheses. -/
inductive Tree where
  | literal (digits : List Char)
  | group (inner : Tree)
  | plus (operand : Tree)
  | minus (operand : Tree)
  | binary (op : Op) (left right : Tree)
  deriving DecidableEq, Repr

/-- The levels of the grammar, the loosest first. -/
inductive Level where
  | sum
  | product
  | unary
  | power
  | atom
  deriving DecidableEq, Repr

/-- How an operator is written. -/
def Op.symbol : Op → Char
  | .add => '+'
  | .sub => '-'
  | .mul => '*'
  | .div => '/'
  | .mod => '%'
  | .pow => '^'

/-- The grammar. Sums and products associate to the left, and a power, whose exponent is an operand
    with its signs, to the right. -/
inductive Derives : Level → Tree → List Token → Prop where
  | sum {t : Tree} {w : List Token} : Derives .product t w → Derives .sum t w
  | sumMore {s t : Tree} {u w : List Token} {op : Op} : Derives .sum s u → op ∈ [.add, .sub] →
      Derives .product t w → Derives .sum (.binary op s t) (u ++ .sign op.symbol :: w)
  | product {t : Tree} {w : List Token} : Derives .unary t w → Derives .product t w
  | productMore {s t : Tree} {u w : List Token} {op : Op} : Derives .product s u →
      op ∈ [.mul, .div, .mod] →
      Derives .unary t w → Derives .product (.binary op s t) (u ++ .sign op.symbol :: w)
  | minus {t : Tree} {w : List Token} : Derives .unary t w →
    Derives .unary (.minus t) (.sign '-' :: w)
  | plus {t : Tree} {w : List Token} : Derives .unary t w →
    Derives .unary (.plus t) (.sign '+' :: w)
  | unary {t : Tree} {w : List Token} : Derives .power t w → Derives .unary t w
  | power {t : Tree} {w : List Token} : Derives .atom t w → Derives .power t w
  | powerMore {s t : Tree} {u w : List Token} : Derives .atom s u → Derives .unary t w →
      Derives .power (.binary .pow s t) (u ++ .sign Op.pow.symbol :: w)
  | literal {digits : List Char} : digits ≠ [] → (∀ c ∈ digits, c.isDigit = true) →
      Derives .atom (.literal digits) [.literal digits]
  | group {t : Tree} {w : List Token} : Derives .sum t w →
      Derives .atom (.group t) (.sign '(' :: (w ++ [.sign ')']))

namespace Tree

/-- Whether a text is derived as a tree. -/
def Derives (t : Tree) (text : String) : Prop :=
  ∃ tokens, Spells tokens text.toList ∧ Expr.Derives .sum t tokens

/-- The number of signs, parentheses and exponents around the operand that has most of them around
    it. -/
def depth : Tree → Nat
  | .literal _ => 0
  | .group t | .plus t | .minus t => t.depth + 1
  | .binary .pow s t => max s.depth (t.depth + 1)
  | .binary _ s t => max s.depth t.depth

end Tree

/-- What an operator gives on integers. Division goes toward zero, and a remainder has the sign of
    the dividend. -/
def Op.apply : Op → Int → Int → Int
  | .add, a, b => a + b
  | .sub, a, b => a - b
  | .mul, a, b => a * b
  | .div, a, b => a.tdiv b
  | .mod, a, b => a.tmod b
  | .pow, a, b => a ^ b.toNat

/-- Whether an integer fits a signed word of 64 bits. -/
def IsWord (n : Int) : Prop :=
  -2 ^ 63 ≤ n ∧ n ≤ 2 ^ 63 - 1

/-- Which operands an operator allows: no divisor is zero, the lowest word is neither divided nor
    reduced by minus one, and an exponent is a word of 32 bits without sign. -/
def Op.Allows : Op → Int → Int → Prop
  | .div, a, b | .mod, a, b => b ≠ 0 ∧ ¬(a = -2 ^ 63 ∧ b = -1)
  | .pow, _, b => 0 ≤ b ∧ b ≤ 2 ^ 32 - 1
  | _, _, _ => True

namespace Tree

/-- The value of a tree among the integers. -/
def value : Tree → Int
  | .literal digits => Number.ofDigits digits
  | .group t | .plus t => t.value
  | .minus t => -t.value
  | .binary op s t => op.apply s.value t.value

/-- Whether every literal and every intermediate result fits, and every operator is applied to
    operands that it allows. -/
def Fits : Tree → Prop
  | .literal digits => IsWord (Number.ofDigits digits)
  | .group t | .plus t => t.Fits
  | .minus t => t.Fits ∧ IsWord (-t.value)
  | .binary op s t =>
    s.Fits ∧ t.Fits ∧ op.Allows s.value t.value ∧ IsWord (op.apply s.value t.value)

end Tree

/-- The signs that can follow what is derived at a level. -/
def Level.followers : Level → List Char
  | .sum => [')']
  | .product => ['+', '-', ')']
  | .unary | .power => ['*', '/', '%', '+', '-', ')']
  | .atom => ['^', '*', '/', '%', '+', '-', ')']

/-- Whether tokens can follow what is derived at a level. -/
def Level.Precedes (level : Level) : List Token → Prop
  | [] => True
  | .sign c :: _ => c ∈ level.followers
  | .literal _ :: _ => False

theorem isBlank_of_isDigit {c : Char} (h : c.isDigit = true) : isBlank c = false := by
  have hbounds : 48 ≤ c.toNat ∧ c.toNat ≤ 57 := by
    simp only [Char.isDigit, Bool.and_eq_true, decide_eq_true_eq, ge_iff_le,
      UInt32.le_iff_toNat_le] at h
    exact h
  simp only [isBlank, Bool.or_eq_false_iff, Bool.and_eq_false_iff, decide_eq_false_iff_not,
    beq_eq_false_iff_ne]
  omega

theorem isNumberChar_of_isBlank {c : Char} (h : isBlank c = true) : isNumberChar c = false := by
  have halpha : c.isAlpha = false :=
    Bool.eq_false_iff.mpr fun halpha =>
      Bool.false_ne_true ((Text.isBlank_of_isAlpha halpha).symm.trans h)
  have hdigit : c.isDigit = false :=
    Bool.eq_false_iff.mpr fun hdigit =>
      Bool.false_ne_true ((isBlank_of_isDigit hdigit).symm.trans h)
  have hdot : c ≠ '.' := by
    rintro rfl
    revert h
    decide
  simp [isNumberChar, Char.isAlphanum, halpha, hdigit, hdot]

/-- A sign that can follow is neither white space nor part of a literal. -/
theorem Level.of_mem_followers (level : Level) {c : Char} (h : c ∈ level.followers) :
    isBlank c = false ∧ isNumberChar c = false := by
  have hall : level.followers.all (fun c => !isBlank c && !isNumberChar c) = true := by
    cases level <;> decide
  simpa using List.all_eq_true.mp hall c h

section Spelling

variable {ts : List Token} {cs after : List Char} {c : Char}

theorem skip_append {blanks : List Char} (h : ∀ c ∈ blanks, isBlank c = true) (cs : List Char) :
    skip (blanks ++ cs) = skip cs :=
  List.dropWhile_append_of_pos h

theorem skip_cons (h : isBlank c = false) (cs : List Char) : skip (c :: cs) = c :: cs := by
  simp [skip, Text.trimStart, h]

theorem exists_blanks (cs : List Char) :
    ∃ blanks, (∀ c ∈ blanks, isBlank c = true) ∧ cs = blanks ++ skip cs :=
  ⟨cs.takeWhile isBlank, List.all_eq_true.mp List.all_takeWhile,
    List.takeWhile_append_dropWhile.symm⟩

/-- White space before the first token does not matter. -/
theorem Spells.of_skip (h : Spells ts (skip cs)) : Spells ts cs := by
  obtain ⟨blanks, hblanks, hcs⟩ := exists_blanks cs
  cases ts with
  | nil =>
    intro c hc
    rw [hcs] at hc
    exact (List.mem_append.mp hc).elim (hblanks c) (h c)
  | cons t ts =>
    obtain ⟨more, after, hmore, hskip, hafter⟩ := h
    refine ⟨blanks ++ more, after, fun c hc => ?_, ?_, hafter⟩
    · exact (List.mem_append.mp hc).elim (hblanks c) (hmore c)
    · rw [List.append_assoc, ← hskip]
      exact hcs

theorem Spells.cons_sign (h : Spells ts after) (hskip : skip cs = c :: after) :
    Spells (.sign c :: ts) cs :=
  Spells.of_skip ⟨[], after, by simp, hskip, h⟩

theorem Spells.skip_of_nil (h : Spells [] cs) : skip cs = [] := by
  rw [← List.append_nil cs, skip_append h]
  rfl

theorem Spells.skip_of_sign (h : Spells (.sign c :: ts) cs) (hc : isBlank c = false) :
    ∃ after, skip cs = c :: after ∧ Spells ts after := by
  obtain ⟨blanks, after, hblanks, rfl, hafter⟩ := h
  exact ⟨after, by rw [skip_append hblanks]; exact skip_cons hc after, hafter⟩

/-- Only a sign that can follow is met after what is derived at a level. -/
theorem Spells.skip {level : Level} (h : Spells ts cs) (hlevel : level.Precedes ts) :
    Spells ts (Expr.skip cs) ∧ ∀ c after, Expr.skip cs = c :: after →
      c ∈ level.followers := by
  cases ts with
  | nil =>
    rw [h.skip_of_nil]
    exact ⟨by simp [Spells], by simp⟩
  | cons t ts =>
    cases t with
    | literal digits => exact hlevel.elim
    | sign c =>
      obtain ⟨after, hskip, hafter⟩ := h.skip_of_sign (level.of_mem_followers hlevel).1
      rw [hskip]
      refine ⟨⟨[], after, by simp, rfl, hafter⟩, ?_⟩
      rintro _ _ ⟨⟩
      exact hlevel

/-- The text of tokens ends with that of the last ones. -/
theorem Spells.exists_suffix {ws : List Token} (h : Spells (ws ++ ts) cs) :
    ∃ after, Spells ts after ∧ after <:+ cs := by
  induction ws generalizing cs with
  | nil => exact ⟨cs, h, List.suffix_refl cs⟩
  | cons t ws ih =>
    obtain ⟨blanks, mid, -, rfl, hmid⟩ := h
    obtain ⟨after, hafter, hsuffix⟩ := ih hmid
    refine ⟨after, hafter, hsuffix.trans ?_⟩
    exact (List.suffix_append t.text mid).trans (List.suffix_append blanks _)

/-- A literal ends where the next token or white space starts. -/
theorem Spells.isNumberChar_head {level : Level} (h : Spells ts (c :: cs))
    (hlevel : level.Precedes ts) :
    isNumberChar c = false := by
  cases ts with
  | nil => exact isNumberChar_of_isBlank (h c List.mem_cons_self)
  | cons t ts =>
    obtain ⟨blanks, after, hblanks, heq, -⟩ := h
    cases t with
    | literal digits => exact hlevel.elim
    | sign d =>
      cases blanks with
      | nil =>
        cases heq
        exact (level.of_mem_followers hlevel).2
      | cons b blanks =>
        cases heq
        exact isNumberChar_of_isBlank (hblanks c List.mem_cons_self)

end Spelling

end InstallScript.Expr
