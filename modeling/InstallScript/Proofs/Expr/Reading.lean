import InstallScript.Proofs.Expr.Grammar
import InstallScript.Proofs.Result

/-!
Reading expressions. A text that the grammar derives as a tree is read as that tree is evaluated,
whatever goes wrong on the way, and whatever is read without fault is derived by the grammar.
-/

namespace InstallScript.Expr

variable {α : Type}

/-- The value of a tree in some arithmetic, where operands may nest `n` levels deep. -/
def Tree.eval (A : Arithmetic α) : Tree → Nat → Except Fault α
  | .binary op s t, n => do
    let a ← s.eval A n
    let b ← t.eval A (if op = .pow then n - 1 else n)
    A.binary op a b
  | _, 0 => .error (.tooDeep maxDepth)
  | .literal digits, _ + 1 =>
    match A.read (String.ofList digits) with
    | some a => .ok a
    | none => .error (.badNumber (String.ofList digits))
  | .group t, n + 1 | .plus t, n + 1 => t.eval A n
  | .minus t, n + 1 => do A.negate (← t.eval A n)

/-- Whether a reader gives a result on a text and leaves a text of some tokens. -/
def Finds (read : Reader α) (cs : List Char) (rest : List Token) (result : Except Fault α) :
    Prop :=
  ∃ after, Spells rest after ∧ after <:+ cs ∧ read cs = result >>= fun a => .ok (a, after)

section Chains

variable {A : Arithmetic α} {op? : Char → Option Op} {read : Reader α} {rounds : Nat}
  {cs : List Char} {a : α}

theorem suffix_of_skip {c : Char} {after : List Char} (h : skip cs = c :: after) :
    c :: after <:+ cs :=
  h ▸ List.dropWhile_suffix Text.isBlank

theorem tail_suffix_of_skip {c : Char} {after : List Char} (h : skip cs = c :: after) :
    after <:+ cs :=
  (List.suffix_cons c after).trans (suffix_of_skip h)

/-- A chain ends where no operator of it follows. -/
theorem chainFrom_of_end (h : ∀ c after, skip cs = c :: after → op? c = none)
    (hrounds : cs.length ≤ rounds) :
    chainFrom A op? read rounds a cs = .ok (a, skip cs) := by
  cases rounds with
  | zero =>
    obtain rfl := List.eq_nil_of_length_eq_zero (Nat.le_zero.mp hrounds)
    rfl
  | succ rounds =>
    rw [chainFrom]
    cases hskip : skip cs with
    | nil => rfl
    | cons c after => simp only [h c after hskip]

/-- A chain goes on behind an operator. -/
theorem exists_chainFrom_of_op (read : Reader α) {c : Char} {after : List Char} {op : Op}
    (hskip : skip cs = c :: after) (hop : op? c = some op) (hrounds : cs.length ≤ rounds) :
    ∃ rounds', after.length ≤ rounds' ∧
      chainFrom A op? read rounds a cs = (do
        let (b, rest) ← read after
        let value ← A.binary op a b
        chainFrom A op? read rounds' value rest) := by
  have hlt : after.length < cs.length := (suffix_of_skip hskip).length_le
  cases rounds with
  | zero => omega
  | succ rounds =>
    refine ⟨rounds, by omega, ?_⟩
    rw [chainFrom]
    simp only [hskip, hop]

/-- Whether a chain has a result so far, and goes on from it on a text of some tokens. -/
def Reaches (A : Arithmetic α) (op? : Char → Option Op) (operand : Reader α) (cs : List Char)
    (rest : List Token) (result : Except Fault α) : Prop :=
  ∃ after rounds, Spells rest after ∧ after <:+ cs ∧ after.length ≤ rounds ∧
    chain A op? operand cs = result >>= fun a => chainFrom A op? operand rounds a after

theorem Finds.reaches {rest : List Token} {result : Except Fault α}
    (h : Finds read cs rest result) :
    Reaches A op? read cs rest result := by
  obtain ⟨after, hrest, hsuffix, hread⟩ := h
  refine ⟨after, after.length, hrest, hsuffix, Nat.le_refl _, ?_⟩
  rw [chain, hread]
  cases result <;> rfl

/-- Another operand of a chain. -/
theorem Reaches.more {rest more : List Token} {result other : Except Fault α} {c : Char} {op : Op}
    (h : Reaches A op? read cs (.sign c :: more) result) (hc : Text.isBlank c = false)
    (hop : op? c = some op) (hread : ∀ text, Spells more text → Finds read text rest other) :
    Reaches A op? read cs rest (do let a ← result; let b ← other; A.binary op a b) := by
  obtain ⟨mid, rounds, hmid, hsuffix, hrounds, hchain⟩ := h
  obtain ⟨text, hskip, htext⟩ := hmid.skip_of_sign hc
  obtain ⟨after, hafter, hlast, hother⟩ := hread text htext
  cases result with
  | error fault =>
    exact ⟨after, after.length, hafter, (hlast.trans (tail_suffix_of_skip hskip)).trans hsuffix,
      Nat.le_refl _, hchain⟩
  | ok a =>
    obtain ⟨rounds', hrounds', hmore⟩ :=
      exists_chainFrom_of_op (A := A) (a := a) read hskip hop hrounds
    refine ⟨after, rounds', hafter, (hlast.trans (tail_suffix_of_skip hskip)).trans hsuffix,
      Nat.le_trans hlast.length_le hrounds', ?_⟩
    rw [hchain]
    change chainFrom A op? read rounds a mid = _
    rw [hmore, hother]
    cases other <;> rfl

/-- A chain that no operator follows. -/
theorem Reaches.finds {level : Level} {rest : List Token} {result : Except Fault α}
    (h : Reaches A op? read cs rest result) (hlevel : level.Precedes rest)
    (hops : ∀ c ∈ level.followers, op? c = none) : Finds (chain A op? read) cs rest result := by
  obtain ⟨after, rounds, hafter, hsuffix, hrounds, hchain⟩ := h
  obtain ⟨hskip, hhead⟩ := hafter.skip hlevel
  refine ⟨skip after, hskip, (List.dropWhile_suffix _).trans hsuffix, ?_⟩
  rw [hchain]
  simp only [chainFrom_of_end (fun c rest heq => hops c (hhead c rest heq)) hrounds]

end Chains

/-- A power or an atom, with neither white space nor a sign before it. -/
def raised (A : Arithmetic α) (operand : Reader α) : Reader α := fun cs => do
  let (base, rest) ← atom A operand cs
  match skip rest with
  | '^' :: after => do
    let (exponent, rest) ← operand after
    let value ← A.binary .pow base exponent
    return (value, rest)
  | rest => return (base, rest)

section Operands

variable (A : Arithmetic α) {cs after : List Char} {n : Nat}

theorem operand_of_minus (h : skip cs = '-' :: after) :
    operand A (n + 1) cs = (do
      let (a, rest) ← operand A n after
      let value ← A.negate a
      return (value, rest)) := by
  rw [operand, h]
  rfl

theorem operand_of_plus (h : skip cs = '+' :: after) :
    operand A (n + 1) cs = operand A n after := by
  rw [operand, h]
  rfl

theorem operand_of_unsigned (h : ∀ c after, skip cs = c :: after → c ≠ '-' ∧ c ≠ '+') :
    operand A (n + 1) cs = raised A (operand A n) (skip cs) := by
  rw [operand]
  split
  · rename_i after heq
    exact absurd rfl (h _ after heq).1
  · rename_i after heq
    exact absurd rfl (h _ after heq).2
  · rfl

theorem raised_of_exponent {read : Reader α} {result other : Except Fault α}
    {mid text : List Char} (hbase : atom A read cs = result >>= fun a => .ok (a, mid))
    (hskip : skip mid = '^' :: text) (hexponent : read text = other >>= fun b => .ok (b, after)) :
    raised A read cs = (do let a ← result; let b ← other; A.binary .pow a b) >>= fun a =>
      .ok (a, after) := by
  rw [raised, hbase]
  cases result with
  | error fault => rfl
  | ok a =>
    change (match skip mid with
      | '^' :: after => _
      | rest => _) = _
    rw [hskip]
    simp only [hexponent]
    cases other with
    | error fault => rfl
    | ok b => rfl

theorem raised_of_end {read : Reader α} {result : Except Fault α} {mid : List Char}
    (hbase : atom A read cs = result >>= fun a => .ok (a, mid))
    (hskip : ∀ after, skip mid ≠ '^' :: after) :
    raised A read cs = result >>= fun a => .ok (a, skip mid) := by
  rw [raised, hbase]
  cases result with
  | error fault => rfl
  | ok a =>
    change (match skip mid with
      | '^' :: after => _
      | rest => _) = _
    split
    · rename_i after heq
      exact absurd heq (hskip after)
    · rfl

end Operands

section Atoms

variable (A : Arithmetic α) {read : Reader α} {rest : List Token}

/-- A literal is read up to its last digit. -/
theorem finds_literal {digits after : List Char} {n : Nat} (hne : digits ≠ [])
    (hdigits : ∀ c ∈ digits, c.isDigit = true) (hafter : Spells rest after)
    (hrest : Level.atom.Precedes rest) :
    Finds (atom A read) (digits ++ after) rest ((Tree.literal digits).eval A (n + 1)) := by
  have hnumber : ∀ c ∈ digits, isNumberChar c = true := fun c hc => by
    simp [isNumberChar, Char.isAlphanum, hdigits c hc]
  have htake : (digits ++ after).takeWhile isNumberChar = digits ∧
      (digits ++ after).dropWhile isNumberChar = after := by
    rw [List.takeWhile_append_of_pos hnumber, List.dropWhile_append_of_pos hnumber]
    cases after with
    | nil => simp
    | cons c after => simp [hafter.isNumberChar_head hrest]
  refine ⟨after, hafter, List.suffix_append digits after, ?_⟩
  obtain ⟨d, more, rfl⟩ := List.exists_cons_of_ne_nil hne
  have hd := hdigits d List.mem_cons_self
  have hparen : d ≠ '(' := by
    rintro rfl
    cases hd
  rw [List.cons_append] at htake ⊢
  simp only [atom, hparen, if_false, hd, Bool.true_or, if_true, htake, Tree.eval]
  cases A.read (String.ofList (d :: more)) <;> rfl

/-- A sum in parentheses is read up to its closing parenthesis. -/
theorem finds_group {text : List Char} {result : Except Fault α}
    (h : Finds (sum A read) text (.sign ')' :: rest) result) :
    Finds (atom A read) ('(' :: text) rest result := by
  obtain ⟨mid, hmid, hsuffix, hsum⟩ := h
  obtain ⟨after, hskip, hafter⟩ := hmid.skip_of_sign (by decide)
  refine ⟨after, hafter, ?_, ?_⟩
  · exact ((tail_suffix_of_skip hskip).trans hsuffix).trans (List.suffix_cons _ _)
  · simp only [atom, if_true, enclosed, hsum]
    cases result with
    | error fault => rfl
    | ok a => simp only [bind, Except.bind, hskip]

end Atoms

theorem Level.Precedes.mono {level outer : Level} {rest : List Token} (h : level.Precedes rest)
    (hlevels : level.followers ⊆ outer.followers) : outer.Precedes rest := by
  cases rest with
  | nil => trivial
  | cons t rest =>
    cases t with
    | literal digits => exact h.elim
    | sign c => exact hlevels h

theorem sumOp?_eq_some_iff {c : Char} {op : Op} : sumOp? c = some op ↔ op ∈ [.add, .sub] ∧
    op.symbol = c := by
  constructor
  · intro h
    unfold sumOp? at h
    split at h <;> cases h <;> decide
  · rintro ⟨hop, rfl⟩
    revert hop
    cases op <;> decide

theorem productOp?_eq_some_iff {c : Char} {op : Op} :
    productOp? c = some op ↔ op ∈ [.mul, .div, .mod] ∧ op.symbol = c := by
  constructor
  · intro h
    unfold productOp? at h
    split at h <;> cases h <;> decide
  · rintro ⟨hop, rfl⟩
    revert hop
    cases op <;> decide

theorem sumOp?_eq_none {c : Char} (h : c ∈ Level.sum.followers) : sumOp? c = none := by
  obtain rfl := List.mem_singleton.mp h
  rfl

theorem productOp?_eq_none {c : Char} (h : c ∈ Level.product.followers) :
    productOp? c = none := by
  simp only [Level.followers, List.mem_cons, List.not_mem_nil, or_false] at h
  rcases h with rfl | rfl | rfl <;> rfl

theorem of_mem_sumOps {op : Op} (h : op ∈ [Op.add, .sub]) :
    op.symbol ∈ Level.product.followers ∧ op ≠ .pow := by
  revert h
  cases op <;> decide

theorem of_mem_productOps {op : Op} (h : op ∈ [Op.mul, .div, .mod]) :
    op.symbol ∈ Level.unary.followers ∧ op ≠ .pow := by
  revert h
  cases op <;> decide

theorem Derives.eval_zero (A : Arithmetic α) {t : Tree} {w : List Token} (h : Derives .atom t w) :
    t.eval A 0 = .error (.tooDeep maxDepth) := by
  cases h <;> rfl

/-- No operand is read where none may nest. -/
theorem finds_zero (A : Arithmetic α) {t : Tree} {w rest : List Token} {cs : List Char}
    (h : Spells (w ++ rest) cs) (ht : t.eval A 0 = .error (.tooDeep maxDepth)) :
    Finds (operand A 0) cs rest (t.eval A 0) := by
  obtain ⟨after, hafter, hsuffix⟩ := h.exists_suffix
  refine ⟨after, hafter, hsuffix, ?_⟩
  rw [ht]
  rfl

/-- What reading comes to on a text that starts with the tokens of a tree. What follows them cannot
    belong to the tree, except that a chain goes on behind its last operator. -/
def Reads (A : Arithmetic α) (level : Level) (t : Tree) (w : List Token) : Prop :=
  ∀ n rest cs, Spells (w ++ rest) cs → match level with
    | .sum => Level.product.Precedes rest →
      Reaches A sumOp? (chain A productOp? (operand A n)) cs rest (t.eval A n)
    | .product =>
      Level.unary.Precedes rest → Reaches A productOp? (operand A n) cs rest (t.eval A n)
    | .unary | .power => Level.unary.Precedes rest → Finds (operand A n) cs rest (t.eval A n)
    | .atom =>
      Level.atom.Precedes rest →
        (∀ c after, skip cs = c :: after → c ≠ '-' ∧ c ≠ '+') ∧
      Finds (atom A (operand A n)) (skip cs) rest (t.eval A (n + 1))

/-- A text is read as the grammar derives it. -/
theorem Derives.reads (A : Arithmetic α) {level : Level} {t : Tree} {w : List Token}
    (h : Derives level t w) :
    Reads A level t w := by
  -- By induction on the derivation. The rest of the text is arbitrary, so a sum or product can be
  -- read on from any of its operands.
  induction h with
  | sum _ ih =>
    intro n rest cs h hrest
    have hproduct := ih n rest cs h (hrest.mono (by decide))
    exact (hproduct.finds hrest fun _ => productOp?_eq_none).reaches
  | @sumMore s t u w op _ hop _ ihs iht =>
    intro n rest cs h hrest
    obtain ⟨hc, hpow⟩ := of_mem_sumOps hop
    rw [List.append_assoc, List.cons_append] at h
    have hsign := sumOp?_eq_some_iff.mpr ⟨hop, rfl⟩
    have hmore := (ihs n _ cs h hc).more (Level.of_mem_followers _ hc).1 hsign fun text htext =>
      (iht n rest text htext (hrest.mono (by decide))).finds hrest fun _ => productOp?_eq_none
    simpa only [Tree.eval, hpow, if_false] using hmore
  | product _ ih =>
    intro n rest cs h hrest
    exact (ih n rest cs h hrest).reaches
  | @productMore s t u w op _ hop _ ihs iht =>
    intro n rest cs h hrest
    obtain ⟨hc, hpow⟩ := of_mem_productOps hop
    rw [List.append_assoc, List.cons_append] at h
    have hsign := productOp?_eq_some_iff.mpr ⟨hop, rfl⟩
    have hmore := (ihs n _ cs h hc).more (Level.of_mem_followers _ hc).1 hsign fun text htext =>
      iht n rest text htext hrest
    simpa only [Tree.eval, hpow, if_false] using hmore
  | minus _ ih =>
    intro n rest cs h hrest
    cases n with
    | zero => exact finds_zero A h rfl
    | succ n =>
      obtain ⟨text, hskip, htext⟩ := h.skip_of_sign (by decide)
      obtain ⟨after, hafter, hsuffix, hread⟩ := ih n rest text htext hrest
      refine ⟨after, hafter, hsuffix.trans (tail_suffix_of_skip hskip), ?_⟩
      rw [operand_of_minus A hskip, hread, Tree.eval]
      cases Tree.eval A _ n <;> rfl
  | plus _ ih =>
    intro n rest cs h hrest
    cases n with
    | zero => exact finds_zero A h rfl
    | succ n =>
      obtain ⟨text, hskip, htext⟩ := h.skip_of_sign (by decide)
      obtain ⟨after, hafter, hsuffix, hread⟩ := ih n rest text htext hrest
      refine ⟨after, hafter, hsuffix.trans (tail_suffix_of_skip hskip), ?_⟩
      rw [operand_of_plus A hskip, hread, Tree.eval]
  | unary _ ih => exact ih
  | @power t w hatom ih =>
    intro n rest cs h hrest
    cases n with
    | zero => exact finds_zero A h (hatom.eval_zero A)
    | succ n =>
      obtain ⟨hsign, mid, hmid, hsuffix, hread⟩ := ih n rest cs h (hrest.mono (by decide))
      obtain ⟨hskip, hhead⟩ := hmid.skip hrest
      refine ⟨skip mid, hskip, ?_, ?_⟩
      · exact ((List.dropWhile_suffix _).trans hsuffix).trans (List.dropWhile_suffix _)
      · rw [operand_of_unsigned A hsign]
        refine raised_of_end A hread fun after heq => ?_
        exact absurd (hhead _ after heq) (by decide)
  | @powerMore s t u w hatom _ ihs iht =>
    intro n rest cs h hrest
    cases n with
    | zero => exact finds_zero A h (by rw [Tree.eval, hatom.eval_zero]; rfl)
    | succ n =>
      rw [List.append_assoc, List.cons_append] at h
      obtain ⟨hsign, mid, hmid, hsuffix, hread⟩ :=
        ihs n _ cs h (by simp [Level.Precedes, Level.followers, Op.symbol])
      obtain ⟨text, hskip, htext⟩ := hmid.skip_of_sign (by decide)
      obtain ⟨after, hafter, hlast, hexponent⟩ := iht n rest text htext hrest
      refine ⟨after, hafter, ?_, ?_⟩
      · exact ((hlast.trans (tail_suffix_of_skip hskip)).trans hsuffix).trans
          (List.dropWhile_suffix _)
      · rw [operand_of_unsigned A hsign, Tree.eval]
        exact raised_of_exponent A hread hskip hexponent
  | @literal digits hne hdigits =>
    intro n rest cs h hrest
    obtain ⟨blanks, after, hblanks, rfl, hafter⟩ := h
    obtain ⟨d, more, rfl⟩ := List.exists_cons_of_ne_nil hne
    have hd := hdigits d List.mem_cons_self
    have hskip : skip (blanks ++ (d :: more ++ after)) = d :: more ++ after := by
      rw [skip_append hblanks]
      exact skip_cons (isBlank_of_isDigit hd) _
    simp only [Token.text, hskip]
    refine ⟨?_, finds_literal A hne hdigits hafter hrest⟩
    rintro _ _ ⟨⟩
    constructor
    · rintro rfl
      cases hd
    · rintro rfl
      cases hd
  | group _ ih =>
    intro n rest cs h hrest
    rw [List.cons_append, List.append_assoc] at h
    obtain ⟨text, hskip, htext⟩ := h.skip_of_sign (by decide)
    have hclosing : Level.sum.Precedes (.sign ')' :: rest) := by
      simp [Level.Precedes, Level.followers]
    have hsum := (ih n _ text htext (hclosing.mono (by decide))).finds hclosing fun _ =>
      sumOp?_eq_none
    rw [hskip]
    exact ⟨by rintro _ _ ⟨⟩; decide, finds_group A hsum⟩

/-- Whether a text starts with tokens that are derived at a level, and goes on with another text. -/
def Covers (level : Level) (cs rest : List Char) : Prop :=
  ∃ t w, Derives level t w ∧ ∀ ts, Spells ts rest → Spells (w ++ ts) cs

/-- Whether literals have no characters but digits, and no function can be called. -/
structure Arithmetic.IsPlain (A : Arithmetic α) : Prop where
  read : ∀ cs a, (∀ c ∈ cs, isNumberChar c = true) → A.read (String.ofList cs) = some a →
    ∀ c ∈ cs, c.isDigit = true
  call : ∀ name a b, A.call name a ≠ .ok b

section Covers

variable {A : Arithmetic α} {read : Reader α} {cs mid rest : List Char} {a b : α}

theorem Covers.of_derives {inner outer : Level} (h : Covers inner cs rest)
    (hlevel : ∀ {t : Tree} {w : List Token}, Derives inner t w → Derives outer t w) :
    Covers outer cs rest := by
  obtain ⟨t, w, ht, hw⟩ := h
  exact ⟨t, w, hlevel ht, hw⟩

/-- White space after what was read does not matter. -/
theorem Covers.skip {level : Level} (h : Covers level cs mid) :
    Covers level cs (Expr.skip mid) := by
  obtain ⟨t, w, ht, hw⟩ := h
  exact ⟨t, w, ht, fun ts hts => hw ts hts.of_skip⟩

/-- A chain is derived by a rule for another operand. -/
theorem covers_of_chainFrom {inner outer : Level} {op? : Char → Option Op}
    (hmore : ∀ {s t : Tree} {u w : List Token} {c : Char} {op : Op}, Derives outer s u →
      op? c = some op →
      Derives inner t w → Derives outer (.binary op s t) (u ++ .sign c :: w))
    (hread : ∀ {cs rest : List Char} {a : α}, read cs = .ok (a, rest) → Covers inner cs rest)
    {rounds : Nat}
    (h : chainFrom A op? read rounds a mid = .ok (b, rest)) (hmid : Covers outer cs mid) :
    Covers outer cs rest := by
  induction rounds generalizing a mid with
  | zero =>
    cases h
    exact hmid
  | succ rounds ih =>
    have hskip := hmid.skip
    rw [chainFrom] at h
    split at h
    · rename_i heq
      cases h
      exact heq ▸ hskip
    · rename_i c after heq
      split at h
      · cases h
        exact heq ▸ hskip
      · rename_i op hop
        obtain ⟨⟨next, text⟩, hnext, h⟩ := Except.bind_eq_ok_iff.mp h
        obtain ⟨value, -, h⟩ := Except.bind_eq_ok_iff.mp h
        obtain ⟨s, u, hs, hu⟩ := hmid
        obtain ⟨t, w, ht, hw⟩ := hread hnext
        refine ih h ⟨_, _, hmore hs hop ht, fun ts hts => ?_⟩
        rw [List.append_assoc]
        exact hu _ ((hw ts hts).cons_sign heq)

theorem covers_of_chain {inner outer : Level} {op? : Char → Option Op}
    (hlevel : ∀ {t : Tree} {w : List Token}, Derives inner t w → Derives outer t w)
    (hmore : ∀ {s t : Tree} {u w : List Token} {c : Char} {op : Op}, Derives outer s u →
      op? c = some op →
      Derives inner t w → Derives outer (.binary op s t) (u ++ .sign c :: w))
    (hread : ∀ {cs rest : List Char} {a : α}, read cs = .ok (a, rest) → Covers inner cs rest)
    (h : chain A op? read cs = .ok (b, rest)) : Covers outer cs rest := by
  obtain ⟨⟨first, mid⟩, hfirst, h⟩ := Except.bind_eq_ok_iff.mp h
  exact covers_of_chainFrom hmore hread h ((hread hfirst).of_derives hlevel)

/-- Whatever is read as a sum is derived as one, if that is so for its operands. -/
theorem covers_of_sum
    (hread : ∀ {cs rest : List Char} {a : α}, read cs = .ok (a, rest) → Covers .unary cs rest)
    (h : sum A read cs = .ok (b, rest)) : Covers .sum cs rest := by
  refine covers_of_chain .sum ?_ (covers_of_chain .product ?_ hread) h
  · intro s t u w c op hs hop ht
    obtain ⟨hmem, rfl⟩ := sumOp?_eq_some_iff.mp hop
    exact .sumMore hs hmem ht
  · intro s t u w c op hs hop ht
    obtain ⟨hmem, rfl⟩ := productOp?_eq_some_iff.mp hop
    exact .productMore hs hmem ht

/-- Whatever is read as an atom is derived as one. -/
theorem covers_of_atom (hA : A.IsPlain)
    (hread : ∀ {cs rest : List Char} {a : α}, read cs = .ok (a, rest) → Covers .unary cs rest)
    (h : atom A read cs = .ok (b, rest)) : Covers .atom cs rest := by
  unfold atom at h
  split at h
  · cases h
  · rename_i c after
    split at h
    · rename_i hparen
      obtain ⟨⟨value, mid⟩, hsum, h⟩ := Except.bind_eq_ok_iff.mp h
      obtain ⟨t, w, ht, hw⟩ := covers_of_sum hread hsum
      dsimp only at h
      split at h
      · rename_i text heq
        cases h
        refine ⟨_, _, .group ht, fun ts hts => ?_⟩
        rw [List.cons_append, List.append_assoc]
        exact (hw _ (hts.cons_sign heq)).cons_sign (by rw [hparen]; rfl)
      · cases h
    · split at h
      · rename_i hfirst
        dsimp only at h
        split at h
        · rename_i value hvalue
          cases h
          have hnumber : isNumberChar c = true := by
            simp only [Bool.or_eq_true] at hfirst
            rcases hfirst with hdigit | hdot
            · simp [isNumberChar, Char.isAlphanum, hdigit]
            · simp [isNumberChar, hdot]
          have hdigits := hA.read _ _ (List.all_eq_true.mp List.all_takeWhile) hvalue
          refine ⟨_, _, .literal (by simp [hnumber]) hdigits, fun ts hts => ?_⟩
          exact ⟨[], _, by simp, List.takeWhile_append_dropWhile.symm, hts⟩
        · cases h
      -- A name can only be that of a function.
      · split at h
        · split at h
          · obtain ⟨_, -, h⟩ := Except.bind_eq_ok_iff.mp h
            obtain ⟨value, hvalue, -⟩ := Except.bind_eq_ok_iff.mp h
            exact absurd hvalue (hA.call _ _ _)
          · cases h
        · cases h

/-- Whatever is read as an operand is derived as one. -/
theorem covers_of_operand (hA : A.IsPlain) {n : Nat} (h : operand A n cs = .ok (b, rest)) :
    Covers .unary cs rest := by
  induction n generalizing cs rest b with
  | zero => cases h
  | succ n ih =>
    rw [operand] at h
    split at h
    · rename_i after heq
      obtain ⟨⟨value, text⟩, hvalue, h⟩ := Except.bind_eq_ok_iff.mp h
      obtain ⟨negated, -, h⟩ := Except.bind_eq_ok_iff.mp h
      cases h
      obtain ⟨t, w, ht, hw⟩ := ih hvalue
      exact ⟨_, _, .minus ht, fun ts hts => (hw ts hts).cons_sign heq⟩
    · rename_i after heq
      obtain ⟨t, w, ht, hw⟩ := ih h
      exact ⟨_, _, .plus ht, fun ts hts => (hw ts hts).cons_sign heq⟩
    · obtain ⟨⟨base, mid⟩, hbase, h⟩ := Except.bind_eq_ok_iff.mp h
      obtain ⟨s, u, hs, hu⟩ := covers_of_atom hA ih hbase
      dsimp only at h
      split at h
      · rename_i after heq
        obtain ⟨⟨exponent, text⟩, hexponent, h⟩ := Except.bind_eq_ok_iff.mp h
        obtain ⟨value, -, h⟩ := Except.bind_eq_ok_iff.mp h
        cases h
        obtain ⟨t, w, ht, hw⟩ := ih hexponent
        refine ⟨_, _, .unary (.powerMore hs ht), fun ts hts => ?_⟩
        rw [List.append_assoc]
        exact (hu _ ((hw ts hts).cons_sign heq)).of_skip
      · cases h
        exact ⟨s, u, .unary (.power hs), fun ts hts => (hu ts hts.of_skip).of_skip⟩

end Covers

/-- An expression that is derived as a tree has the value of the tree, or fails as evaluating the
    tree does. -/
theorem eval_of_derives (A : Arithmetic α) {t : Tree} {text : String} (h : t.Derives text) :
    eval A text = t.eval A maxDepth := by
  obtain ⟨w, hspells, ht⟩ := h
  have hend : Level.sum.Precedes [] := trivial
  have hsum := ht.reads A maxDepth [] text.toList (by rwa [List.append_nil]) (hend.mono (by decide))
  obtain ⟨after, hafter, -, hread⟩ := hsum.finds hend fun _ => sumOp?_eq_none
  rw [eval, sum, hread]
  cases t.eval A maxDepth with
  | error fault => rfl
  | ok a => simp only [bind, Except.bind, pure, Except.pure, hafter.skip_of_nil]

/-- An expression that has a value is derived as some tree. -/
theorem exists_derives_of_eval {A : Arithmetic α} (hA : A.IsPlain) {text : String} {a : α}
    (h : eval A text = .ok a) :
    ∃ t : Tree, t.Derives text := by
  obtain ⟨⟨value, rest⟩, hsum, h⟩ := Except.bind_eq_ok_iff.mp h
  obtain ⟨t, w, ht, hw⟩ := covers_of_sum (covers_of_operand hA) hsum
  dsimp only at h
  split at h
  · rename_i heq
    refine ⟨t, w, ?_, ht⟩
    have hend : Spells [] (skip rest) := by simp [heq, Spells]
    simpa using hw [] hend.of_skip
  · cases h

end InstallScript.Expr
