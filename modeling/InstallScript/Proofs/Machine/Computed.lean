import InstallScript.Host.Prepared
import InstallScript.Machine.Run
import InstallScript.Proofs.Expr.Integer
import InstallScript.Proofs.Machine.FailedStatement
import InstallScript.Proofs.Machine.Placeholders
import InstallScript.Proofs.Number.Reading
import InstallScript.Proofs.Plan.Metadata

/-!
Integers that statements compute. A computed integer is kept as a text, and that text is an
expression again. It has the value that was computed, unless this is the lowest word: the digits of
a literal are read before its sign, and those of the lowest word are no word without it.
-/

namespace InstallScript

open Number (decimal textOfInt)

namespace Expr

instance (n : Int) : Decidable (IsWord n) :=
  inferInstanceAs (Decidable (_ ∧ _))

/-- The lowest word of 64 bits. -/
def lowestWord : Int := -2 ^ 63

/-- The tree of a decimal form: a literal, with a sign in front of it if the integer is negative. -/
def treeOfInt (v : Int) : Tree :=
  if v < 0 then .minus (.literal (decimal v.natAbs)) else .literal (decimal v.natAbs)

theorem derives_textOfInt (v : Int) : (treeOfInt v).Derives (textOfInt v) := by
  have hatom : Derives .atom (.literal (decimal v.natAbs)) [.literal (decimal v.natAbs)] :=
    .literal (Number.decimal_ne_nil _) fun _ => Number.isDigit_of_mem_decimal
  have hspells : Spells [.literal (decimal v.natAbs)] (decimal v.natAbs) :=
    ⟨[], [], by simp, by simp [Token.text], by simp [Spells]⟩
  unfold treeOfInt textOfInt
  split
  · refine ⟨_, ?_, .sum (.product (.minus (.unary (.power hatom))))⟩
    rw [String.toList_ofList]
    exact hspells.cons_sign rfl
  · refine ⟨_, ?_, .sum (.product (.unary (.power hatom)))⟩
    rwa [String.toList_ofList]

/-- A literal in decimal form has its value if that is a word, and is refused otherwise. -/
theorem eval_literal_decimal (m n : Nat) : (Tree.literal (decimal m)).eval integers (n + 1) =
    if IsWord m then .ok (m : Int) else .error (.badNumber (String.ofList (decimal m))) := by
  have hnumber : ∀ c ∈ decimal m, isNumberChar c = true := fun c hc => by
    simp [isNumberChar, Char.isAlphanum, Number.isDigit_of_mem_decimal hc]
  have hread : integers.read (String.ofList (decimal m)) = Number.long.check m := by
    simp only [integers, String.toList_ofList, read_of_number hnumber, Number.readDigits_decimal,
      Option.bind_some]
  rw [Tree.eval, hread, Number.Range.check]
  by_cases hword : IsWord m
  · rw [if_pos ((contains_long_iff _).mpr hword), if_pos hword]
  · rw [if_neg (mt (contains_long_iff _).mp hword), if_neg hword]

/-- An integer that is written out is evaluated to itself, unless it is the lowest word. -/
theorem evalInt_textOfInt {v : Int} (h : IsWord v) : evalInt (textOfInt v) =
    if v = lowestWord then .error (.badNumber "9223372036854775808") else .ok v := by
  have hliteral : IsWord v.natAbs ↔ v ≠ lowestWord := by
    unfold IsWord lowestWord at *
    omega
  rw [evalInt, eval_of_derives integers (derives_textOfInt v), treeOfInt]
  by_cases hneg : v < 0
  · rw [if_pos hneg, maxDepth, Tree.eval, eval_literal_decimal]
    by_cases hlowest : v = lowestWord
    · have hdigits : String.ofList (decimal lowestWord.natAbs) = "9223372036854775808" := by
        decide +kernel
      rw [if_neg (mt hliteral.mp (not_not_intro hlowest)), if_pos hlowest, hlowest, hdigits]
      rfl
    · have hback : -(v.natAbs : Int) = v := by omega
      rw [if_pos (hliteral.mpr hlowest), if_neg hlowest]
      exact negate_eq_ok_iff.mpr ⟨hback.symm ▸ h, hback⟩
  · have hback : (v.natAbs : Int) = v := by omega
    have hlowest : v ≠ lowestWord := by
      unfold lowestWord
      omega
    rw [if_neg hneg, maxDepth, eval_literal_decimal, if_pos (hliteral.mpr hlowest),
      if_neg hlowest, hback]

theorem isWord_of_evalInt {text : String} {v : Int} (h : evalInt text = .ok v) : IsWord v := by
  obtain ⟨t, ht⟩ := exists_derives_of_eval isPlain_integers h
  rw [evalInt, eval_of_derives integers ht] at h
  obtain ⟨w, -, hw⟩ := ht
  obtain ⟨-, hfits, rfl⟩ := (hw.eval_iff maxDepth v).mp h
  exact hfits.isWord

theorem evalInt_lowestWord : evalInt "-9223372036854775807 - 1" = .ok lowestWord :=
  Except.toOption_eq_some_iff.mp (by decide +kernel)

/-- The values of integer expressions are the words of 64 bits. -/
theorem exists_evalInt_iff (v : Int) : (∃ text, evalInt text = .ok v) ↔ IsWord v := by
  refine ⟨fun ⟨text, h⟩ => isWord_of_evalInt h, fun h => ?_⟩
  by_cases hlowest : v = lowestWord
  · exact ⟨_, hlowest ▸ evalInt_lowestWord⟩
  · exact ⟨_, (evalInt_textOfInt h).trans (if_neg hlowest)⟩

end Expr

theorem Variables.substitute_placeholder {vars : Variables} {name value : String}
    (hname : TextPart.IsName name.toList) (hvalue : vars.get? name = some value) :
    vars.substitute ("%" ++ name ++ "%") = .ok value := by
  have hcompose : TextPart.Compose [.placeholder name] ("%" ++ name ++ "%").toList := by
    simpa using TextPart.Compose.placeholder hname .nil
  rw [substitute_of_defines hcompose (by simp [hvalue])]
  simp [TextPart.value, hvalue]

theorem Session.get?_assign {σ : Type} (s : Session σ) (name value : String) :
    (s.assign name value).vars.get? name = some value := by
  rw [Session.assign, Session.setVariable, OrderedMap.get?_insert, if_pos rfl]

namespace Instruction

variable {σ : Type} (ctx : Context σ) (line : Nat) {args words : List String} {name : String}
  {s t : Session σ}

/-- Carrying a statement out fails if a placeholder has no value, and depends on the values
    otherwise. -/
theorem run_eq_match (kind : Script.Keyword) (args : List String) (s : Session σ) :
    (Instruction.run ctx line kind args).run.run s =
      match s.vars.substituteAll args with
      | .ok values => (carryOut ctx line kind values).run.run s
      | .error cause => (.error (.run ⟨line, cause⟩), s) := by
  rw [Instruction.run, Exec.run_bind, Exec.run_get]
  dsimp only
  rw [Exec.run_bind]
  cases s.vars.substituteAll args <;> rfl

theorem evaluate_of_ok (eval : String → Except Expr.Fault String) {value : String}
    (h : eval (String.intercalate " " words) = .ok value) :
    evaluate (name :: words) eval = .ok (.assign name value) := by
  have hget : Argument.get (name :: words) 0 = .ok name := rfl
  rw [evaluate, hget, List.drop_one, List.tail_cons]
  dsimp only [Bind.bind, Except.bind]
  rw [h]
  rfl

theorem evaluate_of_error (eval : String → Except Expr.Fault String) {fault : Expr.Fault}
    (h : eval (String.intercalate " " words) = .error fault) :
    evaluate (name :: words) eval =
      .error (.malformedExpression (String.intercalate " " words) fault) := by
  have hget : Argument.get (name :: words) 0 = .ok name := rfl
  rw [evaluate, hget, List.drop_one, List.tail_cons]
  dsimp only [Bind.bind, Except.bind]
  rw [h]
  rfl

/-- An integer expression is assigned with its value written out. -/
theorem run_iSet_of_ok {v : Int} (h : s.vars.substituteAll args = .ok (name :: words))
    (heval : Expr.evalInt (String.intercalate " " words) = .ok v) :
    (Instruction.run ctx line .iSet args).run.run s = (.ok (), s.assign name (textOfInt v)) := by
  have hinterpret : interpret ctx.toSite s.plan line .iSet (name :: words) =
      .ok (.assign name (textOfInt v)) :=
    evaluate_of_ok (fun expression => (Expr.evalInt expression).map textOfInt) (by rw [heval]; rfl)
  rw [run_eq_match, h]
  exact run_carryOut_ok ctx line hinterpret

/-- An assignment fails as the evaluation of its expression does. -/
theorem run_iSet_of_error {fault : Expr.Fault} (h : s.vars.substituteAll args = .ok (name :: words))
    (heval : Expr.evalInt (String.intercalate " " words) = .error fault) :
    (Instruction.run ctx line .iSet args).run.run s =
      (.error (.run ⟨line, .malformedExpression (String.intercalate " " words) fault⟩), s) := by
  have hinterpret : interpret ctx.toSite s.plan line .iSet (name :: words) =
      .error (.malformedExpression (String.intercalate " " words) fault) :=
    evaluate_of_error (fun expression => (Expr.evalInt expression).map textOfInt)
      (by rw [heval]; rfl)
  rw [run_eq_match, h]
  exact run_carryOut_error ctx line hinterpret

/-- A variable with an integer, assigned to another one. -/
theorem run_iSet_placeholder {v : Int} {other target : String} (hv : Expr.IsWord v)
    (hname : TextPart.IsName name.toList) (hvalue : s.vars.get? name = some (textOfInt v))
    (hother : s.vars.substitute other = .ok target) :
    (Instruction.run ctx line .iSet [other, "%" ++ name ++ "%"]).run.run s =
      if v = Expr.lowestWord then
        (.error (.run ⟨line,
          .malformedExpression "-9223372036854775808" (.badNumber "9223372036854775808")⟩), s)
      else (.ok (), s.assign target (textOfInt v)) := by
  have hwords : s.vars.substituteAll [other, "%" ++ name ++ "%"] = .ok [target, textOfInt v] := by
    simp only [Variables.substituteAll, List.mapM_cons, List.mapM_nil, hother,
      Variables.substitute_placeholder hname hvalue]
    rfl
  have htext : String.intercalate " " [textOfInt v] = textOfInt v := by simp
  have heval := Expr.evalInt_textOfInt hv
  rw [← htext] at heval
  by_cases hlowest : v = Expr.lowestWord
  · have hdigits : textOfInt Expr.lowestWord = "-9223372036854775808" := by decide +kernel
    rw [if_pos hlowest] at heval ⊢
    rw [run_iSet_of_error ctx line hwords heval, htext, hlowest, hdigits]
  · rw [if_neg hlowest] at heval ⊢
    exact run_iSet_of_ok ctx line hwords heval

/-- Every word is the value of some integer expression. Written out, the value of an expression is
    an expression with the same value, unless it is the lowest word, which is refused. So a variable
    that an integer expression has been assigned to can be assigned to another one, which gets the
    same value, exactly if that is not the lowest word. -/
theorem assigns_again_iff :
    (∀ v, (∃ text, Expr.evalInt text = .ok v) ↔ Expr.IsWord v) ∧
    (∀ text v, Expr.evalInt text = .ok v →
      (Expr.evalInt (textOfInt v) = .ok v ↔ v ≠ -2 ^ 63) ∧
      (v = -2 ^ 63 → Expr.evalInt (textOfInt v) = .error (.badNumber "9223372036854775808"))) ∧
    ∀ first args (s : Session σ) name words v, s.vars.substituteAll args = .ok
    (name :: words) →
      Expr.evalInt (String.intercalate " " words) = .ok v →
      ∃ t, (Instruction.run ctx first .iSet args).run.run s = (.ok (), t) ∧
        t.vars.get? name = some (textOfInt v) ∧
        ∀ other target, TextPart.IsName name.toList → t.vars.substitute other = .ok target →
          ((∃ u, (Instruction.run ctx line .iSet [other, "%" ++ name ++ "%"]).run.run t =
              (.ok (), u) ∧ u.vars.get? target = t.vars.get? name) ↔ v ≠ -2 ^ 63) := by
  refine ⟨Expr.exists_evalInt_iff, fun text v h => ?_,
    fun first args s name words v hwords heval => ?_⟩
  · rw [Expr.evalInt_textOfInt (Expr.isWord_of_evalInt h), Expr.lowestWord]
    by_cases hlowest : v = -2 ^ 63
    · rw [if_pos hlowest]
      exact ⟨iff_of_false (by rintro ⟨⟩) (not_not_intro hlowest), fun _ => rfl⟩
    · rw [if_neg hlowest]
      exact ⟨iff_of_true rfl hlowest, fun heq => absurd heq hlowest⟩
  · have hvalue := s.get?_assign name (textOfInt v)
    refine ⟨s.assign name (textOfInt v), ?_, hvalue, fun other target hname hother => ?_⟩
    · exact run_iSet_of_ok ctx first hwords heval
    · rw [run_iSet_placeholder ctx line (Expr.isWord_of_evalInt heval) hname hvalue hother,
        Expr.lowestWord, hvalue]
      constructor
      · rintro ⟨u, hrun, -⟩ hlowest
        rw [if_pos hlowest] at hrun
        cases hrun
      · intro hlowest
        rw [if_neg hlowest]
        exact ⟨_, rfl, Session.get?_assign _ target _⟩

/-- A negative value is assigned from one variable to another. -/
theorem assigns_again_of_difference :
    let ctx : Context Prepared := ⟨⟨.default, .empty, .empty⟩, Prepared.host⟩
    Expr.evalInt "3 - 10" = .ok (-7) ∧ Expr.evalInt (textOfInt (-7)) = .ok (-7) ∧
      ∃ t u : Session Prepared, (Instruction.run ctx 1 .iSet ["a", "3", "-", "10"]).run.run
        (.start {}) = (.ok (), t) ∧
        t.vars.get? "a" = some (textOfInt (-7)) ∧
        (Instruction.run ctx 2 .iSet ["b", "%a%"]).run.run t = (.ok (), u) ∧
            u.vars.get? "b" = t.vars.get? "a" := by
  intro ctx
  have heval : Expr.evalInt "3 - 10" = .ok (-7) :=
    Except.toOption_eq_some_iff.mp (by decide +kernel)
  have hplain : ∀ text ∈ ["a", "3", "-", "10"], '%' ∉ text.toList := by decide
  have hname : TextPart.IsName "a".toList :=
    ⟨by decide, List.forall_mem_singleton.mpr (by decide)⟩
  obtain ⟨-, hback, hstatements⟩ := assigns_again_iff ctx 2
  obtain ⟨t, hrun, hvalue, hagain⟩ :=
    hstatements 1 _ (.start {}) "a" _ (-7) (substituteAll_eq_ok _ hplain) heval
  obtain ⟨u, hrun', hsame⟩ :=
    (hagain "b" "b" hname (substitute_eq_ok _ (by decide))).mpr (by decide)
  exact ⟨heval, (hback _ _ heval).1.mpr (by decide), t, u, hrun, hvalue, hrun', hsame⟩

/-- The lowest word can be computed and assigned, but is no expression when it is written out, and a
    script that assigns it to another variable fails there. -/
theorem exists_not_assigned_again :
    Expr.evalInt "-9223372036854775807 - 1" = .ok (-2 ^ 63) ∧
      Expr.evalInt (textOfInt (-2 ^ 63)) ≠ .ok (-2 ^ 63) ∧
      ∃ after, runScript ⟨⟨.default, .empty, .empty⟩, Prepared.host⟩ {} 3
          "iSet a -9223372036854775807 - 1\niSet b %a%" =
        .failed (.run ⟨2,
          .malformedExpression "-9223372036854775808" (.badNumber "9223372036854775808")⟩)
            after ∧
        after.vars.get? "a" = some "-9223372036854775808" := by
  refine ⟨Expr.evalInt_lowestWord, ?_, ?_⟩
  · rw [Expr.evalInt_textOfInt (by decide),
      if_pos (show (-2 ^ 63 : Int) = Expr.lowestWord from rfl)]
    rintro ⟨⟩
  · have houtcome : (match runScript ⟨⟨.default, .empty, .empty⟩, Prepared.host⟩ {} 3
          "iSet a -9223372036854775807 - 1\niSet b %a%" with
        | .failed failure after => some (failure, after.vars.get? "a")
        | _ =>
          none) = some (.run ⟨2,
            .malformedExpression "-9223372036854775808" (.badNumber "9223372036854775808")⟩,
          some "-9223372036854775808") := by
      decide +kernel
    split at houtcome
    · rename_i failure after hfailed
      obtain ⟨rfl, hvalue⟩ := Prod.mk.inj (Option.some.inj houtcome)
      exact ⟨after, hfailed, hvalue⟩
    · cases houtcome

end Instruction

end InstallScript
