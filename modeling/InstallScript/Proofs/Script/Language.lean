import InstallScript.Proofs.Script.Rereading
import InstallScript.Proofs.Script.Splitting

/-!
The language of statements. A line that is neither blank nor a comment is read exactly if its quotes
pair up, its first word is a keyword, and its other words are as many as the keyword admits and in a
form that it has. They are the arguments of the statement, and nothing of them is lost.
-/

namespace InstallScript.Script

open Text

/-- Only white space splits into no words. -/
theorem of_splitFrom_eq_nil {word : Option (List Char)} {quoted : Bool} {cs : List Char}
    (h : splitFrom word quoted cs = some []) : word = none ∧ ∀ c ∈ cs, isBlank c = true := by
  fun_induction splitFrom word quoted cs with
  | case1 => cases h
  | case2 word =>
    cases word with
    | none => simp
    | some acc => cases h
  | case3 word quoted rest ih => cases (ih h).1
  | case4 quoted c rest hquote hblank acc ih =>
    obtain ⟨others, -, heq⟩ := Option.map_eq_some_iff.mp h
    cases heq
  | case5 quoted c rest hquote hblank ih =>
    rw [Bool.and_eq_true] at hblank
    exact ⟨rfl, List.forall_mem_cons.mpr ⟨hblank.1, (ih h).2⟩⟩
  | case6 word quoted c rest hquote hblank ih => cases (ih h).1

namespace Line

variable {line : Line} {s : Statement} {word : String} {args spelled : List String} {kind : Keyword}

theorem comment_eq_none (h : line.text.toList.head? ≠ some ';') : line.comment = none := by
  unfold comment
  split
  · rename_i rest htext
    rw [htext] at h
    exact absurd rfl h
  · rfl

theorem number_of_parse (h : line.parse = .ok s) : s.line = line.number := by
  unfold parse at h
  split at h
  · cases h
    rfl
  · split at h
    · cases h
    · obtain ⟨c, -, rfl⟩ := Except.map_eq_ok_iff.mp h
      rfl

/-- The quotes of a line that is read pair up, and its words are a statement in a form that its
    keyword has. -/
theorem exists_form_of_parse (hcomment : line.text.toList.head? ≠ some ';')
    (hblank : ∃ c ∈ line.text.toList, isBlank c = false) (h : line.parse = .ok s) :
    line.text.toList.count '"' % 2 = 0 ∧ ∃ word args kind, wordsOf line.text = word :: args ∧
      sameName kind.name word = true ∧ kind.arity.admits args.length = true ∧
      s.command.keyword? = some kind ∧ Form kind args s.command.arguments := by
  rcases parse_cases h with ⟨rest, htext, -⟩ | ⟨hwords, -⟩ | ⟨word, args, kind, hwords,
    hkind, hcount, hread⟩
  · rw [htext] at hcomment
    exact absurd rfl hcomment
  · obtain ⟨c, hc, hnot⟩ := hblank
    rw [(of_splitFrom_eq_nil hwords).2 c hc] at hnot
    cases hnot
  · obtain ⟨hkeyword, hform, -⟩ := arguments_readCommand hcount hread
    obtain ⟨heven, hwords⟩ := splitWords_eq_some_iff.mp hwords
    exact ⟨heven, word, args, kind, hwords, Keyword.ofWord?_eq_some_iff.mp hkind, hcount,
      hkeyword, hform⟩

/-- A statement in a form that its keyword has is read. -/
theorem exists_parse_of_form (hcomment : line.text.toList.head? ≠ some ';')
    (heven : line.text.toList.count '"' % 2 = 0) (hwords : wordsOf line.text = word :: args)
    (hkind : sameName kind.name word = true) (hcount : kind.arity.admits args.length = true)
    (hform : Form kind args spelled) :
    ∃ s, line.parse = .ok s := by
  obtain ⟨c, hread⟩ := hform.exists_readCommand hcount line
  have hsplit := splitWords_eq_some_iff.mpr ⟨heven, hwords⟩
  refine ⟨⟨line.number, c⟩, ?_⟩
  simp only [parse, comment_eq_none hcomment, hsplit, readWords,
    Keyword.ofWord?_eq_some_iff.mpr hkind, checkCount, hcount, hread]
  rfl

/-- A line that is neither blank nor a comment is read exactly if its quotes pair up and its words
    are a keyword and as many arguments as the keyword admits, in a form that it has. The statement
    then has this keyword, and these arguments in the spelling of the form. -/
theorem exists_parse_iff_form (hcomment : line.text.toList.head? ≠ some ';')
    (hblank : ∃ c ∈ line.text.toList, isBlank c = false) :
    ((∃ s, line.parse = .ok s) ↔ line.text.toList.count '"' % 2 = 0 ∧
        ∃ word args kind spelled, wordsOf line.text = word :: args ∧
          sameName kind.name word = true ∧
          kind.arity.admits args.length = true ∧ Form kind args spelled) ∧
      ∀ s, line.parse = .ok s → s.line = line.number ∧
        ∃ word args kind, wordsOf line.text = word :: args ∧ sameName kind.name word = true ∧
          s.command.keyword? = some kind ∧ Form kind args s.command.arguments := by
  refine ⟨⟨?_, ?_⟩, fun s hs => ⟨number_of_parse hs, ?_⟩⟩
  · rintro ⟨s, hs⟩
    obtain ⟨heven, word, args, kind, hwords, hkind, hcount, -, hform⟩ :=
      exists_form_of_parse hcomment hblank hs
    exact ⟨heven, word, args, kind, _, hwords, hkind, hcount, hform⟩
  · rintro ⟨heven, word, args, kind, spelled, hwords, hkind, hcount, hform⟩
    exact exists_parse_of_form hcomment heven hwords hkind hcount hform
  · obtain ⟨-, word, args, kind, hwords, hkind, -, hkeyword, hform⟩ :=
      exists_form_of_parse hcomment hblank hs
    exact ⟨word, args, kind, hwords, hkind, hkeyword, hform⟩

/-- The header of a loop is read with its names in any case, and with a folder in quotes. -/
theorem exists_parse_iff_form_of_loop :
    let line : Line := ⟨7, "fOr eAcH datafile File \"my textures\" True"⟩
    line.text.toList.head? ≠ some ';' ∧ (∃ c ∈ line.text.toList, isBlank c = false) ∧
      ∃ s, line.parse = .ok s ∧ s.line = 7 := by
  intro line
  have hcomment : line.text.toList.head? ≠ some ';' := by decide
  have hblank : ∃ c ∈ line.text.toList, isBlank c = false := ⟨'f', by decide, by decide⟩
  obtain ⟨hiff, hread⟩ := exists_parse_iff_form hcomment hblank
  have hwords : wordsOf line.text = ["fOr", "eAcH", "datafile", "File", "my textures", "True"] := by
    decide
  have hsecond : sameName Enumeration.dataFile.name "datafile" = true := by decide
  have hform : Form .forLoop ["eAcH", "datafile", "File", "my textures", "True"]
      ["Each", "DataFile", "File", "my textures", "True"] := .each (by decide) hsecond
  obtain ⟨s, hs⟩ :=
    hiff.mpr ⟨by decide, _, _, .forLoop, _, hwords, by decide, by decide, hform⟩
  exact ⟨hcomment, hblank, s, hs, (hread s hs).1⟩

end Line

end InstallScript.Script
