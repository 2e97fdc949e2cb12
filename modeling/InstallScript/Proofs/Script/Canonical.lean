import InstallScript.Proofs.Script.Lines
import InstallScript.Proofs.Script.Rereading
import InstallScript.Proofs.Script.Words

/-!
Statements written as lines. A statement that has been read is written as a line of its own, and
that line is read as the same statement. Writing keeps every backslash of the line it was read from.
-/

namespace InstallScript.Script

open Text

/-- A statement in the form that reading gives: a comment is trimmed, and any other statement is
    what its own keyword and arguments are read as. -/
inductive Command.Canonical : Command → Prop
  | comment {text : String} (htrim : trim text.toList = text.toList)
    (hfeed : '\n' ∉ text.toList) :
    Canonical (.comment text)
  | statement {c : Command} {kind : Keyword} (hkind : c.keyword? = some kind)
    (hcount : kind.arity.admits c.arguments.length = true)
    (hread : ∀ line : Line, line.readCommand kind c.arguments = .ok c)
    (hquote : ∀ w ∈ c.arguments, '"' ∉ w.toList)
      (hfeed : ∀ w ∈ c.arguments, '\n' ∉ w.toList) : Canonical c

theorem Keyword.not_mem_name {k : Keyword} {c : Char} (h : c.isAlpha = false) :
    c ∉ k.name.toList := by
  intro hc
  rw [Keyword.isAlpha_of_mem_name hc] at h
  cases h

theorem quoteWord_name (k : Keyword) : quoteWord k.name = k.name := by
  have hblank : hasBlank k.name = false := by
    simp only [hasBlank, List.any_eq_false, Bool.not_eq_true]
    exact fun c hc => isBlank_of_isAlpha (Keyword.isAlpha_of_mem_name hc)
  simp [quoteWord, hblank, k.name_ne_empty]

namespace Statement

variable {s : Statement} {kind : Keyword}

theorem text_of_keyword (h : s.command.keyword? = some kind) :
    s.text = String.intercalate " " ((kind.name :: s.command.arguments).map quoteWord) := by
  obtain ⟨line, command⟩ := s
  cases command with
  | comment text => cases h
  | _ => simp_all [text, Command.kindName, quoteWord_name]

theorem splitWords_text (h : s.command.keyword? = some kind)
    (hquote : ∀ w ∈ s.command.arguments, '"' ∉ w.toList) :
    splitWords s.text = some (kind.name :: s.command.arguments) := by
  rw [text_of_keyword h]
  apply splitWords_intercalate
  exact List.forall_mem_cons.mpr ⟨Keyword.not_mem_name (by decide), hquote⟩

/-- What is written starts with a letter of the keyword. -/
theorem exists_text_of_keyword (h : s.command.keyword? = some kind) :
    ∃ c rest, s.text.toList = c :: rest ∧ c.isAlpha = true := by
  have hne : kind.name.toList ≠ [] := by simpa using kind.name_ne_empty
  obtain ⟨c, letters, hname⟩ := List.exists_cons_of_ne_nil hne
  have halpha : c.isAlpha = true := Keyword.isAlpha_of_mem_name (hname ▸ List.mem_cons_self)
  rw [text_of_keyword h, String.toList_intercalate, List.map_cons, List.map_cons,
    quoteWord_name, hname]
  cases s.command.arguments with
  | nil => exact ⟨c, letters, by simp, halpha⟩
  | cons w rest =>
    rw [List.map_cons, List.map_cons, List.intercalate_cons_cons]
    exact ⟨c, _, rfl, halpha⟩

/-- A statement that was read is written as a line. -/
theorem oneLine_text (h : s.command.Canonical) : OneLine s.text.toList := by
  obtain ⟨number, command⟩ := s
  cases h with
  | @comment text htrim hfeed =>
    have htext : (Statement.text ⟨number, .comment text⟩).toList = ';' :: text.toList := by
      simp [Statement.text]
    rw [htext]
    refine ⟨by simp, ?_, by simpa using hfeed, by simp⟩
    by_cases hempty : text.toList = []
    · rw [hempty]
      decide
    · have hsemicolon : trim [';'] = [';'] := by decide
      exact trim_append_append hsemicolon htrim (by simp) hempty []
  | statement hkind hcount hread hquote hfeed =>
    obtain ⟨c, rest, htext, halpha⟩ := exists_text_of_keyword hkind
    have hwords := text_of_keyword hkind
    obtain ⟨hne, htrim⟩ := trim_intercalate (List.cons_ne_nil (Keyword.name _) _)
    rw [← hwords] at hne htrim
    refine ⟨hne, htrim, fun hmem => ?_, fun hmark => ?_⟩
    · rw [hwords] at hmem
      rcases mem_intercalate hmem with heq | heq | ⟨w, hw, hc⟩
      · cases heq
      · cases heq
      · rcases List.mem_cons.mp hw with rfl | hw
        · exact Keyword.not_mem_name (by decide) hc
        · exact hfeed w hw hc
    · rw [htext] at hmark
      cases hmark
      cases halpha

/-- The line that a statement is written as is read as the statement. -/
theorem parse_text (h : s.command.Canonical) (number : Nat) :
    (⟨number, s.text⟩ : Line).parse = .ok ⟨number, s.command⟩ := by
  obtain ⟨line, command⟩ := s
  cases h with
  | @comment text htrim hfeed =>
    have htext : (Statement.text ⟨line, .comment text⟩).toList = ';' :: text.toList := by
      simp [Statement.text]
    simp [Line.parse, Line.comment, htext, htrim]
  | statement hkind hcount hread hquote hfeed =>
    obtain ⟨c, rest, htext, halpha⟩ := exists_text_of_keyword hkind
    have hcomment : (⟨number, Statement.text ⟨line, command⟩⟩ : Line).comment = none := by
      unfold Line.comment
      split
      · rename_i hsemicolon
        rw [htext] at hsemicolon
        cases hsemicolon
        cases halpha
      · rfl
    simp only [Line.parse, hcomment, splitWords_text hkind hquote, Line.readWords,
      Keyword.ofWord?_name, Line.checkCount, hcount, hread]
    rfl

end Statement

namespace Line

variable {line : Line} {s : Statement}

/-- Arguments hold no quotes, since splitting a line into words drops them. -/
theorem quote_not_mem_arguments {word : String} {args arguments : List String}
    (hwords : splitWords line.text = some (word :: args))
    (hkeys : arguments.map nameKey = args.map nameKey) :
    ∀ w ∈ arguments, '"' ∉ w.toList := by
  apply not_mem_of_nameKeys (by decide) hkeys
  intro w hw hmem
  exact (mem_of_splitWords hwords (List.mem_cons_of_mem word hw) hmem).2 rfl

/-- Reading gives statements in canonical form. -/
theorem canonical_of_parse (hfeed : '\n' ∉ line.text.toList) (h : line.parse = .ok s) :
    s.command.Canonical := by
  rcases parse_cases h with ⟨rest, htext, hcommand⟩ | ⟨-, hcommand⟩ | ⟨word, args, kind,
    hwords, -, hcount, hread⟩
  · rw [hcommand]
    have hrest : '\n' ∉ trim rest := by
      intro hmem
      rw [htext] at hfeed
      exact hfeed (List.mem_cons_of_mem ';' (mem_of_mem_trim hmem))
    exact .comment (by simpa using trim_trim rest) (by simpa using hrest)
  · rw [hcommand]
    exact .comment rfl (by simp)
  · obtain ⟨hkind, hform, hagain⟩ := arguments_readCommand hcount hread
    have harguments := hform.map_nameKey
    have hlength : s.command.arguments.length = args.length := by
      simpa using congrArg List.length harguments
    -- Case apart the arguments are words of the line, and a line feed has no case.
    have hnoFeed : ∀ w ∈ s.command.arguments, '\n' ∉ w.toList := by
      apply not_mem_of_nameKeys (by decide) harguments
      intro w hw hmem
      exact hfeed (mem_of_splitWords hwords (List.mem_cons_of_mem word hw) hmem).1
    exact .statement hkind (by rw [hlength, hcount]) hagain
      (quote_not_mem_arguments hwords harguments) hnoFeed

/-- A statement is written with as many backslashes as the line that it was read from has. -/
theorem count_text_of_parse (h : line.parse = .ok s) :
    s.text.toList.count '\\' = line.text.toList.count '\\' := by
  rcases parse_cases h with
    ⟨rest, htext, hcommand⟩ | ⟨hwords, hcommand⟩ | ⟨word, args, kind, hwords, hword,
      hcount, hread⟩
  · simp [Statement.text, hcommand, htext, count_trim (show isBlank '\\' = false by decide)]
  · have hcount := count_of_splitWords (c := '\\') hwords (by decide) (by decide)
    rw [← hcount]
    simp [Statement.text, hcommand]
  · obtain ⟨hkind, hform, -⟩ := arguments_readCommand hcount hread
    have harguments := hform.map_nameKey
    have hprinted := Statement.splitWords_text hkind (quote_not_mem_arguments hwords harguments)
    have hkeys : (kind.name :: s.command.arguments).map nameKey = (word :: args).map nameKey := by
      simp [Keyword.nameKey_of_ofWord? hword, harguments]
    calc s.text.toList.count '\\'
      _ = ((kind.name :: s.command.arguments).flatMap String.toList).count '\\' :=
          (count_of_splitWords hprinted (by decide) (by decide)).symm
      _ = ((word :: args).flatMap String.toList).count '\\' := count_of_nameKeys (by decide) hkeys
      _ = line.text.toList.count '\\' := count_of_splitWords hwords (by decide) (by decide)

end Line

end InstallScript.Script
