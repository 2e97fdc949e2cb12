import InstallScript.Machine.Loop
import InstallScript.Pattern.Escape
import InstallScript.Proofs.Pattern.Wildcard

/-!
Wildcards as regular expressions. A wildcard is written as an expression that ignores case and is
bound to both ends of the text, where `*` is a repeated dot, `?` a dot, and a backslash takes every
other character its meaning. Whatever compiles such expressions as they are documented matches what
the wildcard matches.
-/

namespace InstallScript.Wildcard

open Pattern.Read (isMeta)

section Expressions

/-- The expression of a character of a pattern. -/
def unit (p : Char) : List Char :=
  if p = '*' then ['.', '*'] else if p = '?' then ['.'] else if isMeta p then ['\\', p] else [p]

/-- The expression of a pattern. -/
def expression (pattern : String) : String :=
  "(?i)" ++ String.ofList ('^' :: (pattern.toList.flatMap unit ++ ['$']))

/-- The parts of expressions in which nothing is grouped, counted or chosen. -/
inductive Token where
  | start
  | stop
  | any
  | run
  | literal (c : Char)
  deriving DecidableEq, Repr

/-- Reads an expression. A character that has a meaning of its own stands for itself only behind a
    backslash. -/
def readTokens : List Char → Option (List Token)
  | [] => some []
  | '\\' :: c :: rest => if isMeta c then (readTokens rest).map (.literal c :: ·) else none
  | '.' :: '*' :: rest => (readTokens rest).map (.run :: ·)
  | '.' :: rest => (readTokens rest).map (.any :: ·)
  | '^' :: rest => (readTokens rest).map (.start :: ·)
  | '$' :: rest => (readTokens rest).map (.stop :: ·)
  | c :: rest => if isMeta c then none else (readTokens rest).map (.literal c :: ·)

/-- What a token matches between what comes before and after, where case is ignored. -/
def Token.Matches : Token → List Char → List Char → List Char → Prop
  | .start, before, piece, _ => piece = [] ∧ before = []
  | .stop, _, piece, after => piece = [] ∧ after = []
  | .any, _, piece, _ => ∃ c, piece = [c] ∧ c ≠ '\n'
  | .run, _, piece, _ => '\n' ∉ piece
  | .literal p, _, piece, _ => ∃ c, piece = [c] ∧ Text.fold p = Text.fold c

/-- What tokens match one after the other. -/
def Spans : List Token → List Char → List Char → List Char → Prop
  | [], _, inside, _ => inside = []
  | t :: rest, before, inside, after => ∃ piece tail, inside = piece ++ tail ∧
    t.Matches before piece (tail ++ after) ∧ Spans rest (before ++ piece) tail after

/-- Whether tokens match some part of a text. -/
def Finds (tokens : List Token) (cs : List Char) : Prop :=
  ∃ before inside after, cs = before ++ (inside ++ after) ∧ Spans tokens before inside after

/-- Whether what is compiled from an expression that ignores case matches as it is documented. An
    expression need not be compiled, for instance because it is too long. -/
def Documented (compile : String → Option (String → Bool)) : Prop :=
  ∀ body tokens matcher, readTokens body = some tokens →
    compile ("(?i)" ++ String.ofList body) = some matcher →
    ∀ text, matcher text = true ↔ Finds tokens text.toList

end Expressions

/-- The token of a character of a pattern. -/
def token (p : Char) : Token :=
  if p = '*' then .run else if p = '?' then .any else .literal p

/-- A character of a pattern takes what its token matches, whatever is around it. -/
theorem matches_token_iff (p : Char) (before piece after : List Char) :
    (token p).Matches before piece after ↔ Takes p piece := by
  unfold token Takes
  split
  · rfl
  · split <;> rfl

theorem spans_iff_cuts {pattern before inside after : List Char} :
    Spans (pattern.map token ++ [.stop]) before inside after ↔ after = [] ∧
    Cuts pattern inside := by
  induction pattern generalizing before inside with
  | nil =>
    rw [cuts_nil_iff]
    constructor
    · rintro ⟨piece, tail, rfl, ⟨rfl, hafter⟩, rfl⟩
      exact ⟨hafter, rfl⟩
    · rintro ⟨rfl, rfl⟩
      exact ⟨[], [], rfl, ⟨rfl, rfl⟩, rfl⟩
  | cons p pattern ih =>
    rw [cuts_cons_iff]
    constructor
    · rintro ⟨piece, tail, rfl, hpiece, hrest⟩
      obtain ⟨hafter, htail⟩ := ih.mp hrest
      exact ⟨hafter, piece, tail, rfl, (matches_token_iff _ _ _ _).mp hpiece, htail⟩
    · rintro ⟨hafter, piece, tail, rfl, hpiece, htail⟩
      exact ⟨piece, tail, rfl, (matches_token_iff _ _ _ _).mpr hpiece,
        ih.mpr ⟨hafter, htail⟩⟩

/-- Between its two anchors a pattern matches whole texts. -/
theorem finds_iff_cuts {pattern cs : List Char} :
    Finds (.start :: (pattern.map token ++ [.stop])) cs ↔ Cuts pattern cs := by
  constructor
  · rintro ⟨before, inside, after, rfl, piece, tail, rfl, ⟨rfl, rfl⟩, hrest⟩
    obtain ⟨rfl, htail⟩ := spans_iff_cuts.mp hrest
    simpa using htail
  · intro h
    exact ⟨[], cs, [], by simp, [], cs, rfl, ⟨rfl, rfl⟩, spans_iff_cuts.mpr ⟨rfl, h⟩⟩

/-- No expression of a pattern starts with a star, which would repeat what is in front of it. -/
theorem units_ne_star (pattern rest : List Char) :
    pattern.flatMap unit ++ ['$'] ≠ '*' :: rest := by
  cases pattern with
  | nil => simp
  | cons p pattern =>
    have hstar : isMeta '*' = true := by decide
    rw [List.flatMap_cons, List.append_assoc, unit]
    split
    · simp
    · split
      · simp
      · split
        · simp
        · rename_i hplain
          rintro ⟨⟩
          exact hplain hstar

/-- The expression of a pattern is read as its tokens. -/
theorem readTokens_units (pattern : List Char) :
    readTokens (pattern.flatMap unit ++ ['$']) = some (pattern.map token ++ [.stop]) := by
  induction pattern with
  | nil => rfl
  | cons p pattern ih =>
    have hnext := units_ne_star pattern
    rw [List.flatMap_cons, List.append_assoc, List.map_cons, List.cons_append]
    generalize pattern.flatMap unit ++ ['$'] = rest at ih hnext
    by_cases hrun : p = '*'
    · subst hrun
      simp [unit, token, readTokens, ih]
    by_cases hany : p = '?'
    · subst hany
      have hdot : readTokens ('.' :: rest) = (readTokens rest).map (.any :: ·) := by
        rw [readTokens]
        exact hnext
      simp [unit, token, hdot, ih]
    by_cases hmeta : isMeta p = true
    · simp [unit, token, hrun, hany, hmeta, readTokens, ih]
    · -- A character that is not escaped is none of those that have a case of their own.
      have hne : ∀ c, isMeta c = true → p ≠ c := fun c hc heq => hmeta (heq ▸ hc)
      have hliteral : readTokens (p :: rest) = (readTokens rest).map (.literal p :: ·) := by
        rw [readTokens, if_neg hmeta]
        · exact fun _ _ hp _ => hne '\\' (by decide) hp
        · exact fun _ hp _ => hne '.' (by decide) hp
        · exact hne '.' (by decide)
        · exact hne '^' (by decide)
        · exact hne '$' (by decide)
      simp [unit, token, hrun, hany, hmeta, hliteral, ih]

/-- What is compiled from the expression of a wildcard, by anything that compiles expressions as
    they are documented, matches exactly the names that can be cut into pieces that the characters
    of the pattern take. So do the names that a loop keeps because of the wildcard. -/
theorem matcher_iff_cuts (compile : String → Option (String → Bool))
    (hcompile : Documented compile) (pattern name : String) (hne : pattern ≠ "") :
    (∀ matcher, compile (expression pattern) = some matcher →
      (matcher name = true ↔ Cuts pattern.toList name.toList)) ∧
    (accepts pattern.toList name.toList = true ↔ Cuts pattern.toList name.toList) ∧
    ∀ path, Path.fileName path = name →
      (Listing.keeps (some pattern) path = true ↔ Cuts pattern.toList name.toList) := by
  refine ⟨fun matcher hmatcher => ?_, accepts_iff_cuts _ _, ?_⟩
  · have hread : readTokens ('^' :: (pattern.toList.flatMap unit ++ ['$'])) =
        some (.start :: (pattern.toList.map token ++ [.stop])) := by
      rw [readTokens, readTokens_units]
      rfl
    rw [hcompile _ _ matcher hread hmatcher name, finds_iff_cuts]
  · rintro path rfl
    have hempty : pattern.isEmpty = false := by simpa using hne
    rw [Listing.keeps, hempty, Bool.false_or, accepts_iff_cuts]

/-- Compiles the expression of one wildcard to what the wildcard accepts. -/
def compileOnly (pattern expr : String) : Option (String → Bool) :=
  if expr = expression pattern then some fun text => accepts pattern.toList text.toList else none

theorem documented_compileOnly (pattern : String) : Documented (compileOnly pattern) := by
  intro body tokens matcher hread hmatcher text
  unfold compileOnly at hmatcher
  split at hmatcher
  · rename_i hexpr
    cases hmatcher
    have hbody : body = '^' :: (pattern.toList.flatMap unit ++ ['$']) :=
      String.ofList_injective ((String.append_right_inj _).mp hexpr)
    rw [hbody, readTokens, readTokens_units] at hread
    cases hread
    rw [accepts_iff_cuts]
    exact finds_iff_cuts.symm
  · cases hmatcher

/-- A wildcard matches names with the extension in any case, and none that only start as one that it
    matches. -/
theorem matcher_iff_cuts_dds :
    ∃ matcher, compileOnly "*.D?S" (expression "*.D?S") = some matcher ∧
      matcher "a.b.dds" = true ∧ Cuts "*.D?S".toList "a.b.dds".toList ∧
      matcher "a.dds.bak" = false ∧ ¬Cuts "*.D?S".toList "a.dds.bak".toList := by
  refine ⟨_, if_pos rfl, by decide +kernel, ?_, by decide +kernel, ?_⟩
  · obtain ⟨hmatcher, -⟩ :=
      matcher_iff_cuts (compileOnly "*.D?S") (documented_compileOnly _) "*.D?S"
        "a.b.dds" (by decide)
    exact (hmatcher _ (if_pos rfl)).mp (by decide +kernel)
  · obtain ⟨hmatcher, -⟩ :=
      matcher_iff_cuts (compileOnly "*.D?S") (documented_compileOnly _) "*.D?S"
        "a.dds.bak" (by decide)
    exact fun hcuts => absurd ((hmatcher _ (if_pos rfl)).mpr hcuts) (by decide +kernel)

end InstallScript.Wildcard
