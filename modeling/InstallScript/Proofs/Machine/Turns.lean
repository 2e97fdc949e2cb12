/-!
The turns of selects. A run opens selects and enters their cases, and its turns in order tell what
each select that has been opened has come to. The rules are that no value is used twice by cases of
the same select, that only values that were picked are used, and that a `Default` only runs while no
case has.
-/

namespace InstallScript

/-- A select, named by how many programs wait for the one that it is in and by the index of its
    statement. -/
structure SelectRef where
  depth : Nat
  start : Nat
  deriving DecidableEq, Repr

/-- What a run does to a select: it opens it for the values that were picked, which may be several
    or not, it enters a case of it for a value, or it enters its `Default`. -/
inductive Turn where
  | opened (select : SelectRef) (several : Bool) (results : List String)
  | entered (select : SelectRef) (value : String)
  | defaulted (select : SelectRef)
  deriving DecidableEq, Repr

/-- What a select has come to: whether several values could be picked, those that were, and those
    that cases have used, in order. -/
structure Tally where
  several : Bool
  results : List String
  used : List String

/-- What the selects that have been opened have come to. -/
abbrev Ledger := SelectRef → Option Tally

namespace Turn

/-- The select that a turn is about. -/
def select : Turn → SelectRef
  | .opened select _ _ | .entered select _ | .defaulted select => select

/-- The value for which a turn enters a case of a select. -/
def value? (select : SelectRef) : Turn → Option String
  | .entered other value => if other = select then some value else none
  | _ => none

/-- The values for which cases of a select are entered, in order. -/
def values (select : SelectRef) (turns : List Turn) : List String :=
  turns.filterMap (value? select)

/-- Whether a select is not opened again. -/
def Keeps (select : SelectRef) (turns : List Turn) : Prop :=
  ∀ several results, .opened select several results ∉ turns

/-- What selects have come to after a turn. -/
def record (ledger : Ledger) : Turn → Ledger
  | .opened select several results => fun other => if other = select
    then some ⟨several, results, []⟩ else ledger other
  | .entered select value => fun other =>
    if other = select then (ledger other).map fun t => { t with used := t.used ++ [value] }
      else ledger other
  | .defaulted _ => ledger

/-- What selects have come to after some turns. -/
def recordAll (ledger : Ledger) (turns : List Turn) : Ledger :=
  turns.foldl record ledger

/-- Whether a turn keeps to the rules. -/
def Allowed (ledger : Ledger) : Turn → Prop
  | .opened _ several results => several = false → results.length ≤ 1
  | .entered select value =>
    ∃ t, ledger select = some t ∧ value ∈ t.results ∧ value ∉ t.used
  | .defaulted select => ∃ t, ledger select = some t ∧ t.used = []

/-- Whether every turn keeps to the rules. -/
def AllAllowed (ledger : Ledger) : List Turn → Prop
  | [] => True
  | turn :: rest => turn.Allowed ledger ∧ AllAllowed (turn.record ledger) rest

section

variable {ledger : Ledger} {select : SelectRef} {turns : List Turn}

@[simp] theorem values_nil : values select [] = [] := rfl

theorem values_cons (turn : Turn) :
    values select (turn :: turns) = (turn.value? select).toList ++ values select turns := by
  cases h : turn.value? select <;> simp [values, h]

theorem recordAll_append (turns more : List Turn) :
    recordAll ledger (turns ++ more) = recordAll (recordAll ledger turns) more :=
  List.foldl_append

theorem allAllowed_append (turns more : List Turn) :
    AllAllowed ledger (turns ++ more) ↔ AllAllowed ledger turns ∧
    AllAllowed (recordAll ledger turns) more := by
  induction turns generalizing ledger with
  | nil => simp [AllAllowed, recordAll]
  | cons turn rest ih => simp [AllAllowed, recordAll, ih, and_assoc]

/-- A turn is about one select only. -/
theorem record_of_ne {turn : Turn} (h : select ≠ turn.select) :
    turn.record ledger select = ledger select := by
  cases turn with
  | opened | entered => exact if_neg h
  | defaulted => rfl

/-- A turn that does not open a select adds the value that it uses. -/
theorem record_of_keeps {turn : Turn} {t : Tally} (h : ledger select = some t)
    (hkeeps : ∀ several results, turn ≠ .opened select several results) :
    turn.record ledger select = some { t with used := t.used ++ (turn.value? select).toList } := by
  cases turn with
  | opened other several results =>
    have hne : select ≠ other := by
      rintro rfl
      exact hkeeps several results rfl
    simp [record, value?, hne, h]
  | entered other value =>
    by_cases heq : other = select
    · simp [record, value?, heq, h]
    · simp [record, value?, heq, Ne.symm heq, h]
  | defaulted other => simp [record, value?, h]

theorem exists_of_record {turn : Turn} {t : Tally} (h : turn.record ledger select = some t)
    (hkeeps : ∀ several results, turn ≠ .opened select several results) :
    ∃ used, ledger select = some ⟨t.several, t.results, used⟩ ∧
      t.used = used ++ (turn.value? select).toList := by
  have hsome : (ledger select).isSome := by
    cases turn with
    | opened other several results =>
      have hne : select ≠ other := by
        rintro rfl
        exact hkeeps several results rfl
      simp only [record, hne, if_false] at h
      simp [h]
    | entered other value =>
      by_cases heq : select = other
      · simp only [record, heq, if_true, Option.map_eq_some_iff] at h
        obtain ⟨t', ht', -⟩ := h
        simp [heq, ht']
      · simp only [record, heq, if_false] at h
        simp [h]
    | defaulted other => exact Option.isSome_iff_exists.mpr ⟨t, h⟩
  obtain ⟨t', ht'⟩ := Option.isSome_iff_exists.mp hsome
  cases (record_of_keeps ht' hkeeps).symm.trans h
  exact ⟨t'.used, ht', rfl⟩

/-- A select with the values that cases have used, each of which was picked and is used once. -/
structure Fair (t : Tally) : Prop where
  nodup : t.used.Nodup
  subset : ∀ value ∈ t.used, value ∈ t.results

/-- While a select stays open, its cases use distinct values among those that were picked, and its
    `Default` is only entered before any of them. -/
theorem fair_of_allAllowed {t : Tally} (hledger : ledger select = some t) (ht : Fair t)
    (hallowed : AllAllowed ledger turns) (hkeeps : Keeps select turns) :
    Fair { t with used := t.used ++ values select turns } ∧ ∀ earlier later,
      turns = earlier ++ .defaulted select :: later → t.used ++ values select earlier = [] := by
  induction turns generalizing ledger t with
  | nil => simpa using ht
  | cons turn rest ih =>
    obtain ⟨hturn, hrest⟩ := hallowed
    have hother : ∀ several results, turn ≠ .opened select several results := by
      rintro several results rfl
      exact hkeeps several results List.mem_cons_self
    have hrecord := record_of_keeps hledger hother
    have hfair : Fair { t with used := t.used ++ (turn.value? select).toList } := by
      cases hvalue : turn.value? select with
      | none => simpa using ht
      | some value =>
        cases turn with
        | opened | defaulted => cases hvalue
        | entered other used =>
          simp only [value?, Option.ite_none_right_eq_some, Option.some.injEq] at hvalue
          obtain ⟨rfl, rfl⟩ := hvalue
          obtain ⟨t', ht', hpicked, hunused⟩ := hturn
          cases hledger.symm.trans ht'
          refine ⟨?_, fun v hv => ?_⟩
          · simpa [List.nodup_append] using ⟨ht.nodup, fun v hv heq => hunused (heq ▸ hv)⟩
          · rcases List.mem_append.mp hv with hv | hv
            · exact ht.subset v hv
            · obtain rfl : v = used := by simpa using hv
              exact hpicked
    obtain ⟨hfair', hdefault⟩ := ih hrecord hfair hrest fun several results hmem =>
      hkeeps several results (List.mem_cons_of_mem _ hmem)
    rw [values_cons, ← List.append_assoc]
    refine ⟨hfair', fun earlier later hsplit => ?_⟩
    cases earlier with
    | nil =>
      cases hsplit
      obtain ⟨t', ht', hunused⟩ := hturn
      cases hledger.symm.trans ht'
      simpa using hunused
    | cons first earlier =>
      cases hsplit
      rw [values_cons, ← List.append_assoc]
      exact hdefault earlier later rfl

/-- What is recorded of a select is told by the last turn that opened it and what was used since. -/
theorem exists_opened_of_recordAll {t : Tally} (h : recordAll ledger turns select = some t) :
    (∃ before after, turns = before ++ .opened select t.several t.results :: after ∧
      Keeps select after ∧
      t.used = values select after) ∨
    Keeps select turns ∧ ∃ used, ledger select = some ⟨t.several, t.results, used⟩ ∧
      t.used = used ++ values select turns := by
  induction turns generalizing ledger with
  | nil => exact .inr ⟨by simp [Keeps], t.used, h, by simp⟩
  | cons turn rest ih =>
    rcases ih h with ⟨before, after, rfl, hkeeps, hused⟩ | ⟨hkeeps, used, hledger, hused⟩
    · exact .inl ⟨turn :: before, after, rfl, hkeeps, hused⟩
    · by_cases hopened : ∃ several results, turn = .opened select several results
      · obtain ⟨several, results, rfl⟩ := hopened
        simp only [record, if_true, Option.some.injEq, Tally.mk.injEq] at hledger
        obtain ⟨rfl, rfl, rfl⟩ := hledger
        exact .inl ⟨[], rest, rfl, hkeeps, hused⟩
      · simp only [not_exists] at hopened
        obtain ⟨first, hfirst, rfl⟩ := exists_of_record hledger hopened
        refine .inr ⟨fun several results hmem => ?_, first, hfirst, ?_⟩
        · rcases List.mem_cons.mp hmem with heq | hmem
          · exact hopened several results heq.symm
          · exact hkeeps several results hmem
        · rw [hused, values_cons, List.append_assoc]

end

end Turn

end InstallScript
