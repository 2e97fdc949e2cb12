import InstallScript.Proofs.Machine.Rounds
import InstallScript.Proofs.Number.Reading

/-!
Loops over numbers. Such a loop has one number at hand and computes the next one a round ahead, and
it is done when that would be out of range or beyond its last number. The numbers that it goes
through are nevertheless those that arithmetic without bounds gives, up to the very ends of the
range.
-/

namespace InstallScript

open Script

section Division

variable {k distance step : Int}

/-- How far whole steps reach, in either direction. -/
theorem le_fdiv_iff (hstep : step ≠ 0) :
    k ≤ distance.fdiv step ↔ if 0 < step then k * step ≤ distance
      else distance ≤ k * step := by
  by_cases hpos : 0 < step
  · rw [if_pos hpos, Int.fdiv_eq_ediv_of_nonneg _ (Int.le_of_lt hpos), Int.le_ediv_iff_mul_le hpos]
  · have hneg : 0 < -step := by omega
    rw [if_neg hpos, ← Int.neg_fdiv_neg, Int.fdiv_eq_ediv_of_nonneg _ (Int.le_of_lt hneg),
      Int.le_ediv_iff_mul_le hneg, Int.mul_neg]
    omega

/-- Whether steps lead from one number to another at all. -/
theorem nonneg_fdiv_iff {start last : Int} (hstep : step ≠ 0) :
    0 ≤ (last - start).fdiv step ↔ if 0 < step then start ≤ last else last ≤ start := by
  rw [le_fdiv_iff hstep]
  split <;> omega

theorem fdiv_eq_tdiv {start last : Int} (h : if 0 < step then start ≤ last else last ≤ start) :
    (last - start).fdiv step = (last - start).tdiv step := by
  by_cases hpos : 0 < step
  · rw [if_pos hpos] at h
    exact Int.fdiv_eq_tdiv_of_nonneg (by omega) (Int.le_of_lt hpos)
  · rw [if_neg hpos] at h
    rw [← Int.neg_fdiv_neg, ← Int.neg_tdiv_neg]
    exact Int.fdiv_eq_tdiv_of_nonneg (by omega) (by omega)

end Division

/-- The numbers from `start` up or down to `last` in steps of one size: as many as whole steps fit
    in between, and the first one. -/
def progression (start last step : Int) : List Int :=
  (List.range ((last - start).fdiv step + 1).toNat).map fun (k : Nat) => start + k * step

section Progression

variable {start last step : Int}

theorem mem_progression_iff (hstep : step ≠ 0) {n : Int} : n ∈ progression start last step ↔
    ∃ k : Nat, n = start + k * step ∧ if 0 < step then n ≤ last else last ≤ n := by
  have hreach : ∀ k : Nat, k < ((last - start).fdiv step + 1).toNat ↔
      if 0 < step then start + k * step ≤ last else last ≤ start + k * step := by
    intro k
    have hle : k < ((last - start).fdiv step + 1).toNat ↔
      (k : Int) ≤ (last - start).fdiv step := by omega
    rw [hle, le_fdiv_iff hstep]
    split <;> omega
  simp only [progression, List.mem_map, List.mem_range, hreach]
  constructor
  · rintro ⟨k, hk, rfl⟩
    exact ⟨k, rfl, hk⟩
  · rintro ⟨k, rfl, hk⟩
    exact ⟨k, hk, rfl⟩

/-- No number is beyond the first and the last one. -/
theorem contains_of_mem_progression {range : Number.Range} (hstep : step ≠ 0)
    (hstart : range.contains start = true) (hlast : range.contains last = true) {n : Int}
    (h : n ∈ progression start last step) : range.contains n = true := by
  obtain ⟨k, hn, hend⟩ := (mem_progression_iff hstep).mp h
  simp only [Number.Range.contains, Bool.and_eq_true, decide_eq_true_eq] at hstart hlast ⊢
  by_cases hpos : 0 < step
  · have hmul : 0 ≤ k * step := Int.mul_nonneg (Int.natCast_nonneg k) (Int.le_of_lt hpos)
    rw [if_pos hpos] at hend
    omega
  · have hmul : k * step ≤ 0 :=
      Int.mul_nonpos_of_nonneg_of_nonpos (Int.natCast_nonneg k) (Int.not_lt.mp hpos)
    rw [if_neg hpos] at hend
    omega

/-- There are no numbers if the steps lead away from the last one. -/
theorem progression_eq_nil (h : 0 < step ∧ last < start ∨ step < 0 ∧ start < last) :
    progression start last step = [] := by
  have hstep : step ≠ 0 := by omega
  have hnone : ¬0 ≤ (last - start).fdiv step := by
    rw [nonneg_fdiv_iff hstep]
    split <;> omega
  have hzero : ((last - start).fdiv step + 1).toNat = 0 := by omega
  rw [progression, hzero]
  rfl

theorem nodup_progression (hstep : step ≠ 0) : (progression start last step).Nodup := by
  rw [progression, List.Nodup, List.pairwise_map]
  refine List.nodup_range.imp fun {i j} hij heq => hij ?_
  have hmul : (i : Int) * step = j * step := Int.add_left_cancel heq
  exact Int.ofNat_inj.mp (Int.eq_of_mul_eq_mul_right hstep hmul)

end Progression

namespace LoopState

/-- The values that are taken off a sequence one after the other, until there is none left. -/
inductive Visits : LoopState → List String → Prop where
  | done {state : LoopState} : state.next? = none → Visits state []
  | more {state rest : LoopState} {item : String} {items : List String} :
      state.next? = some (item, rest) → Visits rest items → Visits state (item :: items)

theorem InRange.visits_items {state : LoopState} (h : state.InRange) :
    state.Visits state.items := by
  generalize hitems : state.items = items
  induction items generalizing state with
  | nil =>
    have hnext := h.next?
    split at hnext
    · rename_i hnone
      exact .done hnone
    · rw [hitems] at hnext
      cases hnext.2
  | cons item items ih =>
    have hnext := h.next?
    split at hnext
    · rw [hitems] at hnext
      cases hnext
    · rename_i first rest hsome
      obtain ⟨hrest, hsplit⟩ := hnext
      obtain ⟨rfl, hrestItems⟩ := List.cons.inj (hitems.symm.trans hsplit)
      exact .more hsome (ih hrest hrestItems.symm)

/-- A sequence gives one list of values. -/
theorem Visits.unique {state : LoopState} {items others : List String} (h : state.Visits items)
    (hothers : state.Visits others) : items = others := by
  induction h generalizing others with
  | done hnone =>
    cases hothers with
    | done => rfl
    | more hsome => cases hnone.symm.trans hsome
  | more hsome _ ih =>
    cases hothers with
    | done hnone => cases hnone.symm.trans hsome
    | more hsome' hrest =>
      cases hsome.symm.trans hsome'
      rw [ih hrest]

theorem InRange.visits_iff {state : LoopState} (h : state.InRange) {items : List String} :
    state.Visits items ↔ items = state.items := by
  constructor
  · exact fun hvisits => hvisits.unique h.visits_items
  · rintro rfl
    exact h.visits_items

/-- What is left of a loop over numbers is what arithmetic without bounds gives. -/
theorem items_count {start last step : Int} (hstep : step ≠ 0) :
    items (.count (some start) last step) = (progression start last step).map Number.textOfInt := by
  have hrounds : roundsFrom start last step = ((last - start).fdiv step + 1).toNat := by
    have hreaches : 0 ≤ (last - start).fdiv step ↔ _ := nonneg_fdiv_iff hstep
    unfold roundsFrom
    by_cases hmore : if 0 < step then start ≤ last else last ≤ start
    · have hnonneg := hreaches.mpr hmore
      rw [if_pos hmore, ← fdiv_eq_tdiv hmore]
      omega
    · have hneg := mt hreaches.mp hmore
      rw [if_neg hmore]
      omega
  rw [items, hrounds, progression, List.map_map]
  rfl

theorem inRange_count {start last step : Int} (hstart : Number.long.contains start = true)
    (hlast : Number.long.contains last = true) (hstep : step ≠ 0) :
    (count (some start) last step).InRange := by
  have hcounting : counting start last step = .ok (count (some start) last step) := if_neg hstep
  exact inRange_of_counting hstart hlast hcounting

/-- A loop over numbers goes through the decimal forms of the numbers that arithmetic without bounds
    gives. -/
theorem visits_count_iff {start last step : Int} (hstart : Number.long.contains start = true)
    (hlast : Number.long.contains last = true) (hstep : step ≠ 0) {items : List String} :
    (count (some start) last step).Visits items ↔
    items = (progression start last step).map Number.textOfInt := by
  rw [(inRange_count hstart hlast hstep).visits_iff, items_count hstep]

end LoopState

/-- No number is written twice. -/
theorem nodup_map_textOfInt {start last step : Int} (hstart : Number.long.contains start = true)
    (hlast : Number.long.contains last = true) (hstep : step ≠ 0) :
    ((progression start last step).map Number.textOfInt).Nodup := by
  rw [List.Nodup, List.pairwise_map]
  refine (nodup_progression hstep).imp_of_mem fun {n m} hn hm hne heq => hne ?_
  exact Number.textOfInt_inj (contains_of_mem_progression hstep hstart hlast hn)
    (contains_of_mem_progression hstep hstart hlast hm) heq

/-- Whether a text is read as a number once values have been put into it. -/
def Variables.Denotes (vars : Variables) (text : String) (n : Int) : Prop :=
  ∃ value, vars.substitute text = .ok value ∧ Argument.integer Number.long value = .ok n

theorem Variables.denotes_textOfInt (vars : Variables) {n : Int}
    (h : Number.long.contains n = true) :
    vars.Denotes (Number.textOfInt n) n :=
  ⟨Number.textOfInt n, vars.substitute_textOfInt n, Argument.integer_textOfInt h⟩

/-- Whether a header is that of a loop from one number to another in steps of one size, which is one
    unless it is given. -/
def Script.LoopHeader.Counts (vars : Variables) (header : LoopHeader) (start last step : Int) :
    Prop :=
  match header with
  | .count _ first stop size => vars.Denotes first start ∧ vars.Denotes stop last ∧
    match size with
    | some text => vars.Denotes text step
    | none => step = 1
  | .each .. => False

theorem LoopState.ofHeader_of_counts {vars : Variables} {header : LoopHeader}
    {start last step : Int} (h : header.Counts vars start last step) (site : Site) (line : Nat) :
    ofHeader site vars line header = (counting start last step).map fun state => (state, []) := by
  cases header with
  | each => cases h
  | count name first stop size =>
    obtain ⟨⟨firstValue, hfirst, hstart⟩, ⟨stopValue, hstop, hlast⟩, hsize⟩ := h
    cases size with
    | none =>
      subst hsize
      simp only [ofHeader, bind, Except.bind, hfirst, hstart, hstop, hlast, pure, Except.pure]
      cases counting start last 1 <;> rfl
    | some text =>
      obtain ⟨sizeValue, htext, hstep⟩ := hsize
      simp only [ofHeader, bind, Except.bind, hfirst, hstart, hstop, hlast, htext, hstep,
        pure, Except.pure]
      cases counting start last step <;> rfl

/-- A loop over numbers, with whatever bounds of 64 bits and whatever step, is refused if its step
    is zero. Otherwise the values that it takes until it is done are the decimal forms of the first
    number and of those that whole steps lead to up to the last one, computed without bounds: none
    if the steps lead away from it, none twice, and none out of range. Where a run comes to such a
    loop, these are the values that it gives the variable of the loop, whatever the statements
    inside the loop do to the variable. -/
theorem Machine.walksOver_progression {start last : Int} (step : Int)
    (hstart : Number.long.contains start = true) (hlast : Number.long.contains last = true) :
    (step ≠ 0 →
      (∀ items, (LoopState.count (some start) last step).Visits items ↔
        items = (progression start last step).map Number.textOfInt) ∧
      ((progression start last step).map Number.textOfInt).Nodup ∧
      (∀ n ∈ progression start last step, Number.long.contains n = true) ∧
      (0 < step ∧ last < start ∨ step < 0 ∧ start < last →
      progression start last step = [])) ∧
    ∀ {σ : Type} (ctx : Context σ) (a : Activation) (below : List Activation) (s : Session σ)
      (line stop : Nat) (header : LoopHeader),
      a.program.statements[a.pc]? = some ⟨line, .forLoop header⟩ →
      a.program.link a.pc = .loop stop → header.Counts s.vars start last step →
      (step = 0 → ∃ after, (⟨a :: below, s⟩ : Machine σ).step ctx =
        .failed (.run ⟨line, .invalidArgument "0" .nonZeroStep⟩) after ∧
        after.vars = s.vars) ∧
      (step ≠ 0 →
        LoopState.ofHeader ctx.toSite s.vars line header =
          .ok (.count (some start) last step, []) ∧
        (⟨a :: below, s⟩ : Machine σ).WalksOver ctx ⟨below, a.frames, a.pc, stop,
          header.variableName⟩
          ((progression start last step).map Number.textOfInt)) := by
  constructor
  · intro hstep
    refine ⟨fun items => LoopState.visits_count_iff hstart hlast hstep,
      nodup_map_textOfInt hstart hlast hstep, ?_,
      progression_eq_nil⟩
    exact fun n hn => contains_of_mem_progression hstep hstart hlast hn
  · intro σ ctx a below s line stop header hstatement hlink hcounts
    have hheader := LoopState.ofHeader_of_counts hcounts ctx.toSite line
    constructor
    · rintro rfl
      rw [LoopState.counting, if_pos rfl] at hheader
      exact ⟨_, Machine.step_of_ofHeader_error hstatement hlink hheader, rfl⟩
    · intro hstep
      rw [LoopState.counting, if_neg hstep] at hheader
      refine ⟨hheader, ?_⟩
      rw [← LoopState.items_count hstep]
      exact Machine.walksOver_items hstatement hlink hheader

/-- A loop that sets its variable back goes up to where the next number would be out of range. -/
theorem Machine.walksOver_progression_at_limit :
    let start : Int := 9223372036854775800
    let last : Int := 9223372036854775807
    let header : LoopHeader :=
      .count "i" (Number.textOfInt start) (Number.textOfInt last) (some (Number.textOfInt 5))
    let program : Program :=
      ⟨#[⟨1, .forLoop header⟩, ⟨2, .setVar "i" "0"⟩, ⟨3, .endFor⟩],
      #[.loop 2, .none, .loopControl 0], #[none, some 0, some 0], []⟩
    let ctx : Context Prepared := ⟨⟨.default, .empty, .empty⟩, Prepared.host⟩
    let values := [Number.textOfInt 9223372036854775800, Number.textOfInt 9223372036854775805]
    Number.long.contains (9223372036854775805 + 5) = false ∧
      (LoopState.count (some start) last 5).Visits values ∧
      (Machine.start program (.start {})).WalksOver ctx ⟨[], [], 0, 2, "i"⟩ values := by
  intro start last header program ctx values
  have hstart : Number.long.contains start = true := by decide
  have hlast : Number.long.contains last = true := by decide
  have hvalues : (progression start last 5).map Number.textOfInt = values := rfl
  have hcounts : header.Counts (Session.start ({} : Prepared)).vars start last 5 :=
    ⟨Variables.denotes_textOfInt _ hstart, Variables.denotes_textOfInt _ hlast,
      Variables.denotes_textOfInt _ (by decide)⟩
  obtain ⟨hsequence, hruns⟩ := Machine.walksOver_progression 5 hstart hlast
  have hwalks := (hruns ctx (.start program) [] (.start {}) 1 2 header rfl rfl hcounts).2
    (by decide)
  rw [hvalues] at hwalks
  exact ⟨by decide, ((hsequence (by decide)).1 values).mpr hvalues.symm, hwalks.2⟩

end InstallScript
