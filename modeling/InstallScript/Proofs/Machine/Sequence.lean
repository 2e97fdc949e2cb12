import InstallScript.Machine.Loop
import InstallScript.Proofs.Result

/-!
The sequences that loops walk over, as lists. A loop takes one value after the other off its
sequence until there is none left.
-/

namespace InstallScript

namespace Number.Range

theorem contains_of_check {r : Range} {n m : Int} (h : r.check n = some m) :
    r.contains m = true := by
  unfold check at h
  split at h
  · rename_i hin
    cases h
    exact hin
  · cases h

/-- Whatever is read lies in the range. -/
theorem contains_of_read {r : Range} {cs : List Char} {n : Int} (h : r.read cs = some n) :
    r.contains n = true := by
  unfold read at h
  split at h
  · obtain ⟨m, -, hm⟩ := Option.bind_eq_some_iff.mp h
    exact contains_of_check hm
  · split at h
    · obtain ⟨m, -, hm⟩ := Option.bind_eq_some_iff.mp h
      exact contains_of_check hm
    · cases h
  · obtain ⟨m, -, hm⟩ := Option.bind_eq_some_iff.mp h
    exact contains_of_check hm

end Number.Range

namespace LoopState

/-- How many numbers there are from `n` up or down to `last`, in steps that are not zero. -/
def roundsFrom (n last step : Int) : Nat :=
  if (if 0 < step then n ≤ last else last ≤ n) then ((last - n).tdiv step).toNat + 1 else 0

/-- The values that the loop variable has yet to take. -/
def items : LoopState → List String
  | .count none _ _ => []
  | .count (some n) last step =>
    (List.range (roundsFrom n last step)).map fun (k : Nat) => Number.textOfInt (n + k * step)
  | .each items => items

/-- Whether a loop over numbers moves, and stays within the range of numbers. -/
def InRange : LoopState → Prop
  | .count next last step => step ≠ 0 ∧ Number.long.contains last = true ∧
    ∀ n, next = some n → Number.long.contains n = true
  | .each _ => True

/-- Beyond the last number there is none left. -/
theorem roundsFrom_eq_zero {n last step : Int} (h : ¬if 0 < step then n ≤ last else last ≤ n) :
    roundsFrom n last step = 0 :=
  if_neg h

/-- Each number leaves one less. -/
theorem roundsFrom_eq_succ {n last step : Int} (hstep : step ≠ 0)
    (h : if 0 < step then n ≤ last else last ≤ n) :
    roundsFrom n last step = roundsFrom (n + step) last step + 1 := by
  -- The distance to the last number and the length of a step, both without their sign.
  have key : ∀ distance size : Int, 0 ≤ distance → 0 < size →
      (distance.tdiv size).toNat = if size ≤ distance then ((distance - size).tdiv size).toNat + 1
          else 0 := by
    intro distance size hdistance hsize
    rw [Int.tdiv_eq_ediv_of_nonneg hdistance]
    split
    · rename_i hle
      rw [Int.tdiv_eq_ediv_of_nonneg (by omega), Int.sub_ediv_of_dvd _ (Int.dvd_refl size),
        Int.ediv_self (by omega)]
      have hpos : 1 ≤ distance / size := Int.le_ediv_of_mul_le hsize (by omega)
      omega
    · rw [Int.ediv_eq_zero_of_lt hdistance (by omega)]
      rfl
  unfold roundsFrom
  rw [if_pos h]
  congr 1
  by_cases hpos : 0 < step
  · simp only [hpos, if_true] at h ⊢
    rw [key (last - n) step (by omega) hpos, show last - (n + step) = last - n - step by omega]
    by_cases hle : step ≤ last - n
    · rw [if_pos hle, if_pos (by omega)]
    · rw [if_neg hle, if_neg (by omega)]
  · simp only [hpos, if_false] at h ⊢
    rw [← Int.neg_tdiv_neg (last - n), ← Int.neg_tdiv_neg (last - (n + step)),
      key (-(last - n)) (-step) (by omega) (by omega),
      show -(last - (n + step)) = -(last - n) - -step by omega]
    by_cases hle : -step ≤ -(last - n)
    · rw [if_pos hle, if_pos (by omega)]
    · rw [if_neg hle, if_neg (by omega)]

/-- The values of a loop over numbers are the first one and those after it. -/
theorem items_count_eq_cons {n last step : Int} (hstep : step ≠ 0)
    (h : if 0 < step then n ≤ last else last ≤ n) :
    items (.count (some n) last step) =
      Number.textOfInt n :: items (.count (some (n + step)) last step) := by
  simp only [items, roundsFrom_eq_succ hstep h, List.range_succ_eq_map, List.map_cons, List.map_map,
    List.cons.injEq]
  refine ⟨by simp, List.map_congr_left fun k _ => congrArg Number.textOfInt ?_⟩
  simp only [Nat.succ_eq_add_one, Int.natCast_add, Int.add_mul]
  omega

/-- What is beyond the range of numbers is beyond the last number. -/
theorem items_check {n last step : Int} (hn : Number.long.contains n = true)
    (hlast : Number.long.contains last = true) :
    items (.count (Number.long.check (n + step)) last step) =
      items (.count (some (n + step)) last step) := by
  unfold Number.Range.check
  split
  · rfl
  · rename_i hout
    have hbeyond : ¬if 0 < step then n + step ≤ last else last ≤ n + step := by
      simp only [Number.Range.contains, Bool.and_eq_true, decide_eq_true_eq] at hn hlast hout
      split <;> omega
    simp [items, roundsFrom_eq_zero hbeyond]

/-- A loop takes the first value off its sequence, until there is none left. -/
theorem InRange.next? {state : LoopState} (h : state.InRange) : match state.next? with
    | none => state.items = []
    | some (item, rest) => rest.InRange ∧ state.items = item :: rest.items := by
  cases state with
  | each items =>
    cases items with
    | nil => rfl
    | cons item rest => exact ⟨trivial, rfl⟩
  | count next last step =>
    obtain ⟨hstep, hlast, hnext⟩ := h
    cases next with
    | none => rfl
    | some n =>
      have hn := hnext n rfl
      by_cases hmore : if 0 < step then n ≤ last else last ≤ n
      · simp only [LoopState.next?, if_pos hmore]
        refine ⟨⟨hstep, hlast, fun m hm => ?_⟩, ?_⟩
        · exact Number.Range.contains_of_check hm
        · rw [items_check hn hlast, items_count_eq_cons hstep hmore]
      · simp only [LoopState.next?, if_neg hmore]
        simp [items, roundsFrom_eq_zero hmore]

end LoopState

theorem Argument.contains_of_integer {range : Number.Range} {value : String} {n : Int}
    (h : Argument.integer range value = .ok n) : range.contains n = true := by
  unfold Argument.integer at h
  split at h
  · rename_i m hread
    cases h
    exact Number.Range.contains_of_read hread
  · cases h

theorem LoopState.inRange_of_counting {start last step : Int} {state : LoopState}
    (hstart : Number.long.contains start = true) (hlast : Number.long.contains last = true)
    (h : LoopState.counting start last step = .ok state) : state.InRange := by
  unfold LoopState.counting at h
  split at h
  · cases h
  · rename_i hstep
    cases h
    refine ⟨hstep, hlast, fun n hn => ?_⟩
    cases hn
    exact hstart

/-- The sequence that a loop starts with stays within the range of numbers. -/
theorem LoopState.inRange_of_ofHeader {site : Site} {vars : Variables} {line : Nat}
    {header : Script.LoopHeader} {state : LoopState} {events : List Event}
    (h : LoopState.ofHeader site vars line header = .ok (state, events)) : state.InRange := by
  cases header with
  | count name start stop step =>
    obtain ⟨startText, -, h⟩ := Except.bind_eq_ok_iff.mp h
    obtain ⟨first, hfirst, h⟩ := Except.bind_eq_ok_iff.mp h
    obtain ⟨stopText, -, h⟩ := Except.bind_eq_ok_iff.mp h
    obtain ⟨last, hlast, h⟩ := Except.bind_eq_ok_iff.mp h
    have hcounting : ∃ size, LoopState.counting first last size = .ok state := by
      cases step with
      | none =>
        obtain ⟨size, -, h⟩ := Except.bind_eq_ok_iff.mp h
        obtain ⟨result, hresult, h⟩ := Except.bind_eq_ok_iff.mp h
        cases h
        exact ⟨size, hresult⟩
      | some step =>
        obtain ⟨stepText, -, h⟩ := Except.bind_eq_ok_iff.mp h
        obtain ⟨size, -, h⟩ := Except.bind_eq_ok_iff.mp h
        obtain ⟨result, hresult, h⟩ := Except.bind_eq_ok_iff.mp h
        cases h
        exact ⟨size, hresult⟩
    obtain ⟨size, hsize⟩ := hcounting
    exact LoopState.inRange_of_counting (Argument.contains_of_integer hfirst)
      (Argument.contains_of_integer hlast) hsize
  | each kind name folder recurse pattern =>
    obtain ⟨path, -, h⟩ := Except.bind_eq_ok_iff.mp h
    split at h
    · cases h
    · obtain ⟨flag, -, h⟩ := Except.bind_eq_ok_iff.mp h
      obtain ⟨deep, -, h⟩ := Except.bind_eq_ok_iff.mp h
      obtain ⟨wildcard, -, h⟩ := Except.bind_eq_ok_iff.mp h
      cases h
      trivial

end InstallScript
