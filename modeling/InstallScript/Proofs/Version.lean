import InstallScript.Proofs.Number.Reading
import InstallScript.Version
import Mathlib.Algebra.Group.Nat.Defs
import Mathlib.Data.List.Forall2
import Mathlib.Data.List.GetD

/-!
Which texts name a version, and how versions compare. A version is compared as the list of numbers
that its text names, with zeros for those that are not written, so a text that ends in `.0` names
the version it names without that.
-/

namespace InstallScript

open Text (trim trimStart trimEnd splitAt joinWith)

namespace Version

variable {s : String} {v w : Version} {piece : List Char} {pieces : List (List Char)}
  {ns : List Nat} {n : Nat}

/-- A piece of a text denotes a number of 32 bits: decimal digits, with any number of leading zeros,
    behind an optional plus sign and between optional white space. -/
def Denotes (piece : List Char) (n : Nat) : Prop :=
  ∃ digits, (trim piece = digits ∨ trim piece = '+' :: digits) ∧ digits ≠ [] ∧
    (∀ c ∈ digits, c.isDigit = true) ∧ Number.ofDigits digits = n ∧ n < 2 ^ 32

/-- A text writes one to four numbers, with points between them and optional white space around them
    all. -/
def Writes (s : String) (ns : List Nat) : Prop :=
  ∃ pieces, trim s.toList = ['.'].intercalate pieces ∧ (∀ piece ∈ pieces, '.' ∉ piece) ∧
    1 ≤ pieces.length ∧ pieces.length ≤ 4 ∧ List.Forall₂ Denotes pieces ns

/-- Numbers with zeros for the missing ones of four. -/
def padded (ns : List Nat) : List Nat :=
  ns ++ List.replicate (4 - ns.length) 0

/-- The version with given numbers for its first parts. -/
def ofNumbers (ns : List Nat) : Version :=
  let part (i : Nat) := UInt32.ofNat (ns.getD i 0)
  ⟨part 0, part 1, part 2, part 3⟩

theorem parts_ofNumbers (hlength : ns.length ≤ 4) (hbound : ∀ n ∈ ns, n < 2 ^ 32) :
    (ofNumbers ns).parts = padded ns := by
  have hpart : ∀ n ∈ ns, (UInt32.ofNat n).toNat = n :=
    fun n hn => UInt32.toNat_ofNat_of_lt' (hbound n hn)
  match ns with
  | [] => rfl
  | [_] | [_, _] | [_, _, _] | [_, _, _, _] =>
    simp only [List.forall_mem_cons] at hpart
    simp [ofNumbers, parts, padded, hpart]
  | _ :: _ :: _ :: _ :: _ :: _ =>
    simp only [List.length_cons] at hlength
    omega

theorem ofNumbers_parts (v : Version) : ofNumbers v.parts = v := by
  simp [ofNumbers, parts]

theorem ofNumbers_append_zero (ns : List Nat) : ofNumbers (ns ++ [0]) = ofNumbers ns := by
  have hpart : ∀ i, (ns ++ [0]).getD i 0 = ns.getD i 0 := by
    intro i
    rcases Nat.lt_or_ge i ns.length with h | h
    · exact List.getD_append _ _ _ _ h
    · rw [List.getD_append_right _ _ _ _ h, List.getD_eq_default _ _ h]
      cases i - ns.length <;> rfl
  simp only [ofNumbers, hpart]

section Reading

theorem check_unsigned_eq_some_iff {bits n : Nat} {z : Int} :
    (Number.Range.unsigned bits).check n = some z ↔ n < 2 ^ bits ∧ z = n := by
  have hcontains : (Number.Range.unsigned bits).contains n = true ↔ n < 2 ^ bits := by
    rw [Number.Range.contains, Bool.and_eq_true, decide_eq_true_eq, decide_eq_true_eq,
      Number.Range.unsigned]
    dsimp only
    rw [Nat.pow_eq]
    omega
  rw [Number.Range.check, Option.ite_none_right_eq_some, hcontains, Option.some.injEq, eq_comm]

/-- Digits are read as the number they denote, if that has at most 32 bits. -/
theorem map_readDigits_eq_some_iff {digits : List Char} :
    ((Number.readDigits digits).bind fun m => (Number.Range.unsigned 32).check m).map Int.toNat =
      some n ↔
      digits ≠ [] ∧ (∀ c ∈ digits, c.isDigit = true) ∧ Number.ofDigits digits = n ∧
        n < 2 ^ 32 := by
  simp only [Option.map_eq_some_iff, Option.bind_eq_some_iff, Number.readDigits_eq_some_iff,
    check_unsigned_eq_some_iff]
  constructor
  · rintro ⟨_, ⟨_, ⟨hne, hdigits, rfl⟩, hbound, rfl⟩, rfl⟩
    exact ⟨hne, hdigits, rfl, hbound⟩
  · rintro ⟨hne, hdigits, rfl, hbound⟩
    exact ⟨_, ⟨_, ⟨hne, hdigits, rfl⟩, hbound, rfl⟩, rfl⟩

theorem readPart_eq_some_iff : readPart piece = some n ↔ Denotes piece n := by
  constructor
  · intro h
    unfold readPart Number.Range.read at h
    split at h
    · rename_i digits hpiece
      exact ⟨digits, .inr hpiece, map_readDigits_eq_some_iff.mp h⟩
    · cases h
    · exact ⟨trim piece, .inl rfl, map_readDigits_eq_some_iff.mp h⟩
  · rintro ⟨digits, hpiece | hpiece, hdigits⟩
    · rw [readPart, hpiece, Number.Range.read_of_isDigit _ hdigits.2.1]
      exact map_readDigits_eq_some_iff.mpr hdigits
    · rw [readPart, hpiece]
      exact map_readDigits_eq_some_iff.mpr hdigits

theorem mapM_readPart_eq_some_iff : pieces.mapM readPart = some ns ↔
    List.Forall₂ Denotes pieces ns := by
  induction pieces generalizing ns with
  | nil => simp [eq_comm]
  | cons piece rest ih =>
    simp only [List.mapM_cons, Option.bind_eq_bind, Option.bind_eq_some_iff, ih,
      readPart_eq_some_iff, List.forall₂_cons_left_iff, Option.pure_def, Option.some.injEq]
    constructor
    · rintro ⟨n, hn, ns, hns, rfl⟩
      exact ⟨n, ns, hn, hns, rfl⟩
    · rintro ⟨n, ns, hn, hns, rfl⟩
      exact ⟨n, hn, ns, hns, rfl⟩

theorem writes_iff : Writes s ns ↔
    (splitAt (· == '.') (trim s.toList)).length ≤ 4 ∧
      (splitAt (· == '.') (trim s.toList)).mapM readPart = some ns := by
  rw [mapM_readPart_eq_some_iff]
  constructor
  · rintro ⟨pieces, htext, hpoint, hpos, hlength, hdenotes⟩
    have hne : pieces ≠ [] := List.length_pos_iff.mp hpos
    have hcut : splitAt (· == '.') (joinWith ['.'] pieces) = pieces :=
      Text.splitAt_joinWith rfl hne fun piece hpiece d hd =>
        beq_eq_false_iff_ne.mpr fun heq => hpoint piece hpiece (heq ▸ hd)
    rw [htext, ← Text.joinWith_eq_intercalate, hcut]
    exact ⟨hlength, hdenotes⟩
  · rintro ⟨hlength, hdenotes⟩
    refine ⟨_, ?_, ?_, List.length_pos_iff.mpr (Text.splitAt_ne_nil _ _), hlength, hdenotes⟩
    · rw [← Text.joinWith_eq_intercalate, Text.joinWith_splitAt]
    · intro piece hpiece hmem
      exact absurd (Text.of_mem_splitAt hpiece '.' hmem).1 (by decide)

/-- A text names a version exactly if it writes the first parts of one. -/
theorem read_eq_some_iff : read s = some v ↔ ∃ ns, Writes s ns ∧ ofNumbers ns = v := by
  simp only [writes_iff]
  unfold read
  dsimp only
  rw [Option.ite_none_left_eq_some, Nat.not_lt, Option.map_eq_some_iff]
  constructor
  · rintro ⟨hlength, ns, hns, hv⟩
    exact ⟨ns, ⟨hlength, hns⟩, hv⟩
  · rintro ⟨ns, ⟨hlength, hns⟩, hv⟩
    exact ⟨hlength, ns, hns, hv⟩

theorem Writes.read (h : Writes s ns) : read s = some (ofNumbers ns) :=
  read_eq_some_iff.mpr ⟨ns, h, rfl⟩

theorem Writes.parts_ofNumbers (h : Writes s ns) : (ofNumbers ns).parts = padded ns := by
  obtain ⟨pieces, -, -, -, hlength, hdenotes⟩ := h
  have hbound : ∀ n ∈ ns, n < 2 ^ 32 := by
    intro n hn
    obtain ⟨i, hi, rfl⟩ := List.getElem_of_mem hn
    obtain ⟨-, -, -, -, -, hbound⟩ :=
      (List.forall₂_iff_get.mp hdenotes).2 i (hdenotes.length_eq ▸ hi) hi
    exact hbound
  exact Version.parts_ofNumbers (hdenotes.length_eq ▸ hlength) hbound

end Reading

section Printing

theorem trim_decimal (n : Nat) : trim (Number.decimal n) = Number.decimal n :=
  Text.trim_eq_self fun _ hc => Expr.isBlank_of_isDigit (Number.isDigit_of_mem_decimal hc)

theorem denotes_decimal (h : n < 2 ^ 32) : Denotes (Number.decimal n) n :=
  ⟨_, .inl (trim_decimal n), Number.decimal_ne_nil n,
    fun _ hc => Number.isDigit_of_mem_decimal hc,
    Number.ofDigits_decimal n, h⟩

theorem lt_of_mem_parts (h : n ∈ v.parts) : n < 2 ^ 32 := by
  simp only [parts, List.mem_cons, List.not_mem_nil, or_false] at h
  rcases h with rfl | rfl | rfl | rfl <;> exact UInt32.toNat_lt _

/-- The text of a version writes its four parts. -/
theorem writes_text (v : Version) : Writes v.text v.parts := by
  have hpieces : ∀ piece ∈ v.parts.map Number.decimal, piece ≠ [] ∧ trim piece = piece := by
    intro piece hpiece
    obtain ⟨n, -, rfl⟩ := List.mem_map.mp hpiece
    exact ⟨Number.decimal_ne_nil n, trim_decimal n⟩
  refine ⟨v.parts.map Number.decimal, ?_, ?_, Nat.le_add_left 1 3, Nat.le_refl 4, ?_⟩
  · rw [text, String.toList_ofList, Text.trim_joinWith hpieces, Text.joinWith_eq_intercalate]
  · intro piece hpiece hpoint
    obtain ⟨n, -, rfl⟩ := List.mem_map.mp hpiece
    exact absurd (Number.isDigit_of_mem_decimal hpoint) (by decide)
  · rw [List.forall₂_map_left_iff, List.forall₂_same]
    exact fun n hn => denotes_decimal (lt_of_mem_parts hn)

end Printing

section Order

/-- Lists of numbers are compared in the lexicographic order. -/
theorem compare_list_eq_lt_iff (xs ys : List Nat) : compare xs ys = .lt ↔ xs < ys := by
  rw [List.compare_eq_compareLex]
  induction xs generalizing ys with
  | nil => cases ys <;> simp [List.compareLex]
  | cons x xs ih =>
    cases ys with
    | nil => simp [List.compareLex]
    | cons y ys =>
      rw [List.compareLex_cons_cons, Ordering.then_eq_lt, Std.compare_eq_lt,
        Std.compare_eq_iff_eq, ih ys, List.cons_lt_cons_iff]

theorem compare_eq_lt_iff (v w : Version) : v.compare w = .lt ↔ v.parts < w.parts :=
  compare_list_eq_lt_iff v.parts w.parts

theorem compare_eq_eq_iff (v w : Version) : v.compare w = .eq ↔ v.parts = w.parts :=
  Std.compare_eq_iff_eq

theorem compare_eq_gt_iff (v w : Version) : v.compare w = .gt ↔ w.parts < v.parts := by
  rw [Version.compare, Std.OrientedCmp.gt_iff_lt, compare_list_eq_lt_iff]

end Order

section Zeros

/-- White space at the end of a piece does not matter to what it denotes. -/
theorem readPart_append_blank {bs : List Char} (hbs : ∀ c ∈ bs, Text.isBlank c = true)
    (piece : List Char) :
    readPart (piece ++ bs) = readPart piece := by
  rw [readPart, Text.trim_append_blank piece hbs, readPart]

/-- The pieces of a text that ends in `.0` are the pieces of the text without that, up to white
    space, and a zero. -/
theorem exists_pieces_append_point_zero (cs : List Char) :
    ∃ front last bs, (∀ c ∈ bs, Text.isBlank c = true) ∧
    splitAt (· == '.') (trim cs) = front ++ [last] ∧
      splitAt (· == '.') (trim (cs ++ ['.', '0'])) = front ++ [last ++ bs] ++ [['0']] := by
  obtain ⟨bs, hstart, hblank⟩ := Text.exists_trimEnd (trimStart cs)
  have hpoint : ∀ c ∈ bs, (c == '.') = false := by
    intro c hc
    refine beq_eq_false_iff_ne.mpr ?_
    rintro rfl
    exact absurd (hblank '.' hc) (by decide)
  obtain ⟨front, last, hpieces, happend⟩ := Text.splitAt_append (· == '.') (trim cs) hpoint
  have htrim : trim (cs ++ ['.', '0']) = trim cs ++ bs ++ ['.', '0'] := by
    rw [trim, Text.trimStart_append_cons (by decide), Text.trimEnd_append_cons (by decide),
      hstart, ← trim]
    rfl
  refine ⟨front, last, bs, hblank, hpieces, ?_⟩
  rw [htrim, Text.splitAt_append_cons rfl, happend]
  rfl

theorem readPart_zero : readPart ['0'] = some 0 :=
  readPart_eq_some_iff.mpr ⟨['0'], .inl rfl, by decide, List.forall_mem_singleton.mpr rfl,
    rfl, by decide⟩

theorem mapM_readPart_append_zero (pieces : List (List Char)) :
    (pieces ++ [['0']]).mapM readPart = (pieces.mapM readPart).map (· ++ [0]) := by
  rw [List.mapM_append]
  cases pieces.mapM readPart <;> simp [readPart_zero]

/-- A text with fewer than four pieces names the same version with `.0` behind it, or like it
    none. -/
theorem read_append_point_zero (h : (splitAt (· == '.') (trim s.toList)).length < 4) :
    read (s ++ ".0") = read s := by
  obtain ⟨front, last, bs, hblank, hpieces, happend⟩ := exists_pieces_append_point_zero s.toList
  have htext : (s ++ ".0").toList = s.toList ++ ['.', '0'] := String.toList_append
  have hlast : (front ++ [last ++ bs]).mapM readPart = (front ++ [last]).mapM readPart := by
    simp only [List.mapM_append, List.mapM_cons, readPart_append_blank hblank]
  have hlength : (front ++ [last ++ bs] ++ [['0']]).length = (front ++ [last]).length + 1 := by simp
  rw [hpieces] at h
  unfold read
  dsimp only
  rw [htext, hpieces, happend, hlength, if_neg (by omega), if_neg (by omega),
    mapM_readPart_append_zero, hlast, Option.map_map]
  exact congrArg (Option.map · _) (funext ofNumbers_append_zero)

end Zeros

/-- A text names a version exactly if it writes one to four numbers of 32 bits, and the parts of the
    version are these numbers in their order, with zeros for the missing ones. The text of a version
    names that version. Two versions compare as the numbers that their texts write do in the
    lexicographic order, with zeros for the missing ones, and `.0` behind a text with fewer than
    four pieces changes nothing. -/
theorem read_iff_writes_and_compare_padded :
    (∀ s, (∃ v, read s = some v) ↔ ∃ ns, Writes s ns) ∧
    (∀ s v ns, read s = some v → Writes s ns → v.parts = padded ns) ∧
    (∀ v, read v.text = some v) ∧
    (∀ a b v w ms ns, read a = some v → read b = some w → Writes a ms → Writes b ns →
      (v.compare w = .lt ↔ padded ms < padded ns) ∧
      (v.compare w = .eq ↔ padded ms = padded ns) ∧
        (v.compare w = .gt ↔ padded ns < padded ms)) ∧
    ∀ s, (splitAt (· == '.') (trim s.toList)).length < 4 → read (s ++ ".0") = read s := by
  have hparts : ∀ s v ns, read s = some v → Writes s ns → v.parts = padded ns := by
    intro s v ns hv hns
    rw [hns.read] at hv
    rw [← Option.some.inj hv, hns.parts_ofNumbers]
  refine ⟨fun s => ?_, hparts, fun v => ?_, ?_, fun s h => read_append_point_zero h⟩
  · constructor
    · rintro ⟨v, hv⟩
      obtain ⟨ns, hns, -⟩ := read_eq_some_iff.mp hv
      exact ⟨ns, hns⟩
    · rintro ⟨ns, hns⟩
      exact ⟨ofNumbers ns, hns.read⟩
  · rw [(writes_text v).read, ofNumbers_parts]
  · intro a b v w ms ns hv hw hms hns
    rw [← hparts a v ms hv hms, ← hparts b w ns hw hns]
    exact ⟨compare_eq_lt_iff v w, compare_eq_eq_iff v w, compare_eq_gt_iff v w⟩

/-- A sign, leading zeros, white space and missing parts do not matter. -/
theorem compare_lt_of_missing_parts :
    (∃ v w, read " 1.+2" = some v ∧ read "1. 02.0.1" = some w ∧ v.compare w = .lt) ∧
      read " 1.+2.0" = read " 1.+2" ∧ read (Version.mk 1 2 0 1).text = some ⟨1, 2, 0, 1⟩ := by
  have hshort : Writes " 1.+2" [1, 2] := writes_iff.mpr (by decide +kernel)
  have hlong : Writes "1. 02.0.1" [1, 2, 0, 1] := writes_iff.mpr (by decide +kernel)
  obtain ⟨hread, -, htext, hcompare, hzero⟩ := read_iff_writes_and_compare_padded
  obtain ⟨v, hv⟩ := (hread " 1.+2").mpr ⟨_, hshort⟩
  obtain ⟨w, hw⟩ := (hread "1. 02.0.1").mpr ⟨_, hlong⟩
  have hlt := (hcompare _ _ v w _ _ hv hw hshort hlong).1.mpr (by decide)
  exact ⟨⟨v, w, hv, hw, hlt⟩, hzero " 1.+2" (by decide +kernel), htext ⟨1, 2, 0, 1⟩⟩

end Version

end InstallScript
