import InstallScript.Proofs.Number.Reading
import InstallScript.Proofs.Plan.LastWrites
import InstallScript.Proofs.Text.Breaks

/-!
What is one target. A target is filed as one text, made of fields with a separator between each two.
As long as no field in front of a separator contains one, edits are filed under one text exactly if
they agree on every field, so that an edit takes the place of another one exactly if both edit the
same thing.
-/

namespace InstallScript

open Text

/-- The kinds of edits a plan collects. -/
inductive EditKind where
  | ini
  | shader
  | record
  | value
  | xml
  | patch
  deriving DecidableEq

/-- The same place of an XML file: one line, or the occurrences of one text. -/
def XmlChange.SamePlace : XmlChange → XmlChange → Prop
  | .line a _, .line b _ => a = b
  | .replace find _, .replace other _ => find = other
  | _, _ => False

namespace EditKind

/-- The edits of a kind. -/
abbrev Edit : EditKind → Type
  | .ini => IniEdit
  | .shader => ShaderEdit
  | .record => RecordEdit
  | .value => ValueEdit
  | .xml => XmlEdit
  | .patch => FilePatch

instance (kind : EditKind) : HasTarget kind.Edit :=
  match kind with
  | .ini => inferInstanceAs (HasTarget IniEdit)
  | .shader => inferInstanceAs (HasTarget ShaderEdit)
  | .record => inferInstanceAs (HasTarget RecordEdit)
  | .value => inferInstanceAs (HasTarget ValueEdit)
  | .xml => inferInstanceAs (HasTarget XmlEdit)
  | .patch => inferInstanceAs (HasTarget FilePatch)

/-- Whether two edits of a kind edit the same thing. -/
def SameTarget : (kind : EditKind) → kind.Edit → kind.Edit → Prop
  | .ini, a, b => lower a.sectionName = lower b.sectionName ∧ lower a.key = lower b.key
  | .shader, a, b => a.package = b.package ∧ lower a.shader = lower b.shader
  | .record, a, b =>
    lower a.plugin.name = lower b.plugin.name ∧ a.kind = b.kind ∧
      lower a.editorId = lower b.editorId
  | .value, a, b => lower a.plugin.name = lower b.plugin.name ∧ a.offset = b.offset
  | .xml, a, b => lower a.file.name = lower b.file.name ∧ a.change.SamePlace b.change
  | .patch, a, b => a.kind = b.kind ∧ Path.key a.output = Path.key b.output

/-- Whether the name that a target starts with has no separator. Targets of the other kinds start
    with a number or with the name of a set of files. -/
def Separable : (kind : EditKind) → kind.Edit → Prop
  | .ini, e => '\x1f' ∉ e.sectionName.toList
  | .record, e | .value, e => '\x1f' ∉ e.plugin.name.toList
  | .xml, e => '\x1f' ∉ e.file.name.toList
  | .shader, _ | .patch, _ => True

end EditKind

section Fields

variable {a b c d : String}

/-- A text is divided at its first separator, so the field in front of it can be told from what
    follows. -/
theorem fields_eq_iff (ha : '\x1f' ∉ a.toList) (hc : '\x1f' ∉ c.toList) :
    a ++ targetSeparator ++ b = c ++ targetSeparator ++ d ↔ a = c ∧ b = d := by
  have hsplit : ∀ front back : String, '\x1f' ∉ front.toList →
      splitOnce '\x1f' (front ++ targetSeparator ++ back).toList = some (front.toList,
          back.toList) := by
    intro front back hfront
    have hlists : (front ++ targetSeparator ++ back).toList =
        front.toList ++ '\x1f' :: back.toList := by
      simp [targetSeparator]
    rw [hlists, splitOnce_append_cons hfront]
  constructor
  · intro h
    have hparts := (hsplit a b ha).symm.trans
      ((congrArg (splitOnce '\x1f' ·.toList) h).trans (hsplit c d hc))
    simpa [String.toList_inj] using hparts
  · rintro ⟨rfl, rfl⟩
    rfl

theorem separator_notMem_lower (h : '\x1f' ∉ a.toList) : '\x1f' ∉ (lower a).toList :=
  fun hmem => h (mem_of_mem_lower (by decide) (by decide) hmem)

theorem separator_notMem_textOfNat (n : Nat) : '\x1f' ∉ (Number.textOfNat n).toList := by
  rw [Number.textOfNat, String.toList_ofList]
  exact fun hmem => absurd (Number.isDigit_of_mem_decimal hmem) (by decide)

theorem Number.textOfNat_inj {m n : Nat} : Number.textOfNat m = Number.textOfNat n ↔ m = n := by
  constructor
  · intro h
    have hdigits : Number.decimal m = Number.decimal n := String.ofList_injective h
    rw [← Number.ofDigits_decimal m, hdigits, Number.ofDigits_decimal]
  · exact congrArg _

theorem RecordKind.name_inj {k l : RecordKind} : k.name = l.name ↔ k = l := by
  cases k <;> cases l <;> decide

theorem FilePatch.kindName_eq_iff {p q : FilePatch} : p.kindName = q.kindName ↔
    p.kind = q.kind := by
  unfold FilePatch.kindName
  cases p.kind <;> cases q.kind <;> decide

end Fields

namespace EditKind

theorem target_eq_iff (kind : EditKind) {a b : kind.Edit} (ha : kind.Separable a)
    (hb : kind.Separable b) :
    HasTarget.target a = HasTarget.target b ↔ kind.SameTarget a b := by
  cases kind with
  | ini => exact fields_eq_iff (separator_notMem_lower ha) (separator_notMem_lower hb)
  | shader =>
    refine (fields_eq_iff (separator_notMem_textOfNat _) (separator_notMem_textOfNat _)).trans
      (and_congr_left' ?_)
    rw [Number.textOfNat_inj, UInt8.toNat_inj]
  | record =>
    have htarget : ∀ e : RecordEdit, HasTarget.target e =
        lower e.plugin.name ++ targetSeparator ++
            (e.kind.name ++ targetSeparator ++ lower e.editorId) :=
      fun e => by simp only [HasTarget.target, String.append_assoc]
    have hkind : ∀ k : RecordKind, '\x1f' ∉ k.name.toList := fun k => by cases k <;> decide
    refine (Eq.congr (htarget a) (htarget b)).trans ?_
    rw [fields_eq_iff (separator_notMem_lower ha) (separator_notMem_lower hb),
      fields_eq_iff (hkind _) (hkind _), RecordKind.name_inj]
    rfl
  | value =>
    refine (fields_eq_iff (separator_notMem_lower ha) (separator_notMem_lower hb)).trans
      (and_congr_right' ?_)
    rw [Number.textOfNat_inj, UInt64.toNat_inj]
  | xml =>
    refine (fields_eq_iff (separator_notMem_lower ha) (separator_notMem_lower hb)).trans
      (and_congr_right' ?_)
    cases a.change with
    | line m _ =>
      cases b.change with
      | line n _ =>
        exact (String.append_right_inj _).trans (Number.textOfNat_inj.trans UInt64.toNat_inj)
      | replace find _ => simp [XmlChange.SamePlace, ← String.toList_inj]
    | replace find _ =>
      cases b.change with
      | line n _ => simp [XmlChange.SamePlace, ← String.toList_inj]
      | replace other _ => exact String.append_right_inj _
  | patch =>
    have hkind : ∀ p : FilePatch, '\x1f' ∉ p.kindName.toList := fun p => by
      rw [FilePatch.kindName]
      cases p.kind <;> decide
    refine (fields_eq_iff (hkind a) (hkind b)).trans (and_congr_left' ?_)
    rw [FilePatch.kindName_eq_iff]

/-- Merging edits of a kind one after the other, into none, lists the last one of each target in the
    order in which the targets were merged first, and an edit replaces another one exactly if its
    target was merged before. -/
theorem lastWrites_and_replaces_iff (kind : EditKind) (edits : List kind.Edit)
    (h : ∀ e ∈ edits, kind.Separable e) :
    LastWrites kind.SameTarget edits (EditSet.mergeAll edits).values ∧
      ∀ before e after, edits = before ++ e :: after →
        (EditSet.replaces (EditSet.mergeAll before) e = true ↔
        ∃ earlier ∈ before, kind.SameTarget earlier e) := by
  refine ⟨(EditSet.lastWrites_mergeAll edits).congr fun a ha b hb =>
    kind.target_eq_iff (h a ha) (h b hb), ?_⟩
  rintro before e after rfl
  have he : kind.Separable e := h e (by simp)
  rw [EditSet.replaces_mergeAll_iff]
  refine exists_congr fun earlier => and_congr_right fun hearlier => ?_
  exact kind.target_eq_iff (h earlier (by simp [hearlier])) he

/-- A setting that is edited again under another spelling keeps its place in front of the one that
    was edited in between. -/
theorem lastWrites_of_respelled_setting :
    LastWrites ini.SameTarget
        [⟨"General", "bBorderRegionsEnabled", "0"⟩, ⟨"Display", "iSize W", "1920"⟩,
          ⟨"general", "bborderregionsenabled", "1"⟩]
        [⟨"general", "bborderregionsenabled", "1"⟩, ⟨"Display", "iSize W", "1920"⟩] ∧
      EditSet.replaces
        (EditSet.mergeAll [⟨"General", "bBorderRegionsEnabled", "0"⟩,
          ⟨"Display", "iSize W", "1920"⟩])
        (⟨"general", "bborderregionsenabled", "1"⟩ : IniEdit) = true := by
  obtain ⟨hlast, hreplaces⟩ := lastWrites_and_replaces_iff .ini
    [⟨"General", "bBorderRegionsEnabled", "0"⟩, ⟨"Display", "iSize W", "1920"⟩,
      ⟨"general", "bborderregionsenabled", "1"⟩] (by simp [Separable])
  have hsame : ini.SameTarget ⟨"General", "bBorderRegionsEnabled", "0"⟩ ⟨"general",
      "bborderregionsenabled", "1"⟩ := by
    constructor <;> decide +kernel
  refine ⟨?_, (hreplaces [_, _] _ [] rfl).mpr ⟨_, List.mem_cons_self, hsame⟩⟩
  have hvalues : (EditSet.mergeAll
      [⟨"General", "bBorderRegionsEnabled", "0"⟩, ⟨"Display", "iSize W", "1920"⟩,
        (⟨"general", "bborderregionsenabled", "1"⟩ : IniEdit)]).values =
      [⟨"general", "bborderregionsenabled", "1"⟩, ⟨"Display", "iSize W", "1920"⟩] := by
        decide +kernel
  rwa [← hvalues]

end EditKind

end InstallScript
