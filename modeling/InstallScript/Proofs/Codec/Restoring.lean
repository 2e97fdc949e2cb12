import InstallScript.Codec.Format
import Mathlib.Algebra.Group.Nat.Defs

/-!
Reading back what was written. A format restores a value if its reader takes that value from the
front of what its writer wrote, whatever follows. Words do so if the number fits, and texts, lists,
maps and sets if their lengths do.
-/

namespace InstallScript

section Collections

variable {α : Type}

theorem OrderedMap.put_of_not_mem {key : String} {value : α} {entries : List (String × α)}
    (h : key ∉ entries.map Prod.fst) : put key value entries = entries ++ [(key, value)] := by
  induction entries with
  | nil => rfl
  | cons first rest ih =>
    simp only [List.map_cons, List.mem_cons, not_or] at h
    rw [put, if_neg (Ne.symm h.1), ih h.2, List.cons_append]

theorem OrderedMap.entries_foldl_insert (entries : List (String × α)) (m : OrderedMap α)
    (h : ((m.entries ++ entries).map Prod.fst).Nodup) :
    (entries.foldl (fun m (k, v) => m.insert k v) m).entries = m.entries ++ entries := by
  induction entries generalizing m with
  | nil => simp
  | cons first rest ih =>
    obtain ⟨key, value⟩ := first
    have hnew : key ∉ m.entries.map Prod.fst := by
      rw [List.map_append, List.nodup_append] at h
      exact fun hmem => h.2.2 key hmem key (by simp) rfl
    have hput : (m.insert key value).entries = m.entries ++ [(key, value)] := put_of_not_mem hnew
    rw [List.foldl_cons, ih _ (by simpa [hput] using h), hput, List.append_assoc,
      List.singleton_append]

/-- Adding the entries of a map to an empty one gives the map. -/
theorem OrderedMap.ofList_entries (m : OrderedMap α) : OrderedMap.ofList m.entries = m :=
  OrderedMap.ext (entries_foldl_insert m.entries .empty m.nodup)

theorem OrderedSet.names_foldl_insert (names : List String) (s : OrderedSet)
    (h : (s.names ++ names).Nodup) :
    (names.foldl insert s).names = s.names ++ names := by
  induction names generalizing s with
  | nil => simp
  | cons name rest ih =>
    have hnew : name ∉ s.names :=
      fun hmem => (List.nodup_append.mp h).2.2 name hmem name (by simp) rfl
    have hinsert : (s.insert name).names = s.names ++ [name] := by
      rw [insert, dif_neg hnew]
    rw [List.foldl_cons, ih _ (by simpa [hinsert] using h), hinsert, List.append_assoc,
      List.singleton_append]

/-- Adding the names of a set to an empty one gives the set. -/
theorem OrderedSet.ofList_names (s : OrderedSet) : OrderedSet.ofList s.names = s :=
  OrderedSet.ext (names_foldl_insert s.names .empty s.nodup)

end Collections

theorem Text.length_encodeUtf8 (s : String) : (encodeUtf8 s).length = s.utf8ByteSize := rfl

theorem Text.decodeUtf8_encodeUtf8 (s : String) : decodeUtf8 (encodeUtf8 s) = .ok s := by
  have hbytes : (⟨(encodeUtf8 s).toArray⟩ : ByteArray) = s.toByteArray := rfl
  rw [decodeUtf8, hbytes, String.fromUTF8?, dif_pos s.isValidUTF8]
  rfl

namespace Codec.Format

variable {α β : Type} {f : Format α} {g : Format β}

/-- Whether a format gives a value back from what it wrote for it, and leaves what follows. -/
def Restores (f : Format α) (a : α) : Prop :=
  ∀ rest, f.read (f.write a ++ rest) = .ok (a, rest)

theorem read_imap {forth : α → β} {back : β → α} {a : α} {bytes rest : List UInt8}
    (h : f.read bytes = .ok (a, rest)) :
    (f.imap forth back).read bytes = .ok (forth a, rest) := by
  change (f.read bytes >>= _) = _
  rw [h]
  rfl

theorem Restores.imap {forth : α → β} {back : β → α} {b : β} (h : f.Restores (back b))
    (hb : forth (back b) = b) :
    (f.imap forth back).Restores b := by
  intro rest
  have hread : (f.imap forth back).read (f.write (back b) ++ rest) = .ok (forth (back b), rest) :=
    read_imap (h rest)
  rw [hb] at hread
  exact hread

section Words

theorem length_littleEndian (width n : Nat) : (littleEndian width n).length = width := by
  induction width generalizing n with
  | zero => rfl
  | succ width ih => rw [littleEndian, List.length_cons, ih]

theorem ofLittleEndian_littleEndian {width n : Nat} (h : n < 256 ^ width) :
    ofLittleEndian (littleEndian width n) = n := by
  induction width generalizing n with
  | zero =>
    rw [Nat.pow_zero, Nat.lt_one_iff] at h
    rw [h]
    rfl
  | succ width ih =>
    have hrest : n / 256 < 256 ^ width :=
      Nat.div_lt_of_lt_mul (by rwa [Nat.pow_succ, Nat.mul_comm] at h)
    have hbyte : (UInt8.ofNat (n % 256)).toNat = n % 256 :=
      UInt8.toNat_ofNat_of_lt' (Nat.mod_lt n (by decide))
    rw [littleEndian, ofLittleEndian, ih hrest, hbyte, Nat.mod_add_div]

theorem restores_word {width n : Nat} (h : n < 256 ^ width) : (word width).Restores n := by
  intro rest
  have hlength := length_littleEndian width n
  simp only [word, List.length_append, hlength]
  rw [if_neg (by omega), List.take_left' hlength, List.drop_left' hlength,
    ofLittleEndian_littleEndian h]

theorem restores_u8 (v : UInt8) : u8.Restores v :=
  (restores_word v.toNat_lt).imap UInt8.ofNat_toNat

theorem restores_u32 (v : UInt32) : u32.Restores v :=
  (restores_word v.toNat_lt).imap UInt32.ofNat_toNat

theorem restores_u64 (v : UInt64) : u64.Restores v :=
  (restores_word v.toNat_lt).imap UInt64.ofNat_toNat

theorem restores_i16 (v : Int16) : i16.Restores v := by
  refine (restores_word v.toUInt16.toNat_lt).imap ?_
  apply Int16.toBitVec.inj
  simp

theorem restores_i32 (v : Int32) : i32.Restores v := by
  refine (restores_word v.toUInt32.toNat_lt).imap ?_
  apply Int32.toBitVec.inj
  simp

theorem restores_i64 (v : Int64) : i64.Restores v := by
  refine (restores_word v.toUInt64.toNat_lt).imap ?_
  apply Int64.toBitVec.inj
  simp

theorem restores_bool (b : Bool) : bool.Restores b := by
  intro rest
  cases b with
  | false => rfl
  | true => rfl

theorem restores_tag {count n : Nat} (h : n < count) (hcount : count ≤ 256 ^ 4) :
    (tag count).Restores n := by
  intro rest
  have hword := restores_word (Nat.lt_of_lt_of_le h hcount) rest
  change ((word 4).read ((word 4).write n ++ rest) >>= _) = _
  rw [hword]
  exact if_pos h

/-- What follows the number of an alternative is read once the number is known. -/
theorem read_tag_bind {count n : Nat} (h : n < count) (hcount : count ≤ 256 ^ 4)
    (bytes rest : List UInt8) (next : Nat × List UInt8 → Except Fault β) :
    ((tag count).read ((tag count).write n ++ bytes ++ rest) >>= next) =
      next (n, bytes ++ rest) := by
  rw [List.append_assoc, restores_tag h hcount]
  rfl

/-- Values that are listed come back by their position. -/
theorem restores_enum [DecidableEq α] [Inhabited α] {values : List α} {a : α} (h : a ∈ values)
    (hcount : values.length ≤ 256 ^ 4) : (enum values).Restores a := by
  have hlt : values.idxOf a < values.length := List.idxOf_lt_length_of_mem h
  unfold enum
  apply Restores.imap
  · exact restores_tag hlt hcount
  · rw [List.getD_eq_getElem?_getD, List.getElem?_eq_getElem hlt, List.getElem_idxOf,
      Option.getD_some]

end Words

section Lengths

/-- What precedes everything with a length: the length in eight bytes. -/
theorem restores_length {n : Nat} (h : n < 2 ^ 64) : (word 8).Restores n :=
  restores_word h

theorem restores_text {s : String} (h : s.utf8ByteSize < 2 ^ 64) : text.Restores s := by
  intro rest
  have hlength : (Text.encodeUtf8 s).length = s.utf8ByteSize := Text.length_encodeUtf8 s
  have hword := restores_length h (Text.encodeUtf8 s ++ rest)
  rw [← hlength, ← List.append_assoc] at hword
  change
    ((word 8).read ((word 8).write (Text.encodeUtf8 s).length ++ Text.encodeUtf8 s ++ rest) >>= _) = _
  rw [hword]
  change (if (Text.encodeUtf8 s ++ rest).length < (Text.encodeUtf8 s).length then _ else _) = _
  rw [if_neg (by simp), List.take_left, List.drop_left, Text.decodeUtf8_encodeUtf8]

theorem restores_option {o : Option α} (h : ∀ a ∈ o, f.Restores a) :
    (option f).Restores o := by
  intro rest
  cases o with
  | none => rfl
  | some a =>
    change (f.read (f.write a ++ rest) >>= _) = _
    rw [h a rfl rest]
    rfl

theorem restores_pair {a : α} {b : β} (ha : f.Restores a) (hb : g.Restores b) :
    (pair f g).Restores (a, b) := by
  intro rest
  change (f.read (f.write a ++ g.write b ++ rest) >>= _) = _
  rw [List.append_assoc, ha]
  change (g.read (g.write b ++ rest) >>= _) = _
  rw [hb]
  rfl

theorem readMany_flatMap {as : List α} (h : ∀ a ∈ as, f.Restores a) (rest : List UInt8) :
    readMany f as.length (as.flatMap f.write ++ rest) = .ok (as, rest) := by
  induction as with
  | nil => rfl
  | cons a as ih =>
    obtain ⟨ha, has⟩ := List.forall_mem_cons.mp h
    rw [List.flatMap_cons, List.append_assoc, List.length_cons, readMany, ha]
    change (readMany f as.length (as.flatMap f.write ++ rest) >>= _) = _
    rw [ih has]
    rfl

theorem restores_list {as : List α} (hlength : as.length < 2 ^ 64)
    (h : ∀ a ∈ as, f.Restores a) :
    (list f).Restores as := by
  intro rest
  change ((word 8).read ((word 8).write as.length ++ as.flatMap f.write ++ rest) >>= _) = _
  rw [List.append_assoc, restores_length hlength]
  exact readMany_flatMap h rest

end Lengths

end Codec.Format

end InstallScript
