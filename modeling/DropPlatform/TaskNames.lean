import DropPlatform.TaskReads

/-! The name of a task that `NLChat` creates: the message cut to 100 bytes. A Go string is
any sequence of bytes; the `String`s are those that are valid UTF-8. -/

namespace DropPlatform.TaskNames

/-- `truncate`; a slice of negative length panics. -/
def truncate (s : ByteArray) (maxLen : Int) : Option ByteArray :=
  if s.size ≤ maxLen then some s
  else if 0 ≤ maxLen then some (s.extract 0 maxLen.toNat)
  else none

def nlTaskName (message : ByteArray) : Option ByteArray :=
  (truncate message 100).map ("NL: ".toByteArray ++ ·)

/-- Some of the first characters take up `n` bytes. -/
def Boundary (s : String) (n : Nat) : Prop :=
  ∃ i, (String.ofList (s.toList.take i)).utf8ByteSize = n

theorem extract_valid_iff {s : String} {n : Nat} (inside : n ≤ s.utf8ByteSize) :
    (s.toByteArray.extract 0 n).IsValidUTF8 ↔ Boundary s n := by
  have position : String.Pos.Raw.IsValid s ⟨n⟩ ↔ (s.toByteArray.extract 0 n).IsValidUTF8 := by
    rw [String.Pos.Raw.isValid_iff_isValidUTF8_extract_zero]
    exact and_iff_right inside
  rw [← position, String.Pos.Raw.isValid_iff_exists_take_toList]
  exact exists_congr fun i => eq_comm

theorem append_valid_iff (front : String) (rest : ByteArray) :
    (front.toByteArray ++ rest).IsValidUTF8 ↔ rest.IsValidUTF8 := by
  constructor
  · intro valid
    let whole := String.ofByteArray (front.toByteArray ++ rest) valid
    have size : whole.utf8ByteSize = front.toByteArray.size + rest.size := ByteArray.size_append
    have split : String.Pos.Raw.IsValid whole ⟨front.toByteArray.size⟩ := by
      refine String.Pos.Raw.isValid_iff_isValidUTF8_extract_zero.mpr ⟨?_, ?_⟩
      · change front.toByteArray.size ≤ whole.utf8ByteSize
        omega
      · change ((front.toByteArray ++ rest).extract 0 front.toByteArray.size).IsValidUTF8
        rw [ByteArray.extract_append_eq_left rfl]
        exact front.isValidUTF8
    have behind := split.isValidUTF8_extract_utf8ByteSize
    rw [size] at behind
    change ((front.toByteArray ++ rest).extract _ _).IsValidUTF8 at behind
    rwa [ByteArray.extract_append_eq_right rfl rfl] at behind
  · exact front.isValidUTF8.append

theorem truncate_string (s : String) {maxLen : Int} (front : 0 ≤ maxLen) :
    ∃ t rest, truncate s.toByteArray maxLen = some t ∧ s.toByteArray = t ++ rest ∧
      t.size ≤ maxLen ∧
      (t.IsValidUTF8 ↔ s.utf8ByteSize ≤ maxLen ∨ Boundary s maxLen.toNat) := by
  by_cases short : s.toByteArray.size ≤ maxLen
  · refine ⟨s.toByteArray, .empty, if_pos short, ByteArray.append_empty.symm, short, ?_⟩
    exact iff_of_true s.isValidUTF8 (.inl short)
  · have inside : maxLen.toNat ≤ s.toByteArray.size := by omega
    refine ⟨s.toByteArray.extract 0 maxLen.toNat, s.toByteArray.extract maxLen.toNat
      s.toByteArray.size, ?_, ?_, ?_, ?_⟩
    · rw [truncate, if_neg short, if_pos front]
    · rw [ByteArray.extract_append_extract, Nat.zero_min, max_eq_right inside,
        ByteArray.extract_zero_size]
    · rw [ByteArray.size_extract]
      omega
    · rw [extract_valid_iff inside]
      exact (or_iff_right short).symm

theorem nlTaskName_string (message : String) :
    ∃ name, nlTaskName message.toByteArray = some name ∧
      (name.IsValidUTF8 ↔ message.utf8ByteSize ≤ 100 ∨ Boundary message 100) := by
  obtain ⟨t, _, cut, _, _, valid⟩ := truncate_string message (by decide : (0 : Int) ≤ 100)
  refine ⟨"NL: ".toByteArray ++ t, ?_, ?_⟩
  · rw [nlTaskName, cut]
    rfl
  · rw [append_valid_iff, valid]
    exact or_congr_left Int.ofNat_le

theorem truncate_valid_iff (s : String) (maxLen : Int) (front : 0 ≤ maxLen) :
    (∃ t rest, truncate s.toByteArray maxLen = some t ∧ s.toByteArray = t ++ rest ∧
      t.size ≤ maxLen ∧
      (t.IsValidUTF8 ↔ s.utf8ByteSize ≤ maxLen ∨ Boundary s maxLen.toNat)) ∧
    (TaskReads.validMessage s →
      ∃ name, nlTaskName s.toByteArray = some name ∧
        (name.IsValidUTF8 ↔ s.utf8ByteSize ≤ 100 ∨ Boundary s 100)) :=
  ⟨truncate_string s front, fun _ => nlTaskName_string s⟩

theorem truncate_valid_iff_ascii : (0 : Int) ≤ 2 ∧ TaskReads.validMessage "top" ∧
    (∃ t rest, truncate "top".toByteArray 2 = some t ∧ "top".toByteArray = t ++ rest ∧
      t.size ≤ (2 : Int) ∧ (t.IsValidUTF8 ↔ "top".utf8ByteSize ≤ (2 : Int) ∨ Boundary "top" 2)) ∧
    ∃ name, nlTaskName "top".toByteArray = some name ∧
      (name.IsValidUTF8 ↔ "top".utf8ByteSize ≤ 100 ∨ Boundary "top" 100) := by
  obtain ⟨cut, named⟩ := truncate_valid_iff "top" 2 (by decide)
  exact ⟨by decide, by decide, cut, named (by decide)⟩

theorem utf8ByteSize_replicate (n : Nat) (c : Char) :
    (String.ofList (List.replicate n c)).utf8ByteSize = n * c.utf8Size := by
  induction n with
  | zero => simp
  | succ n ih =>
    rw [List.replicate_succ, String.ofList_cons, String.utf8ByteSize_append,
      String.utf8ByteSize_singleton, ih]
    ring

theorem not_boundary_replicate (n : Nat) :
    ¬ Boundary (String.ofList (List.replicate n '采')) 100 := by
  rintro ⟨i, size⟩
  have three : Char.utf8Size '采' = 3 := rfl
  rw [String.toList_ofList, List.take_replicate, utf8ByteSize_replicate, three] at size
  omega

def chineseMessage : String := String.ofList (List.replicate 34 '采')

theorem chineseMessage_name_invalid : TaskReads.validMessage chineseMessage ∧
    ∃ name, nlTaskName chineseMessage.toByteArray = some name ∧ ¬ name.IsValidUTF8 := by
  have size : chineseMessage.utf8ByteSize = 102 := utf8ByteSize_replicate 34 '采'
  obtain ⟨name, made, valid⟩ := nlTaskName_string chineseMessage
  refine ⟨?_, name, made, ?_⟩
  · rw [TaskReads.validMessage, size]
    rfl
  · rw [valid, size]
    rintro (short | boundary)
    · omega
    · exact not_boundary_replicate 34 boundary

end DropPlatform.TaskNames
