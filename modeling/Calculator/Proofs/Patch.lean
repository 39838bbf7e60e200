import Calculator.Content

/-!
# Writes past the end

A write may start past the end of what is stored. The gap before it becomes zeros, and a write of
nothing leaves no gap. `Bytes.patch` is this write on plain byte strings; contents of files and blocks
follow it.
-/

namespace Calculator

namespace Bytes

def padTo (bytes : Bytes) (length : Nat) : Bytes :=
  bytes ++ zeros (length - bytes.length)

def patch (bytes : Bytes) (start : Nat) (written : Bytes) : Bytes :=
  if written.isEmpty then bytes else (bytes.padTo start).overwrite start written

theorem padTo_length (bytes : Bytes) (length : Nat) :
    (bytes.padTo length).length = max bytes.length length := by
  simp only [padTo, List.length_append, zeros_length]
  omega

theorem padTo_of_le {bytes : Bytes} {length : Nat} (enough : length ≤ bytes.length) :
    bytes.padTo length = bytes := by
  rw [padTo, show length - bytes.length = 0 by omega]
  simp [zeros]

@[simp]
theorem patch_nil (bytes : Bytes) (start : Nat) : bytes.patch start [] = bytes := rfl

theorem patch_of_ne_nil (bytes : Bytes) (start : Nat) {written : Bytes} (nonempty : written ≠ []) :
    bytes.patch start written = (bytes.padTo start).overwrite start written := by
  rw [patch, if_neg (by simpa using nonempty)]

theorem patch_parts (bytes : Bytes) (start : Nat) {written : Bytes} (nonempty : written ≠ []) :
    bytes.patch start written
      = (bytes.padTo start).take start ++ written ++ bytes.drop (start + written.length) := by
  rw [patch_of_ne_nil bytes start nonempty, overwrite, padTo, List.drop_append]
  have gap : (zeros (start - bytes.length)).drop (start + written.length - bytes.length) = [] := by
    apply List.drop_eq_nil_of_le
    rw [zeros_length]
    omega
  rw [gap, List.append_nil]

theorem patch_end (content written : Bytes) :
    content.patch content.length written = content ++ written := by
  by_cases nothing : written = []
  · rw [nothing, patch_nil, List.append_nil]
  · rw [patch_parts content _ nothing, padTo_of_le (Nat.le_refl _), List.take_length,
      List.drop_eq_nil_of_le (Nat.le_add_right _ _), List.append_nil]

theorem take_padTo_length (bytes : Bytes) (start : Nat) :
    ((bytes.padTo start).take start).length = start := by
  rw [List.length_take, padTo_length]
  omega

theorem patch_length (bytes : Bytes) (start : Nat) {written : Bytes} (nonempty : written ≠ []) :
    (bytes.patch start written).length = max bytes.length (start + written.length) := by
  rw [patch_parts bytes start nonempty, List.length_append, List.length_append, take_padTo_length,
    List.length_drop]
  omega

/-- A write puts its bytes at their place, zeros into a gap before them, and keeps all others. -/
theorem patch_getD (content : Bytes) (start : Nat) (written : Bytes) (index : Nat) :
    (content.patch start written).getD index 0
      = if start ≤ index ∧ index < start + written.length then written.getD (index - start) 0
        else content.getD index 0 := by
  by_cases nothing : written = []
  · rw [nothing, patch_nil, if_neg (by simp)]
  · have length := take_padTo_length content start
    simp only [List.getD_eq_getElem?_getD]
    rw [patch_parts _ _ nothing, List.append_assoc]
    by_cases early : index < start
    · rw [List.getElem?_append_left (by omega), if_neg (by omega), List.getElem?_take_of_lt early, padTo]
      by_cases inside : index < content.length
      · rw [List.getElem?_append_left inside]
      · rw [List.getElem?_append_right (by omega), List.getElem?_eq_none (Nat.not_lt.mp inside),
          zeros, List.getElem?_replicate]
        split <;> rfl
    · rw [List.getElem?_append_right (by omega), length]
      by_cases within : index < start + written.length
      · rw [if_pos (by omega), List.getElem?_append_left (by omega)]
      · rw [if_neg (by omega), List.getElem?_append_right (by omega), List.getElem?_drop]
        congr 2
        omega

theorem take_drop_patch (content : Bytes) (start : Nat) {written : Bytes} (nonempty : written ≠ []) :
    ((content.patch start written).drop start).take written.length = written := by
  have length := take_padTo_length content start
  rw [patch_parts _ _ nonempty, List.append_assoc, List.drop_left' length, List.take_left]

theorem patch_append (bytes : Bytes) (start : Nat) (first second : Bytes) :
    (bytes.patch start first).patch (start + first.length) second
      = bytes.patch start (first ++ second) := by
  by_cases noFirst : first = []
  · subst noFirst
    simp
  by_cases noSecond : second = []
  · subst noSecond
    simp
  have both : first ++ second ≠ [] := by simp [noFirst]
  have length := patch_length bytes start noFirst
  have place : ((bytes.padTo start).take start ++ first).length = start + first.length := by
    rw [List.length_append, take_padTo_length]
  rw [patch_parts _ _ noSecond, padTo_of_le (by omega), patch_parts bytes start noFirst,
    patch_parts bytes start both, List.take_append_of_le_length (by omega),
    List.take_of_length_le (by omega), List.drop_append, place,
    List.drop_eq_nil_of_le (by omega), List.nil_append, List.drop_drop, List.length_append]
  simp only [List.append_assoc]
  congr 4
  omega

end Bytes

theorem Content.toBytes_write_eq_patch (content : Content) (start : Nat) (bytes : Bytes) :
    (content.write start bytes).toBytes = content.toBytes.patch start bytes := by
  by_cases empty : bytes = []
  · subst empty
    rfl
  · rw [Bytes.patch_parts _ _ empty, write, if_neg (by simpa using empty), toBytes,
      List.flatMap_append, List.flatMap_cons, flatMap_dropExtents, ← toBytes, ← toBytes,
      toBytes_resize, Bytes.padTo, List.take_append]
    have gap : (Bytes.zeros (start - content.toBytes.length)).take
        (start - content.toBytes.length) = Bytes.zeros (start - content.toBytes.length) := by
      exact List.take_of_length_le (Nat.le_of_eq (Bytes.zeros_length _))
    rw [gap]
    simp [Extent.toBytes]

end Calculator
