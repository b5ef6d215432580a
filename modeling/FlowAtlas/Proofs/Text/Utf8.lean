import FlowAtlas.Text.Utf8
import Mathlib.Data.List.Basic
/-! Reading the bytes of a text gives the text. -/
namespace FlowAtlas.Text.Utf8

theorem byteValue {n : Nat} (small : n < 256) : (UInt8.ofNat n).toNat = n := by
  rw [UInt8.toNat_ofNat', Nat.mod_eq_of_lt small]

section

variable (done : List Char) (pos : Nat) {b : Nat} (o : Open) {low high : Nat} {more : List (Nat × Nat)}
  (rest : List UInt8)

theorem readSingle (small : b < 0x80) :
    decodeFrom done pos none (UInt8.ofNat b :: rest) = decodeFrom (Char.ofNat b :: done) (pos + 1) none rest := by
  simp [decodeFrom, byteValue (show b < 256 by omega), leading, small]

theorem readLeading {value : Nat} (byte : b < 256) (leads : leading b = some (value, (low, high) :: more)) :
    decodeFrom done pos none (UInt8.ofNat b :: rest) =
      decodeFrom done (pos + 1) (some ⟨pos, UInt8.ofNat b, value, (low, high) :: more⟩) rest := by
  simp [decodeFrom, byteValue byte, leads]

theorem readNext (owed : o.owed = (low, high) :: more) (some : more ≠ []) (byte : b < 64)
    (within : low ≤ 0x80 + b ∧ 0x80 + b ≤ high) :
    decodeFrom done pos (.some o) (UInt8.ofNat (0x80 + b) :: rest) =
      decodeFrom done (pos + 1) (.some { o with value := o.value * 64 + b, owed := more }) rest := by
  rw [decodeFrom]
  simp only [owed, byteValue (show 0x80 + b < 256 by omega)]
  rw [if_pos within, Nat.add_sub_cancel_left, if_neg (mt List.isEmpty_iff.mp some)]

theorem readLast (owed : o.owed = [(low, high)]) (byte : b < 64) (within : low ≤ 0x80 + b ∧ 0x80 + b ≤ high) :
    decodeFrom done pos (.some o) (UInt8.ofNat (0x80 + b) :: rest) =
      decodeFrom (Char.ofNat (o.value * 64 + b) :: done) (pos + 1) none rest := by
  rw [decodeFrom]
  simp only [owed, byteValue (show 0x80 + b < 256 by omega)]
  rw [if_pos within, Nat.add_sub_cancel_left]
  rfl

end

def Leads (first value second : Nat) (more : List (Nat × Nat)) : Prop :=
  ∃ low high, leading first = some (value, (low, high) :: more) ∧ low ≤ second ∧ second ≤ high

theorem leadingTwo {n : Nat} (above : 0x80 ≤ n) (below : n < 0x800) :
    Leads (0xC0 + n / 64) (n / 64) (0x80 + n % 64) [] := by
  refine ⟨0x80, 0xBF, ?_, by omega, by omega⟩
  rw [leading, if_neg (by omega), if_neg (by omega), if_pos (by omega), Nat.add_sub_cancel_left]

theorem leadingThree {n : Nat} (above : 0x800 ≤ n) (below : n < 0x10000) (scalar : n < 0xD800 ∨ 0xDFFF < n) :
    Leads (0xE0 + n / 4096) (n / 4096) (0x80 + n / 64 % 64) [(0x80, 0xBF)] := by
  by_cases first : n / 4096 = 0
  · exact ⟨0xA0, 0xBF, by simp [leading, first], by omega, by omega⟩
  · by_cases surrogate : n / 4096 = 0xD
    · exact ⟨0x80, 0x9F, by simp [leading, surrogate], by omega, by omega⟩
    · refine ⟨0x80, 0xBF, ?_, by omega, by omega⟩
      rw [leading, if_neg (by omega), if_neg (by omega), if_neg (by omega), if_neg (by omega), if_neg (by omega),
        if_pos (by omega), Nat.add_sub_cancel_left]

theorem leadingFour {n : Nat} (above : 0x10000 ≤ n) (below : n < 0x110000) :
    Leads (0xF0 + n / 262144) (n / 262144) (0x80 + n / 4096 % 64) [(0x80, 0xBF), (0x80, 0xBF)] := by
  by_cases first : n / 262144 = 0
  · exact ⟨0x90, 0xBF, by simp [leading, first], by omega, by omega⟩
  · by_cases last : n / 262144 = 4
    · exact ⟨0x80, 0x8F, by simp [leading, last], by omega, by omega⟩
    · refine ⟨0x80, 0xBF, ?_, by omega, by omega⟩
      rw [leading, if_neg (by omega), if_neg (by omega), if_neg (by omega), if_neg (by omega), if_neg (by omega),
        if_neg (by omega), if_neg (by omega), if_pos (by omega), Nat.add_sub_cancel_left]

theorem charBounds (c : Char) : c.toNat < 0x110000 ∧ (c.toNat < 0xD800 ∨ 0xDFFF < c.toNat) := by
  have valid := c.valid
  simp only [UInt32.isValidChar, Nat.isValidChar] at valid
  change c.toNat < _ ∨ _ < c.toNat ∧ c.toNat < _ at valid
  omega

theorem readChar (done : List Char) (pos : Nat) (c : Char) (rest : List UInt8) :
    ∃ after, decodeFrom done pos none ((encodeChar c).map UInt8.ofNat ++ rest) =
      decodeFrom (c :: done) after none rest := by
  obtain ⟨below, scalar⟩ := charBounds c
  have whole : ∀ {value : Nat}, value = c.toNat → Char.ofNat value = c := by
    rintro _ rfl
    exact Char.ofNat_toNat c
  simp only [encodeChar]
  generalize c.toNat = n at below scalar whole
  split
  · rename_i small
    exact ⟨pos + 1, by rw [List.map_singleton, List.singleton_append, readSingle done pos rest small, whole rfl]⟩
  split
  · rename_i above small
    obtain ⟨low, high, leads, within⟩ := leadingTwo (Nat.le_of_not_lt above) small
    refine ⟨pos + 1 + 1, ?_⟩
    simp only [List.map_cons, List.map_nil, List.cons_append, List.nil_append]
    rw [readLeading done pos _ (by omega) leads, readLast done _ _ rest rfl (by omega) within, whole]
    dsimp only
    omega
  split
  · rename_i above small
    obtain ⟨low, high, leads, within⟩ := leadingThree (Nat.le_of_not_lt above) small scalar
    refine ⟨pos + 1 + 1 + 1, ?_⟩
    simp only [List.map_cons, List.map_nil, List.cons_append, List.nil_append]
    rw [readLeading done pos _ (by omega) leads, readNext done _ _ _ rfl (by simp) (by omega) within,
      readLast done _ _ rest rfl (by omega) (by omega), whole]
    dsimp only
    omega
  · rename_i above
    obtain ⟨low, high, leads, within⟩ := leadingFour (Nat.le_of_not_lt above) below
    refine ⟨pos + 1 + 1 + 1 + 1, ?_⟩
    simp only [List.map_cons, List.map_nil, List.cons_append, List.nil_append]
    rw [readLeading done pos _ (by omega) leads, readNext done _ _ _ rfl (by simp) (by omega) within,
      readNext done _ _ _ rfl (by simp) (by omega) (by omega), readLast done _ _ rest rfl (by omega) (by omega), whole]
    dsimp only
    omega

theorem readChars (done : List Char) (pos : Nat) (s : List Char) :
    decodeFrom done pos none ((s.flatMap encodeChar).map UInt8.ofNat) = .ok (done.reverse ++ s) := by
  induction s generalizing done pos with
  | nil => simp [decodeFrom]
  | cons c s ih =>
    rw [List.flatMap_cons, List.map_append]
    obtain ⟨after, read⟩ := readChar done pos c ((s.flatMap encodeChar).map UInt8.ofNat)
    rw [read, ih, List.reverse_cons, List.append_assoc, List.singleton_append]

theorem decodeEncoded (s : String) : decode (encode s) = .ok s := by
  rw [decode, encode, readChars]
  simp [Except.map]

theorem unifyPlain {s : List Char} (plain : '\r' ∉ s) : unifyLineEnds s = s := by
  induction s with
  | nil => rfl
  | cons c s ih =>
    obtain ⟨apart, plain⟩ := not_or.mp (mt List.mem_cons.mpr plain)
    rw [unifyLineEnds, ih plain]
    · rintro _ rfl
      exact absurd rfl apart
    · rintro rfl
      exact absurd rfl apart

theorem readWritten {s : String} (plain : '\r' ∉ s.toList) : readText (encode s) = .ok s := by
  rw [readText, decodeEncoded, Except.map, unifyPlain plain, String.ofList_toList]

end FlowAtlas.Text.Utf8
