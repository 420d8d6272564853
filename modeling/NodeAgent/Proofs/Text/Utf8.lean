import NodeAgent.Text.Utf8
import Mathlib.Tactic.SplitIfs

/-!
# Texts that are written as bytes are read again

A character is one to four bytes, and the first of them tells how many. What follows it is checked:
of the values that the second byte may have, some would write a character in more bytes than it
needs, and others a number that is no character. A character that is written is none of these, so
it passes every check (`decodeOne_encodeChar`), and a whole text is read by as many steps as it has
characters, of which there are no more than bytes.

## Main statements

* `decode_encode`: the text of the bytes of a text is the text.
-/

namespace NodeAgent.Text.Utf8

theorem toList_loop (bs : ByteArray) (i : Nat) (r : List UInt8) :
    ByteArray.toList.loop bs i r = r.reverse ++ bs.data.toList.drop i := by
  induction i, r using ByteArray.toList.loop.induct bs with
  | case1 i r hlt ih =>
    have hi : i < bs.data.toList.length := by simpa using hlt
    have hget : bs.get! i = bs.data.toList[i] := by
      rw [ByteArray.get!, getElem!_pos bs.data i (by simpa using hlt), Array.getElem_toList]
    rw [ByteArray.toList.loop, if_pos hlt, ih, List.drop_eq_getElem_cons hi, hget,
      List.reverse_cons, List.append_assoc]
    rfl
  | case2 i r hge =>
    have hle : bs.data.toList.length ≤ i := by simpa using hge
    rw [ByteArray.toList.loop, if_neg hge, List.drop_eq_nil_of_le hle, List.append_nil]

/-- The bytes of a text are those of its characters. -/
theorem encode_eq_flatMap (s : String) : encode s = s.toList.flatMap String.utf8EncodeChar := by
  have hbytes : s.toUTF8 = (s.toList.flatMap String.utf8EncodeChar).toByteArray :=
    String.utf8Encode_toList.symm
  rw [encode, hbytes, ByteArray.toList, toList_loop, List.toList_data_toByteArray]
  rfl

theorem isContinuation_add (n : Nat) : isContinuation (n % 64 + 128) = true := by
  simp only [isContinuation, Bool.and_eq_true, decide_eq_true_eq]
  omega

/-! ## One character

The first byte of a character of more than one byte leaves a range to the second byte. It has to be
shown that the second byte is in it: it is so because the number is too great for fewer bytes, and
is the number of a character. -/

section

variable {v : Nat} (i : Nat) (rest : List Nat)

theorem decodeOne_one (h : v < 128) :
    decodeOne i (v :: rest) = .ok (some (Char.ofNat v, 1, rest)) := by
  rw [decodeOne, if_pos h]

theorem decodeOne_two (h1 : 128 ≤ v) (h2 : v < 2048) :
    decodeOne i ((v / 64 % 32 + 192) :: (v % 64 + 128) :: rest) =
      .ok (some (Char.ofNat v, 2, rest)) := by
  have hshape : shape? (v / 64 % 32 + 192) = some (128, 191, 2) := by
    rw [shape?, if_neg (by omega), if_pos (by omega)]
  have hacc : (v / 64 % 32 + 192) % 32 * 64 + (v % 64 + 128) % 64 = v := by omega
  rw [decodeOne, if_neg (by omega)]
  simp only [hshape]
  rw [if_pos (by omega)]
  change Except.ok (some (Char.ofNat ((v / 64 % 32 + 192) % 32 * 64 + (v % 64 + 128) % 64), _)) = _
  rw [hacc]

theorem decodeOne_three (h2 : 2048 ≤ v) (h3 : v < 65536) (hvalid : v < 0xd800 ∨ 0xdfff < v) :
    decodeOne i ((v / 4096 % 16 + 224) :: (v / 64 % 64 + 128) :: (v % 64 + 128) :: rest) =
      .ok (some (Char.ofNat v, 3, rest)) := by
  obtain ⟨low, high, hshape, hlow, hhigh⟩ : ∃ low high,
      shape? (v / 4096 % 16 + 224) = some (low, high, 3) ∧
        low ≤ v / 64 % 64 + 128 ∧ v / 64 % 64 + 128 ≤ high := by
    unfold shape?
    rw [if_neg (by omega), if_neg (by omega)]
    split
    · exact ⟨160, 191, rfl, by omega, by omega⟩
    · split
      · exact ⟨128, 159, rfl, by omega, by omega⟩
      · rw [if_pos (by omega)]
        exact ⟨128, 191, rfl, by omega, by omega⟩
  have hacc : ((v / 4096 % 16 + 224) % 16 * 64 + (v / 64 % 64 + 128) % 64) * 64 +
      (v % 64 + 128) % 64 = v := by
    omega
  rw [decodeOne, if_neg (by omega)]
  simp only [hshape]
  rw [if_pos ⟨hlow, hhigh⟩]
  simp only [continuation, isContinuation_add, if_true]
  change Except.ok (some (Char.ofNat
    (((v / 4096 % 16 + 224) % 16 * 64 + (v / 64 % 64 + 128) % 64) * 64 +
      (v % 64 + 128) % 64), _)) = _
  rw [hacc]

theorem decodeOne_four (h3 : 65536 ≤ v) (hvalid : v < 0x110000) :
    decodeOne i ((v / 262144 % 8 + 240) :: (v / 4096 % 64 + 128) :: (v / 64 % 64 + 128) ::
      (v % 64 + 128) :: rest) = .ok (some (Char.ofNat v, 4, rest)) := by
  obtain ⟨low, high, hshape, hlow, hhigh⟩ : ∃ low high,
      shape? (v / 262144 % 8 + 240) = some (low, high, 4) ∧
        low ≤ v / 4096 % 64 + 128 ∧ v / 4096 % 64 + 128 ≤ high := by
    unfold shape?
    rw [if_neg (by omega), if_neg (by omega), if_neg (by omega), if_neg (by omega),
      if_neg (by omega)]
    split
    · exact ⟨144, 191, rfl, by omega, by omega⟩
    · split
      · exact ⟨128, 191, rfl, by omega, by omega⟩
      · rw [if_pos (by omega)]
        exact ⟨128, 143, rfl, by omega, by omega⟩
  have hacc : (((v / 262144 % 8 + 240) % 8 * 64 + (v / 4096 % 64 + 128) % 64) * 64 +
      (v / 64 % 64 + 128) % 64) * 64 + (v % 64 + 128) % 64 = v := by
    omega
  rw [decodeOne, if_neg (by omega)]
  simp only [hshape]
  rw [if_pos ⟨hlow, hhigh⟩]
  simp only [continuation, isContinuation_add, if_true]
  change Except.ok (some (Char.ofNat
    ((((v / 262144 % 8 + 240) % 8 * 64 + (v / 4096 % 64 + 128) % 64) * 64 +
      (v / 64 % 64 + 128) % 64) * 64 + (v % 64 + 128) % 64), _)) = _
  rw [hacc]

end

theorem toNat_ofNat_of_lt {n : Nat} (h : n < 256) : (UInt8.ofNat n).toNat = n := by
  rw [UInt8.toNat_ofNat']
  exact Nat.mod_eq_of_lt h

/-- **A character that is written is read**, whatever follows it. -/
theorem decodeOne_encodeChar (i : Nat) (c : Char) (rest : List Nat) :
    decodeOne i ((String.utf8EncodeChar c).map (·.toNat) ++ rest) =
      .ok (some (c, (String.utf8EncodeChar c).length, rest)) := by
  have hvalid : c.val.toNat < 0xd800 ∨ 0xdfff < c.val.toNat ∧ c.val.toNat < 0x110000 := c.valid
  obtain ⟨v, hv, rfl⟩ : ∃ v, c.val.toNat = v ∧ Char.ofNat v = c := ⟨_, rfl, c.ofNat_toNat⟩
  rw [hv] at hvalid
  unfold String.utf8EncodeChar
  simp only [hv]
  split
  · simp only [List.map_cons, List.map_nil, List.cons_append, List.nil_append]
    rw [toNat_ofNat_of_lt (by omega)]
    exact decodeOne_one i rest (by omega)
  · split
    · simp only [List.map_cons, List.map_nil, List.cons_append, List.nil_append]
      rw [toNat_ofNat_of_lt (by omega), toNat_ofNat_of_lt (by omega)]
      exact decodeOne_two i rest (by omega) (by omega)
    · split
      · simp only [List.map_cons, List.map_nil, List.cons_append, List.nil_append]
        rw [toNat_ofNat_of_lt (by omega), toNat_ofNat_of_lt (by omega),
          toNat_ofNat_of_lt (by omega)]
        exact decodeOne_three i rest (by omega) (by omega) (by omega)
      · simp only [List.map_cons, List.map_nil, List.cons_append, List.nil_append]
        rw [toNat_ofNat_of_lt (by omega), toNat_ofNat_of_lt (by omega),
          toNat_ofNat_of_lt (by omega), toNat_ofNat_of_lt (by omega)]
        exact decodeOne_four i rest (by omega) (by omega)

/-! ## Whole texts -/

theorem length_encodeChar_pos (c : Char) : 0 < (String.utf8EncodeChar c).length := by
  unfold String.utf8EncodeChar
  dsimp only
  split_ifs <;> exact Nat.succ_pos _

/-- The characters of a text are read if there are steps enough. -/
theorem decodeMany_flatMap (i fuel : Nat) (cs : List Char) (h : cs.length ≤ fuel) :
    decodeMany i fuel ((cs.flatMap String.utf8EncodeChar).map (·.toNat)) = .ok cs := by
  induction cs generalizing i fuel with
  | nil => cases fuel <;> rfl
  | cons c cs ih =>
    obtain ⟨fuel, rfl⟩ : ∃ n, fuel = n + 1 := ⟨fuel - 1, by rw [List.length_cons] at h; omega⟩
    rw [List.flatMap_cons, List.map_append, decodeMany, decodeOne_encodeChar]
    dsimp only
    rw [ih _ _ (Nat.le_of_succ_le_succ h)]
    rfl

theorem length_le_length_flatMap (cs : List Char) :
    cs.length ≤ (cs.flatMap String.utf8EncodeChar).length := by
  induction cs with
  | nil => exact Nat.zero_le _
  | cons c cs ih =>
    have hpos := length_encodeChar_pos c
    rw [List.flatMap_cons, List.length_append, List.length_cons]
    omega

/-- **A text that is written is read.** -/
theorem decode_encode (s : String) : decode (encode s) = .ok s := by
  rw [decode, encode_eq_flatMap, decodeMany_flatMap 0 _ s.toList (length_le_length_flatMap _)]
  exact congrArg Except.ok (String.ofList_toList)

end NodeAgent.Text.Utf8
