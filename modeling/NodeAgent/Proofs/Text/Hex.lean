import NodeAgent.Proofs.Text.Utf8
import NodeAgent.Text.Hex

/-!
# Hexadecimal texts that are read again

The two cases differ in nothing but their digits, so what is written is read in either case for one
reason: each digit is a single byte, and that byte is read as the value of the digit. It is enough
that this holds of each digit of a text (`Spells`), so the two cases may also be mixed.

## Main statements

* `decode_encodeUpper`, `decode_encodeLower`: what was written is read.
* `decode_of_toUpper`: it is also read if some of its letters were changed to the other case.
* `encodeUpper_injective`: different bytes are written differently.
-/

namespace NodeAgent.Text.Hex

variable {digit : Nat → Char} {bs : List UInt8}

/-- A digit is one byte, and is read as its value. -/
def Reads (digit : Nat → Char) : Prop :=
  ∀ n < 16, ∃ b, String.utf8EncodeChar (digit n) = [b] ∧ digit? b = some n

theorem Reads.of_fin (h : ∀ n : Fin 16,
    String.utf8EncodeChar (digit n) = [UInt8.ofNat (digit n).toNat] ∧
      digit? (UInt8.ofNat (digit n).toNat) = some ↑n) : Reads digit :=
  fun n hn ↦ ⟨_, h ⟨n, hn⟩⟩

theorem reads_upperDigit : Reads upperDigit := .of_fin (by decide)

theorem reads_lowerDigit : Reads lowerDigit := .of_fin (by decide)

/-- The digits of bytes. -/
def digits (digit : Nat → Char) (bs : List UInt8) : List Char :=
  bs.flatMap fun b ↦ [digit (b.toNat / 16), digit (b.toNat % 16)]

/-- A text is made of two characters for each byte, each of which is read as the value of its
digit. -/
inductive Spells : List Char → List UInt8 → Prop where
  | nil : Spells [] []
  | cons {c d : Char} {x y : UInt8} {cs : List Char} (b : UInt8) {bs : List UInt8}
      (hc : String.utf8EncodeChar c = [x]) (hx : digit? x = some (b.toNat / 16))
      (hd : String.utf8EncodeChar d = [y]) (hy : digit? y = some (b.toNat % 16))
      (hcs : Spells cs bs) : Spells (c :: d :: cs) (b :: bs)

theorem Spells.length_eq {cs : List Char} (h : Spells cs bs) :
    (cs.flatMap String.utf8EncodeChar).length = 2 * bs.length := by
  induction h with
  | nil => rfl
  | cons b hc hx hd hy hcs ih =>
    rw [List.flatMap_cons, List.flatMap_cons, hc, hd, List.length_append, List.length_append, ih,
      List.length_singleton, List.length_singleton, List.length_cons]
    omega

theorem Spells.decodePairs_eq {cs : List Char} (h : Spells cs bs) (i : Nat) :
    decodePairs i (cs.flatMap String.utf8EncodeChar) = .ok bs := by
  induction h generalizing i with
  | nil => rfl
  | cons b hc hx hd hy hcs ih =>
    have hb : UInt8.ofNat (16 * (b.toNat / 16) + b.toNat % 16) = b := by
      rw [Nat.div_add_mod, UInt8.ofNat_toNat]
    rw [List.flatMap_cons, List.flatMap_cons, hc, hd, List.singleton_append, List.singleton_append,
      decodePairs, hx, hy]
    dsimp only
    rw [ih, hb]
    rfl

/-- A text that spells bytes is read as these. -/
theorem decode_of_spells {text : String} (h : Spells text.toList bs) : decode text = .ok bs := by
  have hbytes := Utf8.encode_eq_flatMap text
  rw [Utf8.encode] at hbytes
  rw [decode, hbytes, decodeBytes, h.length_eq, if_neg (by omega), h.decodePairs_eq]

theorem Reads.spells (h : Reads digit) (bs : List UInt8) : Spells (digits digit bs) bs := by
  induction bs with
  | nil => exact .nil
  | cons b bs ih =>
    obtain ⟨x, hc, hx⟩ := h (b.toNat / 16) (by have := b.toNat_lt; omega)
    obtain ⟨y, hd, hy⟩ := h (b.toNat % 16) (by omega)
    exact .cons b hc hx hd hy ih

/-- What is written in digits is read again. -/
theorem decode_digits (h : Reads digit) (bs : List UInt8) :
    decode (String.ofList (digits digit bs)) = .ok bs := by
  apply decode_of_spells
  rw [String.toList_ofList]
  exact h.spells bs

/-- **Bytes in upper-case digits are read again.** -/
theorem decode_encodeUpper (bs : List UInt8) : decode (encodeUpper bs) = .ok bs :=
  decode_digits reads_upperDigit bs

/-- **Bytes in lower-case digits are read again.** -/
theorem decode_encodeLower (bs : List UInt8) : decode (encodeLower bs) = .ok bs :=
  decode_digits reads_lowerDigit bs

/-- A character that is a digit when it is made upper case is that digit in one of the cases. -/
theorem eq_of_toUpper {c : Char} {n : Nat} (hn : n < 16) (h : c.toUpper = upperDigit n) :
    c = upperDigit n ∨ c = lowerDigit n := by
  by_cases hc : 'a'.val ≤ c.val ∧ c.val ≤ 'z'.val
  · -- of the lower-case letters the first six are digits
    have hletters : ∀ k < 26, ∀ n < 16,
        (Char.ofNat (97 + k)).toUpper = upperDigit n → Char.ofNat (97 + k) = lowerDigit n := by
      decide
    have hlow : 97 ≤ c.toNat := hc.1
    have hhigh : c.toNat ≤ 122 := hc.2
    have hofNat : Char.ofNat (97 + (c.toNat - 97)) = c := by
      rw [Nat.add_sub_cancel' hlow, Char.ofNat_toNat]
    have hdigit := hletters (c.toNat - 97) (by omega) n hn
    rw [hofNat] at hdigit
    exact Or.inr (hdigit h)
  · have hsame : c.toUpper = c := dif_neg hc
    exact Or.inl (hsame ▸ h)

theorem reads_of_toUpper {c : Char} {n : Nat} (hn : n < 16) (h : c.toUpper = upperDigit n) :
    ∃ b, String.utf8EncodeChar c = [b] ∧ digit? b = some n := by
  rcases eq_of_toUpper hn h with rfl | rfl
  · exact reads_upperDigit n hn
  · exact reads_lowerDigit n hn

theorem spells_of_toUpper {cs : List Char} (h : cs.map Char.toUpper = digits upperDigit bs) :
    Spells cs bs := by
  induction bs generalizing cs with
  | nil =>
    rw [List.map_eq_nil_iff.mp h]
    exact .nil
  | cons b bs ih =>
    obtain ⟨c, cs, rfl, hc, hcs⟩ := List.map_eq_cons_iff.mp h
    obtain ⟨d, cs, rfl, hd, hcs⟩ := List.map_eq_cons_iff.mp hcs
    obtain ⟨x, hcx, hx⟩ := reads_of_toUpper (by have := b.toNat_lt; omega) hc
    obtain ⟨y, hdy, hy⟩ := reads_of_toUpper (by omega) hd
    exact .cons b hcx hx hdy hy (ih hcs)

/-- **Digits are read in whichever case each of them is.** -/
theorem decode_of_toUpper {text : String} (h : text.toUpper = encodeUpper bs) :
    decode text = .ok bs := by
  apply decode_of_spells
  apply spells_of_toUpper
  rw [← String.toList_map, ← String.toUpper, h, encodeUpper, String.toList_ofList]
  rfl

theorem encodeUpper_injective {bs bs' : List UInt8} (h : encodeUpper bs = encodeUpper bs') :
    bs = bs' := by
  have hread := decode_encodeUpper bs
  rw [h, decode_encodeUpper] at hread
  exact (Except.ok.inj hread).symm

/-- Upper-case digits are digits and the first six letters. -/
theorem mem_encodeUpper {c : Char} (h : c ∈ (encodeUpper bs).toList) :
    c ∈ "0123456789ABCDEF".toList := by
  have hdigit : ∀ n < 16, upperDigit n ∈ "0123456789ABCDEF".toList := by decide
  rw [encodeUpper, String.toList_ofList, List.mem_flatMap] at h
  obtain ⟨b, -, hc⟩ := h
  have hb := b.toNat_lt
  rcases List.mem_cons.mp hc with rfl | hc
  · exact hdigit _ (by omega)
  · rw [List.mem_singleton.mp hc]
    exact hdigit _ (by omega)

/-- What does not change an upper-case digit does not change a text of them. -/
theorem map_encodeUpper {f : Char → Char}
    (hf : "0123456789ABCDEF".toList.all fun c ↦ f c = c) :
    (encodeUpper bs).map f = encodeUpper bs := by
  have hfixed : ∀ c ∈ (encodeUpper bs).toList, f c = c := by
    intro c hc
    exact of_decide_eq_true (List.all_eq_true.mp hf c (mem_encodeUpper hc))
  apply String.toList_inj.mp
  rw [String.toList_map, List.map_congr_left hfixed]
  exact List.map_id _

theorem toUpper_encodeUpper (bs : List UInt8) : (encodeUpper bs).toUpper = encodeUpper bs :=
  map_encodeUpper (by decide)

/-- Upper-case digits that are made lower case and upper case again are what they were. -/
theorem toUpper_toLower_encodeUpper (bs : List UInt8) :
    (encodeUpper bs).toLower.toUpper = encodeUpper bs := by
  change ((encodeUpper bs).map Char.toLower).map Char.toUpper = encodeUpper bs
  rw [String.map_map]
  exact map_encodeUpper (by decide)

end NodeAgent.Text.Hex
