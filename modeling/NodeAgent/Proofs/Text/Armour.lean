import NodeAgent.Text.Armour
import NodeAgent.Proofs.Disk.Path

/-!
# Armoured data that is read again

Data is written in Base64, in lines of 64 characters, between a `BEGIN` line and an `END` line. None
of the characters in it is a dash, a blank or the end of a line, so the first dashes after the
`BEGIN` line are those of the `END` line, no empty line sets off a header, and the lines put
together are the Base64.

## Main statements

* `decode_encode`: bytes in Base64 are read again.
* `parse_render`: so is a block.
-/

namespace NodeAgent.Text

/-! ## Base64 -/

namespace Base64

theorem value?_digit {n : Nat} (h : n < 64) : value? (digit n) = some n := by
  have hall : ∀ n < 64, value? (digit n) = some n := by decide
  exact hall n h

theorem digit_ne_pad {n : Nat} (h : n < 64) : digit n ≠ '=' := by
  have hall : ∀ n < 64, digit n ≠ '=' := by decide
  exact hall n h

theorem decode_group {a b c d : Char} {x y z w : Nat} {rest : List Char} {bytes : List UInt8}
    (ha : value? a = some x) (hb : value? b = some y) (hc : value? c = some z)
    (hd : value? d = some w) (hpad : d ≠ '=') (hrest : decode rest = some bytes) :
    decode (a :: b :: c :: d :: rest) = some (UInt8.ofNat (x * 4 + y / 16) ::
      UInt8.ofNat (y % 16 * 16 + z / 4) :: UInt8.ofNat (z % 4 * 64 + w) :: bytes) := by
  rw [decode, ha, hb, hc, hd, hrest]
  · rfl
  · exact fun _ hd' _ ↦ hpad hd'
  · exact fun hd' _ ↦ hpad hd'

/-- **Bytes in Base64 are read again.** -/
theorem decode_encode (bs : List UInt8) : decode (encode bs) = some bs := by
  have hbyte : ∀ (a : UInt8) (n : Nat), n = a.toNat → UInt8.ofNat n = a := by
    rintro a _ rfl
    exact UInt8.ofNat_toNat
  induction bs using encode.induct with
  | case1 => rfl
  | case2 a =>
    have ha := a.toNat_lt
    rw [encode, decode, value?_digit (by omega), value?_digit (by omega)]
    simp only [Option.bind_eq_bind, Option.bind_some]
    rw [if_pos (by omega), hbyte a _ (by omega)]
  | case3 a b =>
    have ha := a.toNat_lt
    have hb := b.toNat_lt
    rw [encode, decode, value?_digit (by omega), value?_digit (by omega), value?_digit (by omega)]
    · simp only [Option.bind_eq_bind, Option.bind_some]
      rw [if_pos (by omega), hbyte a _ (by omega), hbyte b _ (by omega)]
    · exact digit_ne_pad (by omega)
  | case4 a b c rest ih =>
    have ha := a.toNat_lt
    have hb := b.toNat_lt
    have hc := c.toNat_lt
    rw [encode, decode_group (value?_digit (by omega)) (value?_digit (by omega))
      (value?_digit (by omega)) (value?_digit (by omega)) (digit_ne_pad (by omega)) ih,
      hbyte a _ (by omega), hbyte b _ (by omega), hbyte c _ (by omega)]

/-- A character that can neither be taken for a marker nor for the end of a line. -/
structure IsPlain (c : Char) : Prop where
  ne_dash : c ≠ '-'
  not_blank : isBlank c = false

theorem isPlain_digit {n : Nat} (h : n < 64) : IsPlain (digit n) := by
  have hall : ∀ n < 64, digit n ≠ '-' ∧ isBlank (digit n) = false := by decide
  exact ⟨(hall n h).1, (hall n h).2⟩

/-- Base64 has no other characters than plain ones. -/
theorem isPlain_encode {bs : List UInt8} {c : Char} (h : c ∈ encode bs) : IsPlain c := by
  have hpad : IsPlain '=' := ⟨by decide, by decide⟩
  induction bs using encode.induct with
  | case1 => cases h
  | case2 a =>
    have ha := a.toNat_lt
    rw [encode] at h
    simp only [List.mem_cons, List.not_mem_nil, or_false] at h
    rcases h with rfl | rfl | rfl | rfl
    · exact isPlain_digit (by omega)
    · exact isPlain_digit (by omega)
    · exact hpad
    · exact hpad
  | case3 a b =>
    have ha := a.toNat_lt
    have hb := b.toNat_lt
    rw [encode] at h
    simp only [List.mem_cons, List.not_mem_nil, or_false] at h
    rcases h with rfl | rfl | rfl | rfl
    · exact isPlain_digit (by omega)
    · exact isPlain_digit (by omega)
    · exact isPlain_digit (by omega)
    · exact hpad
  | case4 a b c' rest ih =>
    have ha := a.toNat_lt
    have hb := b.toNat_lt
    have hc := c'.toNat_lt
    rw [encode] at h
    simp only [List.mem_cons] at h
    rcases h with rfl | rfl | rfl | rfl | h
    · exact isPlain_digit (by omega)
    · exact isPlain_digit (by omega)
    · exact isPlain_digit (by omega)
    · exact isPlain_digit (by omega)
    · exact ih h

end Base64

/-! ## Markers -/

namespace Armour

open Base64 (IsPlain)

variable {marker : List Char} {cs pre seen : List Char} {c : Char} {n : Nat}

/-- Characters that do not begin a marker are passed over. -/
theorem seek_of_notMem (hmarker : marker ≠ []) (hpre : ∀ c ∈ pre, marker.head? ≠ some c) :
    seek marker 0 seen (pre ++ cs) = seek marker 0 (pre.reverse ++ seen) cs := by
  induction pre generalizing seen with
  | nil => rfl
  | cons c pre ih =>
    have hfound : marker[0]? ≠ some c := by
      rw [← List.head?_eq_getElem?]
      exact hpre c List.mem_cons_self
    rw [List.cons_append, seek, if_neg hfound, if_neg, ih fun c' hc' ↦ hpre c' (List.mem_cons_of_mem _ hc')]
    · rw [List.reverse_cons, List.append_assoc]
      rfl
    · intro hlength
      exact hmarker (List.length_eq_zero_iff.mp hlength.symm)

/-- The rest of a marker completes it. -/
theorem seek_drop (hn : n < marker.length) (seen cs : List Char) :
    seek marker n seen (marker.drop n ++ cs) =
      some ((((marker.drop n).reverse ++ seen).drop marker.length).reverse, cs) := by
  induction hleft : marker.length - n generalizing n seen with
  | zero => omega
  | succ left ih =>
    rw [List.drop_eq_getElem_cons hn, List.cons_append, seek,
      if_pos (List.getElem?_eq_getElem hn)]
    by_cases hlast : n + 1 = marker.length
    · rw [if_pos hlast, List.drop_eq_nil_of_le (Nat.le_of_eq hlast.symm)]
      rfl
    · rw [if_neg hlast, ih (by omega) _ (by omega), List.reverse_cons, List.append_assoc]
      rfl

/-- **A text is cut at its first marker.** -/
theorem cutAt_append {marker : String} (hmarker : marker.toList ≠ [])
    (hpre : ∀ c ∈ pre, marker.toList.head? ≠ some c) (cs : List Char) :
    cutAt marker (pre ++ marker.toList ++ cs) = some (pre, cs) := by
  have hseek := seek_drop (List.length_pos_iff.mpr hmarker) pre.reverse cs
  rw [List.drop_zero] at hseek
  rw [cutAt, List.append_assoc, seek_of_notMem hmarker hpre, List.append_nil, hseek]
  have hdrop : (marker.toList.reverse ++ pre.reverse).drop marker.toList.length = pre.reverse := by
    rw [List.drop_left' List.length_reverse]
  rw [hdrop, List.reverse_reverse]

/-- A text without dashes ends at the first marker that begins with one. -/
theorem cutAt_dash {marker : String} (hmarker : marker.toList.head? = some '-') (hpre : '-' ∉ pre)
    (cs : List Char) : cutAt marker (pre ++ marker.toList ++ cs) = some (pre, cs) := by
  refine cutAt_append (fun hnil ↦ ?_) (fun c hc heq ↦ ?_) cs
  · rw [hnil] at hmarker
    cases hmarker
  · obtain rfl := Option.some.inj (hmarker.symm.trans heq)
    exact hpre hc

theorem cutAt_eq_none {marker : String} (hmarker : marker.toList ≠ [])
    (hpre : ∀ c ∈ pre, marker.toList.head? ≠ some c) : cutAt marker pre = none := by
  have hseek : seek marker.toList 0 [] (pre ++ []) = seek marker.toList 0 (pre.reverse ++ []) [] :=
    seek_of_notMem hmarker hpre
  rw [List.append_nil] at hseek
  rw [cutAt, hseek]
  rfl

/-! ## Lines -/

theorem wrap_succ (fuel : Nat) (hcs : cs ≠ []) :
    wrap (fuel + 1) cs = cs.take 64 ++ '\n' :: wrap fuel (cs.drop 64) := by
  cases cs with
  | nil => exact absurd rfl hcs
  | cons c cs => rfl

theorem mem_wrap {fuel : Nat} (h : c ∈ wrap fuel cs) : c ∈ cs ∨ c = '\n' := by
  induction fuel generalizing cs with
  | zero => cases h
  | succ fuel ih =>
    by_cases hcs : cs = []
    · subst hcs
      cases h
    · rw [wrap_succ fuel hcs, List.mem_append, List.mem_cons] at h
      rcases h with h | h | h
      · exact Or.inl (List.mem_of_mem_take h)
      · exact Or.inr h
      · exact (ih h).imp_left List.mem_of_mem_drop

/-- The lines put together are what was wrapped. -/
theorem splitAtChars_wrap {fuel : Nat} (hfuel : cs.length ≤ fuel) (hcs : ∀ c ∈ cs, c ≠ '\n') :
    ∃ ws, splitAtChars (· == '\n') (wrap fuel cs) = ws ++ [[]] ∧ ws.flatten = cs := by
  induction fuel generalizing cs with
  | zero =>
    obtain rfl := List.length_eq_zero_iff.mp (Nat.le_zero.mp hfuel)
    exact ⟨[], rfl, rfl⟩
  | succ fuel ih =>
    by_cases hnil : cs = []
    · subst hnil
      exact ⟨[], rfl, rfl⟩
    · have hlength := List.length_pos_iff.mpr hnil
      have hrest : (cs.drop 64).length ≤ fuel := by
        rw [List.length_drop]
        omega
      obtain ⟨ws, hws, hflatten⟩ := ih hrest fun c hc ↦ hcs c (List.mem_of_mem_drop hc)
      refine ⟨cs.take 64 :: ws, ?_, ?_⟩
      · rw [wrap_succ fuel hnil, splitAtChars_append (by decide), hws,
          splitAtChars_of_not_mem fun c hc ↦ ?_]
        · rfl
        · exact beq_eq_false_iff_ne.mpr (hcs c (List.mem_of_mem_take hc))
      · rw [List.flatten_cons, hflatten, List.take_append_drop]

/-- No line is empty. -/
theorem cutAt_wrap {fuel : Nat} (hcs : ∀ c ∈ cs, c ≠ '\n') :
    cutAt "\n\n" (wrap fuel cs) = none := by
  have hseek : ∀ found < 2, ∀ seen, seek ['\n', '\n'] found seen (wrap fuel cs) = none := by
    induction fuel generalizing cs with
    | zero => exact fun _ _ _ ↦ rfl
    | succ fuel ih =>
      intro found hfound seen
      cases cs with
      | nil => rfl
      | cons c cs =>
        have hc : c ≠ '\n' := hcs c List.mem_cons_self
        have hmarker : ['\n', '\n'][found]? ≠ some c := by
          have h01 : found = 0 ∨ found = 1 := by omega
          rcases h01 with rfl | rfl
          · exact fun heq ↦ hc (Option.some.inj heq).symm
          · exact fun heq ↦ hc (Option.some.inj heq).symm
        rw [wrap_succ fuel (List.cons_ne_nil _ _), List.take_succ_cons, List.cons_append, seek,
          if_neg hmarker, if_neg (by decide), seek_of_notMem (by decide) fun c' hc' ↦ ?_]
        · exact ih (fun c' hc' ↦ hcs c' (List.mem_of_mem_drop hc')) 1 (by decide) _
        · intro heq
          refine hcs c' (List.mem_cons_of_mem _ (List.mem_of_mem_take hc')) ?_
          exact (Option.some.inj heq).symm
  exact hseek 0 (by decide) []

theorem dropReturn_of_notMem {w : List Char} (h : '\r' ∉ w) : dropReturn w = w := by
  unfold dropReturn
  split
  · rename_i r hreverse
    have hmem : '\r' ∈ w.reverse := by
      rw [hreverse]
      exact List.mem_cons_self
    exact absurd (List.mem_reverse.mp hmem) h
  · rfl

theorem dropWhile_isBlank {w : List Char} (h : ∀ c ∈ w, isBlank c = false) :
    w.dropWhile isBlank = w := by
  cases w with
  | nil => rfl
  | cons c w =>
    rw [List.dropWhile_cons_of_neg]
    simp [h c List.mem_cons_self]

/-- Nothing is lost at the ends of lines. -/
theorem flatten_trimmedLines {fuel : Nat} (hfuel : cs.length ≤ fuel)
    (hcs : ∀ c ∈ cs, IsPlain c) : (trimmedLines (wrap fuel cs)).flatten = cs := by
  have hreturn : '\r' ∉ cs := fun hmem ↦ by cases (hcs _ hmem).not_blank
  have hnewline : ∀ c ∈ cs, c ≠ '\n' := by
    rintro c hc rfl
    cases (hcs _ hc).not_blank
  obtain ⟨ws, hws, rfl⟩ := splitAtChars_wrap hfuel hnewline
  have hline : ∀ w ∈ ws, ((dropReturn w).reverse.dropWhile isBlank).reverse = w := by
    intro w hw
    have hmem : ∀ c ∈ w, c ∈ ws.flatten := fun c hc ↦ List.mem_flatten_of_mem hw hc
    have hblank : ∀ c ∈ w.reverse, isBlank c = false := fun c hc ↦
      (hcs c (hmem c (List.mem_reverse.mp hc))).not_blank
    rw [dropReturn_of_notMem fun hr ↦ hreturn (hmem _ hr), dropWhile_isBlank hblank,
      List.reverse_reverse]
  have hlines : (ws.map dropReturn).map (fun l ↦ (l.reverse.dropWhile isBlank).reverse) = ws := by
    rw [List.map_map]
    exact (List.map_congr_left hline).trans (List.map_id' ws)
  rw [trimmedLines, lines, String.toList_ofList, hws, List.dropLast_concat, List.getLast?_concat]
  dsimp only
  rw [hlines]

/-! ## Blocks -/

/-- Blanks end before the first line. -/
theorem skipBlanks_wrap {fuel : Nat} (hcs : ∀ c ∈ cs, IsPlain c) (rest : List Char) :
    skipBlanks ('\n' :: (wrap fuel cs ++ '-' :: rest)) = wrap fuel cs ++ '-' :: rest := by
  have hstop : ∀ c rest, IsPlain c ∨ c = '-' → skipBlanks ('\n' :: c :: rest) = c :: rest := by
    intro c rest hc
    have hother : ∀ x ∈ [' ', '\t', '\n', '\r'], c ≠ x := by
      rintro x hx rfl
      rcases hc with hc | rfl
      · have hblank : ∀ x ∈ [' ', '\t', '\n', '\r'], isBlank x = true :=
          List.all_eq_true.mp (by decide)
        cases (hblank c hx).symm.trans hc.not_blank
      · exact absurd hx (by decide)
    simp only [List.mem_cons, List.not_mem_nil, or_false, forall_eq_or_imp, forall_eq] at hother
    simp [skipBlanks, hother]
  cases fuel with
  | zero => exact hstop _ _ (Or.inr rfl)
  | succ fuel =>
    cases cs with
    | nil => exact hstop _ _ (Or.inr rfl)
    | cons c cs => exact hstop _ _ (Or.inl (hcs c List.mem_cons_self))

theorem dash_notMem_wrap (fuel : Nat) (data : List UInt8) : '-' ∉ wrap fuel (Base64.encode data) := by
  intro hdash
  rcases mem_wrap hdash with hdash | hdash
  · exact (Base64.isPlain_encode hdash).ne_dash rfl
  · cases hdash

/-- The characters of a block. -/
theorem toList_render (label : String) (data : List UInt8) :
    (render ⟨label, data⟩).toList = [] ++ "-----BEGIN ".toList ++ (label.toList ++
      "-----".toList ++ ('\n' :: (wrap (Base64.encode data).length (Base64.encode data) ++
        '-' :: ("----END ".toList ++ (label.toList ++ "-----".toList ++ ['\n']))))) := by
  have hbegin : "-----\n".toList = "-----".toList ++ ['\n'] := by decide
  have hend : "-----END ".toList = '-' :: "----END ".toList := by decide
  have hrender : render ⟨label, data⟩ = "-----BEGIN " ++ label ++ "-----\n" ++
      String.ofList (wrap (Base64.encode data).length (Base64.encode data)) ++
        "-----END " ++ label ++ "-----\n" := rfl
  simp only [hrender, String.toList_append, String.toList_ofList, hbegin, hend,
    List.append_assoc, List.nil_append, List.cons_append]

/-- What frames a block is told from what is in it by its dashes. -/
theorem frame?_render {label : String} (hlabel : '-' ∉ label.toList) (data : List UInt8) :
    frame? (render ⟨label, data⟩).toList =
      some (⟨label, wrap (Base64.encode data).length (Base64.encode data), label⟩, []) := by
  have hplain : ∀ c ∈ Base64.encode data, IsPlain c := fun _ ↦ Base64.isPlain_encode
  have hskip := @skipBlanks_wrap _ (Base64.encode data).length hplain
    ("----END ".toList ++ (label.toList ++ "-----".toList ++ ['\n']))
  have hdash := dash_notMem_wrap (Base64.encode data).length data
  generalize hbody : wrap (Base64.encode data).length (Base64.encode data) = body at hskip hdash
  have hend : body ++ '-' :: ("----END ".toList ++ (label.toList ++ "-----".toList ++ ['\n'])) =
      body ++ "-----END ".toList ++ (label.toList ++ "-----".toList ++ ['\n']) := by
    have hmarker : "-----END ".toList = '-' :: "----END ".toList := by decide
    rw [hmarker]
    exact (List.append_assoc body ('-' :: "----END ".toList) _).symm
  rw [toList_render, hbody, frame?, cutAt_dash (by decide) List.not_mem_nil]
  simp only [Option.bind_eq_bind, Option.bind_some]
  rw [cutAt_dash (by decide) hlabel]
  simp only [Option.bind_some]
  rw [hskip, hend, cutAt_dash (by decide) hdash]
  simp only [Option.bind_some]
  rw [cutAt_dash (by decide) hlabel]
  simp only [Option.bind_some, String.ofList_toList]
  rfl

/-- There are no headers in front of what was wrapped. -/
theorem splitBody_wrap (fuel : Nat) (data : List UInt8) :
    splitBody (wrap fuel (Base64.encode data)) = ([], wrap fuel (Base64.encode data)) := by
  have hplain : ∀ c ∈ Base64.encode data, IsPlain c := fun _ ↦ Base64.isPlain_encode
  have hnewline : ∀ c ∈ Base64.encode data, c ≠ '\n' := by
    rintro c hc rfl
    cases (hplain _ hc).not_blank
  have hreturn : ∀ c ∈ wrap fuel (Base64.encode data), "\r\n\r\n".toList.head? ≠ some c := by
    rintro c hc heq
    obtain rfl : '\r' = c := Option.some.inj heq
    rcases mem_wrap hc with hc | hc
    · cases (hplain _ hc).not_blank
    · cases hc
  rw [splitBody, cutAt_eq_none (by decide) hreturn, cutAt_wrap hnewline]
  rfl

/-- **A block is read again**, if its label has no dashes in it. -/
theorem parse_render {label : String} (hlabel : label ≠ "") (hdash : '-' ∉ label.toList)
    (data : List UInt8) : parse (render ⟨label, data⟩) = .ok ⟨label, data⟩ := by
  have hplain : ∀ c ∈ Base64.encode data, IsPlain c := fun _ ↦ Base64.isPlain_encode
  have hdata : Base64.decode (trimmedLines (wrap (Base64.encode data).length
      (Base64.encode data))).flatten = some data := by
    rw [flatten_trimmedLines (Nat.le_refl _) hplain, Base64.decode_encode]
  have hheaders : trimmedLines [] = [] := by
    rw [trimmedLines, lines, String.toList_ofList]
    rfl
  rw [parse, frame?_render hdash]
  dsimp only
  rw [ofFrame, if_neg hlabel, if_neg hlabel, if_neg (fun hne ↦ hne rfl)]
  dsimp only
  rw [splitBody_wrap]
  dsimp only
  rw [hdata, hheaders]
  rfl

end Armour

end NodeAgent.Text
