import NodeAgent.Node.Hardware
import NodeAgent.Proofs.Disk.Files
import NodeAgent.Proofs.Text.Lines
import NodeAgent.Proofs.Text.Natural
import NodeAgent.Proofs.Text.Utf8
import Mathlib.Data.List.Induction

/-!
# What is read of the processors

The file of the processors may hold any text. The text falls into blocks at its empty lines, in one
way only (`divides_iff`). A block that has a line with a colon tells of a processor, though it may
leave out all that counts: what it leaves out has a default, and of what it says twice the last word
holds (`block?_eq_some_iff`).

For blocks it is the other way round. Of those that tell of one package the first holds, and the
others are passed over wherever they stand (`mem_foldl_enter`).

## Main statements

* `divides_iff`: the blocks of a text.
* `block?_eq_some_iff`: what a block tells.
* `lists_cpus`: the processors that are read from a file.
-/

namespace NodeAgent.Hardware

open Text (Trims trimBlanks trimBlanks_eq_iff)
open Text.Natural (IsNumeral wordBound parse parse_eq_ok_iff)

variable {c : Char} {cs block line value : List Char} {bs lines : List (List Char)}
  {arch key : String} {n : Nat} {cpu : CpuInfo}

/-! ## Blocks -/

/-- How a text falls into blocks: the first block ends at the first empty line, which is where two
line feeds first follow each other, and what comes after them falls into the other blocks. -/
inductive Divides : List Char → List (List Char) → Prop where
  | last {cs : List Char} (h : ¬ ['\n', '\n'] <:+: cs) : Divides cs [cs]
  | next {b cs : List Char} {bs : List (List Char)} (h : ¬ ['\n', '\n'] <:+: b ++ ['\n'])
      (hrest : Divides cs bs) : Divides (b ++ '\n' :: '\n' :: cs) (b :: bs)

theorem blocks_cons (h : ¬ ['\n', '\n'] <+: c :: cs) {b : List Char}
    (hcs : blocks cs = b :: bs) : blocks (c :: cs) = (c :: b) :: bs := by
  rw [blocks, hcs]
  rintro cs' rfl rfl
  exact h ⟨cs', rfl⟩

theorem blocks_eq_singleton (h : ¬ ['\n', '\n'] <:+: cs) : blocks cs = [cs] := by
  induction cs with
  | nil => rfl
  | cons c cs ih =>
    rw [List.infix_cons_iff, not_or] at h
    exact blocks_cons h.1 (ih h.2)

theorem blocks_append {b : List Char} (h : ¬ ['\n', '\n'] <:+: b ++ ['\n']) (cs : List Char) :
    blocks (b ++ '\n' :: '\n' :: cs) = b :: blocks cs := by
  induction b with
  | nil => rw [List.nil_append, blocks]
  | cons c b ih =>
    rw [List.cons_append, List.infix_cons_iff, not_or] at h
    -- two line feeds in front of the text are in front of the block and its line feed
    have hlong : c :: (b ++ ['\n']) <+: c :: (b ++ '\n' :: '\n' :: cs) := ⟨'\n' :: cs, by simp⟩
    exact blocks_cons (fun hpre ↦ h.1 (List.prefix_of_prefix_length_le hpre hlong (by simp)))
      (ih h.2)

/-- A character more belongs to the first block. -/
theorem Divides.cons {b : List Char} (h : Divides cs (b :: bs)) (hc : ¬ ['\n', '\n'] <+: c :: cs) :
    Divides (c :: cs) ((c :: b) :: bs) := by
  cases h with
  | last h => exact .last fun hin ↦ (List.infix_cons_iff.mp hin).elim hc h
  | @next _ cs _ h hrest =>
    have hblock : ¬ ['\n', '\n'] <:+: c :: b ++ ['\n'] := fun hin ↦
      (List.infix_cons_iff.mp hin).elim (fun hpre ↦ hc (hpre.trans ⟨'\n' :: cs, by simp⟩)) h
    exact .next hblock hrest

theorem divides_blocks (cs : List Char) : Divides cs (blocks cs) := by
  induction cs using blocks.induct with
  | case1 => exact .last (by simp)
  | case2 cs ih => exact .next (b := []) (fun h ↦ absurd h.length_le (by simp)) ih
  | case3 c cs _ hcs ih =>
    rw [hcs] at ih
    cases ih
  | case4 c cs hne b bs hcs ih =>
    have hpre : ¬ ['\n', '\n'] <+: c :: cs := by
      rintro ⟨cs', h⟩
      injection h with hc h
      exact hne cs' hc.symm h.symm
    rw [hcs] at ih
    rw [blocks_cons hpre hcs]
    exact ih.cons hpre

/-- **The blocks of a text**: it falls into them, and in no other way. -/
theorem divides_iff : Divides cs bs ↔ blocks cs = bs := by
  constructor
  · intro h
    induction h with
    | last h => exact blocks_eq_singleton h
    | next h _ ih => rw [blocks_append h, ih]
  · rintro rfl
    exact divides_blocks cs

/-! ## Lines -/

/-- A line tells the value of a key: they stand before and after the first colon, perhaps with
blanks around them. -/
def Tells (line : List Char) (key : String) (value : List Char) : Prop :=
  ∃ before after, line = before ++ ':' :: after ∧ ':' ∉ before ∧ Trims before key.toList ∧
    Trims after value

theorem keyValue?_append {before : List Char} (h : ':' ∉ before) (after : List Char) :
    keyValue? (before ++ ':' :: after) =
      some (String.ofList (trimBlanks before), trimBlanks after) := by
  have hbefore : ∀ c ∈ before, decide (c ≠ ':') = true := fun c hc ↦
    decide_eq_true fun he ↦ h (he ▸ hc)
  rw [keyValue?, if_pos (by simp), List.takeWhile_append_of_pos hbefore,
    List.dropWhile_append_of_pos hbefore]
  simp

theorem keyValue?_eq_none_iff : keyValue? line = none ↔ ':' ∉ line := by
  unfold keyValue?
  split <;> simp_all

theorem keyValue?_eq_some_iff : keyValue? line = some (key, value) ↔ Tells line key value := by
  constructor
  · intro h
    by_cases hcolon : ':' ∈ line
    · obtain ⟨before, after, rfl, hfirst⟩ := List.eq_append_cons_of_mem hcolon
      rw [keyValue?_append hfirst] at h
      cases h
      exact ⟨before, after, rfl, hfirst, trimBlanks_eq_iff.mp (by simp), trimBlanks_eq_iff.mp rfl⟩
    · rw [keyValue?_eq_none_iff.mpr hcolon] at h
      cases h
  · rintro ⟨before, after, rfl, hfirst, hkey, hvalue⟩
    rw [keyValue?_append hfirst, trimBlanks_eq_iff.mpr hkey, trimBlanks_eq_iff.mpr hvalue,
      String.ofList_toList]

/-- A carriage return at the end of a line is one more blank. -/
theorem keyValue?_concat_return (line : List Char) :
    keyValue? (line ++ ['\r']) = keyValue? line := by
  by_cases hcolon : ':' ∈ line
  · obtain ⟨before, after, rfl, hfirst⟩ := List.eq_append_cons_of_mem hcolon
    rw [List.append_assoc, List.cons_append, keyValue?_append hfirst, keyValue?_append hfirst,
      Text.trimBlanks_append fun c hc ↦ by rw [List.mem_singleton.mp hc]; rfl]
  · rw [keyValue?_eq_none_iff.mpr hcolon, keyValue?_eq_none_iff.mpr (by simp [hcolon])]

/-! ## What a block says -/

/-- What a block says under a key: nothing if no line tells the key, and otherwise what the last
line tells that does. -/
inductive Says (block : List Char) (key : String) : Option (List Char) → Prop where
  | nothing (h : ∀ line ∈ block.splitOn '\n', ∀ value, ¬ Tells line key value) : Says block key none
  | last {before after : List (List Char)} {line value : List Char}
      (hlines : block.splitOn '\n' = before ++ line :: after) (h : Tells line key value)
      (hafter : ∀ line ∈ after, ∀ value, ¬ Tells line key value) : Says block key (some value)

/-- What a line says under a key. -/
def told? (key : String) (line : List Char) : Option (List Char) :=
  (keyValue? line).bind fun p ↦ if p.1 = key then some p.2 else none

/-- What lines say under a key at last. -/
def last? (lines : List (List Char)) (key : String) : Option (List Char) :=
  lines.reverse.findSome? (told? key)

theorem told?_eq_some_iff : told? key line = some value ↔ Tells line key value := by
  rw [← keyValue?_eq_some_iff, told?]
  cases keyValue? line with
  | none => simp
  | some p => simp [Prod.ext_iff]

theorem told?_eq_none_iff : told? key line = none ↔ ∀ value, ¬ Tells line key value := by
  simp only [Option.eq_none_iff_forall_ne_some, ne_eq, told?_eq_some_iff]

/-- **What a block says**: there is one answer for every key. -/
theorem says_iff {said : Option (List Char)} :
    Says block key said ↔ last? (block.splitOn '\n') key = said := by
  constructor
  · rintro (h | ⟨hlines, h, hafter⟩)
    · exact List.findSome?_eq_none_iff.mpr fun line hline ↦
        told?_eq_none_iff.mpr (h line (List.mem_reverse.mp hline))
    · -- the last line that tells the key is the first one from the end
      rename_i before after line value
      refine List.findSome?_eq_some_iff.mpr ⟨after.reverse, line, before.reverse, by simp [hlines],
        told?_eq_some_iff.mpr h, fun l hl ↦ told?_eq_none_iff.mpr ?_⟩
      exact hafter l (List.mem_reverse.mp hl)
  · rintro rfl
    cases hsaid : last? (block.splitOn '\n') key with
    | none =>
      have h := List.findSome?_eq_none_iff.mp hsaid
      exact .nothing fun line hline ↦ told?_eq_none_iff.mp (h line (List.mem_reverse.mpr hline))
    | some value =>
      obtain ⟨after, line, before, hreverse, h, hafter⟩ := List.findSome?_eq_some_iff.mp hsaid
      have hlines : block.splitOn '\n' = before.reverse ++ line :: after.reverse := by
        rw [← List.reverse_inj, hreverse]
        simp
      exact .last hlines (told?_eq_some_iff.mp h) fun l hl ↦
        told?_eq_none_iff.mp (hafter l (List.mem_reverse.mp hl))

/-- A line that tells no value leaves what was said as it is, -/
theorem last?_concat_of_none (h : keyValue? line = none) :
    last? (lines ++ [line]) = last? lines := by
  funext key
  simp [last?, told?, h]

/-- and one that tells a value supersedes what was said under its key. -/
theorem last?_concat_of_some (h : keyValue? line = some (key, value)) :
    last? (lines ++ [line]) = Function.update (last? lines) key (some value) := by
  funext key'
  by_cases hkey : key' = key
  · subst hkey
    simp [last?, told?, h]
  · have hkey' : key ≠ key' := Ne.symm hkey
    simp [last?, told?, h, hkey, hkey']

/-! ## What a block tells -/

/-- The number that a value is, or a default if there is no value or it is no number that fits. -/
inductive Counts (dflt : Nat) : Option (List Char) → Nat → Prop where
  | unsaid : Counts dflt none dflt
  | unreadable {value : List Char} (h : ∀ n, IsNumeral value n → wordBound ≤ n) :
      Counts dflt (some value) dflt
  | read {value : List Char} {n : Nat} (h : IsNumeral value n) (hn : n < wordBound) :
      Counts dflt (some value) n

/-- How a block describes a processor: by the last word it has on each of its properties. -/
structure Describes (arch : String) (block : List Char) (cpu : CpuInfo) : Prop where
  modelName : ∃ said, Says block "model name" said ∧
    cpu.modelName = String.ofList (said.getD [])
  numCores : ∃ said, Says block "cpu cores" said ∧ Counts 1 said cpu.numCores
  numThreads : ∃ said, Says block "siblings" said ∧ Counts 1 said cpu.numThreads
  archFamily : ∃ said, Says block "cpu family" said ∧
    cpu.archFamily = String.ofList (said.getD [])
  arch : cpu.arch = arch
  maxDmips : cpu.maxDmips = 0

/-- A block tells something if one of its lines has a colon. -/
def IsTelling (block : List Char) : Prop := ∃ line ∈ block.splitOn '\n', ':' ∈ line

/-- A block tells of a package, which is the number that it says last, or zero. -/
structure TellsOf (block : List Char) (package : Nat) : Prop where
  isTelling : IsTelling block
  package : ∃ said, Says block "physical id" said ∧ Counts 0 said package

theorem numberOr_of_isNumeral {dflt : Nat} (h : IsNumeral value n) (hn : n < wordBound) :
    numberOr dflt value = n := by
  have hparse : parse wordBound value = .ok n := (parse_eq_ok_iff (by decide)).mpr ⟨h, hn⟩
  rw [numberOr, hparse]
  rfl

theorem numberOr_of_not_isNumeral {dflt : Nat} (h : ∀ n, IsNumeral value n → wordBound ≤ n) :
    numberOr dflt value = dflt := by
  rw [numberOr]
  cases hparse : parse wordBound value with
  | error e => rfl
  | ok n =>
    obtain ⟨hnumeral, hn⟩ := (parse_eq_ok_iff (by decide)).mp hparse
    exact absurd hn (Nat.not_lt.mpr (h n hnumeral))

/-- The number that is said, or the default. -/
def number (dflt : Nat) (said : Option (List Char)) : Nat := said.elim dflt (numberOr dflt)

theorem counts_iff {dflt : Nat} {said : Option (List Char)} :
    Counts dflt said n ↔ number dflt said = n := by
  constructor
  · rintro (_ | h | ⟨h, hn⟩)
    · rfl
    · exact numberOr_of_not_isNumeral h
    · exact numberOr_of_isNumeral h hn
  · rintro rfl
    cases said with
    | none => exact .unsaid
    | some value =>
      rw [number, Option.elim_some]
      by_cases hnumeral : ∃ n, IsNumeral value n ∧ n < wordBound
      · obtain ⟨n, h, hn⟩ := hnumeral
        rw [numberOr_of_isNumeral h hn]
        exact .read h hn
      · have h : ∀ n, IsNumeral value n → wordBound ≤ n := fun n h ↦
          Nat.not_lt.mp fun hn ↦ hnumeral ⟨n, h, hn⟩
        rw [numberOr_of_not_isNumeral h]
        exact .unreadable h

/-- The package and the processor of a block that says all this. -/
def summary (arch : String) (said : String → Option (List Char)) : Nat × CpuInfo :=
  (number 0 (said "physical id"),
    { modelName := String.ofList ((said "model name").getD [])
      numCores := number 1 (said "cpu cores")
      numThreads := number 1 (said "siblings")
      arch := arch
      archFamily := String.ofList ((said "cpu family").getD []) })

/-- One line more supersedes what was said under its key. -/
theorem takeLine_summary (arch : String) (said : String → Option (List Char)) (key : String)
    (value : List Char) :
    takeLine (summary arch said) (key, value) =
      summary arch (Function.update said key (some value)) := by
  dsimp only [takeLine]
  split_ifs with hid hmodel hcores hsiblings hfamily
  · simp [summary, number, hid]
  · simp [summary, hmodel]
  · simp [summary, number, hcores]
  · simp [summary, number, hsiblings]
  · simp [summary, hfamily]
  · -- no other key counts
    have hother : ∀ k, k ≠ key → Function.update said key (some value) k = said k :=
      fun k hk ↦ Function.update_of_ne hk _ _
    rw [summary, summary, hother _ (Ne.symm hid), hother _ (Ne.symm hmodel),
      hother _ (Ne.symm hcores), hother _ (Ne.symm hsiblings), hother _ (Ne.symm hfamily)]

/-- Taking the lines of a block into account one after the other comes to what they say at last. -/
theorem foldl_takeLine (arch : String) (lines : List (List Char)) :
    (lines.filterMap keyValue?).foldl takeLine (0, defaultCpu arch) =
      summary arch (last? lines) := by
  induction lines using List.reverseRecOn with
  | nil => rfl
  | append_singleton lines line ih =>
    rw [List.filterMap_append, List.foldl_append, ih]
    cases h : keyValue? line with
    | none =>
      rw [last?_concat_of_none h, List.filterMap_cons_none h]
      rfl
    | some p =>
      rw [last?_concat_of_some h, List.filterMap_cons_some h, ← takeLine_summary]
      rfl

theorem summary_eq_iff : summary arch (last? (block.splitOn '\n')) = (n, cpu) ↔
    (∃ said, Says block "physical id" said ∧ Counts 0 said n) ∧ Describes arch block cpu := by
  simp only [says_iff, counts_iff, exists_eq_left', summary, Prod.mk.injEq]
  refine and_congr_right fun _ ↦ ⟨?_, ?_⟩
  · rintro rfl
    constructor <;> simp [says_iff, counts_iff]
  · rintro ⟨hmodel, hcores, hthreads, hfamily, harch, hdmips⟩
    simp only [says_iff, counts_iff, exists_eq_left'] at hmodel hcores hthreads hfamily
    rw [← hmodel, hcores, hthreads, ← hfamily, ← harch, ← hdmips]

/-- Every block describes a processor. -/
theorem exists_describes (arch : String) (block : List Char) :
    ∃ n cpu, (∃ said, Says block "physical id" said ∧ Counts 0 said n) ∧
      Describes arch block cpu :=
  ⟨_, _, summary_eq_iff.mp rfl⟩

theorem IsTelling.exists_tellsOf (h : IsTelling block) : ∃ n, TellsOf block n := by
  obtain ⟨n, -, hpackage, -⟩ := exists_describes "" block
  exact ⟨n, h, hpackage⟩

/-- **What a block tells**: of which package, and how it describes the processor. -/
theorem block?_eq_some_iff :
    block? arch block = some (n, cpu) ↔ TellsOf block n ∧ Describes arch block cpu := by
  have hlines : (Text.lines (String.ofList block)).filterMap keyValue? =
      (block.splitOn '\n').filterMap keyValue? := by
    rw [Text.filterMap_lines rfl keyValue?_concat_return, String.toList_ofList]
  have htelling : IsTelling block ↔ (block.splitOn '\n').filterMap keyValue? ≠ [] := by
    simp [IsTelling, List.filterMap_eq_nil_iff, keyValue?_eq_none_iff]
  have hfold := foldl_takeLine arch (block.splitOn '\n')
  rw [block?, hlines]
  generalize (block.splitOn '\n').filterMap keyValue? = told at htelling hfold
  cases told with
  | nil => exact ⟨nofun, fun h ↦ absurd rfl (htelling.mp h.1.isTelling)⟩
  | cons p told =>
    dsimp only
    rw [hfold, Option.some.injEq, summary_eq_iff]
    constructor
    · rintro ⟨hpackage, hcpu⟩
      exact ⟨⟨htelling.mpr (List.cons_ne_nil _ _), hpackage⟩, hcpu⟩
    · rintro ⟨h, hcpu⟩
      exact ⟨h.package, hcpu⟩

/-- A block tells of a package, whatever it says of the processor. -/
theorem any_block?_iff : (block? arch block).any (·.1 = n) = true ↔ TellsOf block n := by
  rw [Option.any_eq_true]
  constructor
  · rintro ⟨⟨n', cpu⟩, hblock, hn⟩
    obtain rfl : n' = n := of_decide_eq_true hn
    exact (block?_eq_some_iff.mp hblock).1
  · intro h
    obtain ⟨-, cpu, -, hcpu⟩ := exists_describes arch block
    exact ⟨(n, cpu), block?_eq_some_iff.mpr ⟨h, hcpu⟩, decide_eq_true rfl⟩

/-! ## Packages -/

section Packages

variable {b e : Nat × CpuInfo} {es l : List (Nat × CpuInfo)}

/-- An entry is made, unless there is one for its package. -/
theorem mem_enter (h : es.Pairwise (·.1 < ·.1)) :
    e ∈ enter b es ↔ e ∈ es ∨ e = b ∧ ∀ e' ∈ es, e'.1 ≠ b.1 := by
  induction es with
  | nil => simp [enter]
  | cons e' es ih =>
    rw [enter]
    split_ifs with heq hlt
    · simp [heq]
    · have hother : ∀ x ∈ e' :: es, x.1 ≠ b.1 := List.forall_mem_cons.mpr
        ⟨Ne.symm heq, fun x hx ↦ Nat.ne_of_gt (hlt.trans (List.rel_of_pairwise_cons h hx))⟩
      rw [List.mem_cons, or_comm, and_iff_left hother]
    · rw [List.mem_cons, ih h.of_cons, List.mem_cons, List.forall_mem_cons, or_assoc,
        and_iff_right (Ne.symm heq)]

theorem pairwise_enter (h : es.Pairwise (·.1 < ·.1)) (b : Nat × CpuInfo) :
    (enter b es).Pairwise (·.1 < ·.1) := by
  induction es with
  | nil => exact List.pairwise_singleton _ _
  | cons e es ih =>
    rw [enter]
    split_ifs with heq hlt
    · exact h
    · refine h.cons fun e' he' ↦ ?_
      rcases List.mem_cons.mp he' with rfl | he'
      · exact hlt
      · exact hlt.trans (List.rel_of_pairwise_cons h he')
    · refine (ih h.of_cons).cons fun e' he' ↦ ?_
      rcases (mem_enter h.of_cons).mp he' with he' | ⟨rfl, -⟩
      · exact List.rel_of_pairwise_cons h he'
      · exact lt_of_le_of_ne (Nat.not_lt.mp hlt) (Ne.symm heq)

theorem pairwise_foldl_enter (l : List (Nat × CpuInfo)) :
    (l.foldl (fun es b ↦ enter b es) []).Pairwise (·.1 < ·.1) := by
  induction l using List.reverseRecOn with
  | nil => exact List.Pairwise.nil
  | append_singleton l b ih =>
    rw [List.foldl_append]
    exact pairwise_enter ih b

/-- **The first of a package holds**, wherever the others stand. -/
theorem mem_foldl_enter :
    e ∈ l.foldl (fun es b ↦ enter b es) [] ↔ l.find? (·.1 = e.1) = some e := by
  induction l using List.reverseRecOn generalizing e with
  | nil => simp
  | append_singleton l b ih =>
    have hnone : (∀ e' ∈ l.foldl (fun es b ↦ enter b es) [], e'.1 ≠ b.1) ↔
        l.find? (·.1 = b.1) = none := by
      constructor
      · refine fun hnone ↦ Option.eq_none_iff_forall_ne_some.mpr fun e' hfound ↦ ?_
        have he' : e'.1 = b.1 := by simpa using List.find?_some hfound
        rw [← he'] at hfound
        exact hnone e' (ih.mpr hfound) he'
      · intro hnone e' he' heq
        rw [ih, heq, hnone] at he'
        cases he'
    -- the last one is entered if none of those before it has its package
    rw [List.foldl_append, List.foldl_cons, List.foldl_nil, mem_enter (pairwise_foldl_enter l), ih,
      hnone, List.find?_append, Option.or_eq_some_iff]
    refine or_congr_right ⟨?_, ?_⟩
    · rintro ⟨rfl, hnone⟩
      exact ⟨hnone, by simp⟩
    · rintro ⟨hnone, hb⟩
      have heq : e = b := List.mem_singleton.mp (List.mem_of_find?_eq_some hb)
      exact ⟨heq, heq ▸ hnone⟩

end Packages

/-! ## Processors -/

/-- The packages that blocks tell of: each once, in ascending order, with the processor that the
first block describes that tells of the package. -/
structure Groups (arch : String) (bs : List (List Char)) (packages : List (Nat × CpuInfo)) :
    Prop where
  ascending : (packages.map (·.1)).Pairwise (· < ·)
  told : ∀ n, n ∈ packages.map (·.1) ↔ ∃ b ∈ bs, TellsOf b n
  first : ∀ n cpu, (n, cpu) ∈ packages → ∃ before b after, bs = before ++ b :: after ∧
    (∀ b' ∈ before, ¬ TellsOf b' n) ∧ TellsOf b n ∧ Describes arch b cpu

/-- The processors that blocks list: one for every package, or one of which nothing is told if the
blocks tell nothing. -/
inductive Lists (arch : String) (bs : List (List Char)) : List CpuInfo → Prop where
  | nothing (h : ∀ b ∈ bs, ¬ IsTelling b) : Lists arch bs [defaultCpu arch]
  | packages {packages : List (Nat × CpuInfo)} (h : ∃ b ∈ bs, IsTelling b)
      (hpackages : Groups arch bs packages) : Lists arch bs (packages.map (·.2))

/-- Of the blocks that tell of a package one is the first. -/
theorem exists_first_tellsOf (h : ∃ b ∈ bs, TellsOf b n) : ∃ before b after,
    bs = before ++ b :: after ∧ (∀ b' ∈ before, ¬ TellsOf b' n) ∧ TellsOf b n := by
  classical
  obtain ⟨b, hb, htells⟩ := h
  have hfound : (bs.find? (TellsOf · n)).isSome = true :=
    List.find?_isSome.mpr ⟨b, hb, decide_eq_true htells⟩
  obtain ⟨b, hb⟩ := Option.isSome_iff_exists.mp hfound
  obtain ⟨hfirst, before, after, hbs, hbefore⟩ := List.find?_eq_some_iff_append.mp hb
  exact ⟨before, b, after, hbs, fun b' hb' ↦ by simpa using hbefore b' hb',
    of_decide_eq_true hfirst⟩

/-- **The packages that are entered**, and what is known of their processors. -/
theorem mem_packages_iff :
    (n, cpu) ∈ (bs.filterMap (block? arch)).foldl (fun es b ↦ enter b es) [] ↔
      ∃ before b after, bs = before ++ b :: after ∧ (∀ b' ∈ before, ¬ TellsOf b' n) ∧
        TellsOf b n ∧ Describes arch b cpu := by
  rw [mem_foldl_enter, List.find?_filterMap, Option.bind_eq_some_iff]
  simp only [List.find?_eq_some_iff_append, Bool.not_eq_true', ← Bool.not_eq_true, any_block?_iff,
    block?_eq_some_iff]
  constructor
  · rintro ⟨b, ⟨-, before, after, hbs, hbefore⟩, htells, hcpu⟩
    exact ⟨before, b, after, hbs, hbefore, htells, hcpu⟩
  · rintro ⟨before, b, after, hbs, hbefore, htells, hcpu⟩
    exact ⟨b, ⟨htells, before, after, hbs, hbefore⟩, htells, hcpu⟩

theorem groups_foldl_enter (arch : String) (bs : List (List Char)) :
    Groups arch bs ((bs.filterMap (block? arch)).foldl (fun es b ↦ enter b es) []) where
  ascending := (pairwise_foldl_enter _).map _ fun _ _ h ↦ h
  told n := by
    rw [List.mem_map]
    constructor
    · rintro ⟨⟨n, cpu⟩, hmem, rfl⟩
      obtain ⟨before, b, after, rfl, -, htells, -⟩ := mem_packages_iff.mp hmem
      exact ⟨b, by simp, htells⟩
    · intro htold
      obtain ⟨before, b, after, hbs, hbefore, htells⟩ := exists_first_tellsOf htold
      obtain ⟨-, cpu, -, hcpu⟩ := exists_describes arch b
      exact ⟨(n, cpu), mem_packages_iff.mpr ⟨before, b, after, hbs, hbefore, htells, hcpu⟩, rfl⟩
  first _ _ := mem_packages_iff.mp

theorem lists_cpusOf (arch text : String) : Lists arch (blocks text.toList) (cpusOf arch text) := by
  have hgroups := groups_foldl_enter arch (blocks text.toList)
  rw [cpusOf]
  generalize ((blocks text.toList).filterMap (block? arch)).foldl (fun es b ↦ enter b es) [] =
    packages at hgroups
  cases packages with
  | nil =>
    refine .nothing fun b hb htelling ↦ ?_
    obtain ⟨n, htells⟩ := htelling.exists_tellsOf
    cases (hgroups.told n).mpr ⟨b, hb, htells⟩
  | cons e es =>
    obtain ⟨b, hb, htells⟩ := (hgroups.told e.1).mp List.mem_cons_self
    exact .packages ⟨b, hb, htells.isTelling⟩ hgroups

theorem cpusOf_ne_nil (arch text : String) : cpusOf arch text ≠ [] := by
  unfold cpusOf
  split
  · exact List.cons_ne_nil _ _
  · rename_i hne
    exact fun h ↦ hne (List.map_eq_nil_iff.mp h)

/-- **The processors that are read** from a file, whatever text is in it. -/
theorem lists_cpus {d : Disk} {p : Path} {text : String} (h : d.readText p = .ok text)
    (arch : String) : cpus arch d p ≠ [] ∧ ∃ bs, (∀ bs', Divides text.toList bs' ↔ bs' = bs) ∧
      Lists arch bs (cpus arch d p) := by
  rw [cpus, h]
  exact ⟨cpusOf_ne_nil arch text, blocks text.toList, fun bs' ↦ divides_iff.trans eq_comm,
    lists_cpusOf arch text⟩

/-- Two packages, the second one told of first and twice, and the other without its number. The
last block tells nothing. -/
def twoPackages : String :=
  "physical id : 1\nmodel name\t: A72\n\n\nmodel name: A53\ncpu cores: 4\ncpu cores: four\n\n" ++
    "physical id: 1\n\nend\n"

/-- The disk on which a file has this content. -/
def hardwareDisk (content : List UInt8) : Disk where
  entries := ⟨[(["cpuinfo"], .file content)]⟩

theorem lists_cpus_twoPackages :
    (hardwareDisk (Text.Utf8.encode twoPackages)).readText "cpuinfo" = .ok twoPackages ∧
      ∃ bs, Divides twoPackages.toList bs ∧ bs.length = 4 ∧ Lists "arm" bs
        [{ modelName := "A53", numCores := 1, numThreads := 1, arch := "arm" },
          { modelName := "A72", numCores := 1, numThreads := 1, arch := "arm" }] := by
  have hfind : ∀ content,
      (hardwareDisk content).find .read "cpuinfo" = .ok (some (.file content)) := fun _ ↦ rfl
  have hread : (hardwareDisk (Text.Utf8.encode twoPackages)).readText "cpuinfo" =
      .ok twoPackages :=
    Disk.readText_eq_ok_iff.mpr ⟨_, hfind _, Text.Utf8.decode_encode twoPackages⟩
  have hcpus : cpusOf "arm" twoPackages =
      [{ modelName := "A53", numCores := 1, numThreads := 1, arch := "arm" },
        { modelName := "A72", numCores := 1, numThreads := 1, arch := "arm" }] := by
    decide +kernel
  obtain ⟨-, bs, hdivides, hlists⟩ := lists_cpus hread "arm"
  have hbs : bs = blocks twoPackages.toList :=
    ((hdivides _).mp (divides_blocks twoPackages.toList)).symm
  rw [cpus, hread] at hlists
  refine ⟨hread, bs, (hdivides bs).mpr rfl, ?_, hcpus ▸ hlists⟩
  rw [hbs]
  decide +kernel

end NodeAgent.Hardware
