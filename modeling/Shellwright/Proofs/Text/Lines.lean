import Mathlib.Data.List.DropRight
import Mathlib.Data.List.Infix
import Mathlib.Data.List.TakeWhile
import Shellwright.Text.Blank
import Shellwright.Text.Lines
import Shellwright.Text.Word
/-!
# Blanks and lines of a text

No blank is a digit or part of a word. Trimming takes blanks away at the ends and nothing else.

A line holds no line break and stands in the text as it is. A line feed between two texts keeps their
lines apart; where the first text had ended its last line already, there is an empty line more. What is
written line by line is read back line by line, whichever line breaks are used: a carriage return and a
line feed that come together by chance lose an empty line and nothing else.
-/

namespace Shellwright.Text

/-! ## Blanks -/

/-- No range of one table meets a range of the other. -/
def areApart (rs ss : List (Nat × Nat)) : Bool :=
  rs.all fun r => ss.all fun s => Nat.blt r.2 s.1 || Nat.blt s.2 r.1

theorem inRanges_of_areApart {rs ss : List (Nat × Nat)} (apart : areApart rs ss = true) {n : Nat}
    (h : inRanges rs n = true) : inRanges ss n = false := by
  unfold inRanges at h
  obtain ⟨r, hr, hn⟩ := List.any_eq_true.1 h
  refine List.any_eq_false.2 fun s hs hn' => ?_
  have hmeet := List.all_eq_true.1 (List.all_eq_true.1 apart r hr) s hs
  simp only [Bool.and_eq_true, Bool.or_eq_true, decide_eq_true_eq, Nat.blt_eq] at hn hn' hmeet
  omega

/-- The ranges that the blanks lie in. -/
def blankRanges : List (Nat × Nat) :=
  [(9, 13), (28, 32), (0x85, 0x85), (0xA0, 0xA0), (0x1680, 0x1680), (0x2000, 0x200A), (0x2028, 0x2029),
   (0x202F, 0x202F), (0x205F, 0x205F), (0x3000, 0x3000)]

theorem inRanges_blankRanges {c : Char} (blank : isBlank c = true) : inRanges blankRanges c.toNat = true := by
  simp only [isBlank, Bool.or_eq_true, Bool.and_eq_true, decide_eq_true_eq, beq_iff_eq] at blank
  simp only [inRanges, blankRanges, List.any_cons, List.any_nil, Bool.or_eq_true, Bool.and_eq_true,
    decide_eq_true_eq]
  omega

/-- What holds of each of the 29 characters holds of every blank. -/
theorem forall_blank {P : Char → Prop}
    (h : ∀ n ∈ blankRanges.flatMap fun r => List.range' r.1 (r.2 + 1 - r.1), P (Char.ofNat n)) {c : Char}
    (blank : isBlank c = true) : P c := by
  obtain ⟨r, hr, hc⟩ := List.any_eq_true.1 (inRanges_blankRanges blank)
  simp only [Bool.and_eq_true, decide_eq_true_eq] at hc
  have hcode := h c.toNat (List.mem_flatMap.2 ⟨r, hr, List.mem_range'_1.2 (by omega)⟩)
  rwa [Char.ofNat_toNat] at hcode

theorem isDigit_of_isBlank {c : Char} (blank : isBlank c = true) : isDigit c = false :=
  forall_blank (P := fun c => isDigit c = false) (by decide +kernel) blank

theorem isWord_of_isBlank {c : Char} (blank : isBlank c = true) : isWord c = false := by
  unfold isWord
  split
  · exact forall_blank (P := fun c => (c.isAlphanum || c == '_') = false) (by decide +kernel) blank
  · exact inRanges_of_areApart (by decide +kernel) (inRanges_blankRanges blank)

/-! ## Trimming -/

theorem isPrefix_trimEnd (cs : List Char) : trimEnd cs <+: cs := by
  unfold trimEnd
  rw [← List.reverse_suffix, List.reverse_reverse]
  exact List.dropWhile_suffix isBlank

theorem isInfix_trim (cs : List Char) : trim cs <:+: cs :=
  (isPrefix_trimEnd _).isInfix.trans (List.dropWhile_suffix isBlank).isInfix

theorem trim_eq_nil_iff {cs : List Char} : trim cs = [] ↔ ∀ c ∈ cs, isBlank c = true := by
  unfold trim trimEnd trimStart
  rw [List.reverse_eq_nil_iff, List.dropWhile_eq_nil_iff]
  simp only [List.mem_reverse]
  constructor
  · intro hrest c hc
    rw [← List.takeWhile_append_dropWhile (p := isBlank) (l := cs), List.mem_append] at hc
    rcases hc with hc | hc
    · exact List.mem_takeWhile_imp hc
    · exact hrest c hc
  · exact fun h c hc => h c ((List.dropWhile_sublist isBlank).mem hc)

/-- A text is blank when trimming leaves nothing of it. -/
theorem isEmpty_trimmed (s : String) : (trimmed s).isEmpty = isBlankText s := by
  rw [Bool.eq_iff_iff, String.isEmpty_iff]
  unfold trimmed isBlankText
  rw [List.all_eq_true, ← trim_eq_nil_iff]
  constructor
  · intro h
    rw [← String.toList_ofList (l := trim s.toList), h, String.toList_empty]
  · intro h
    rw [h]

theorem trim_of_ends {c d : Char} (first : isBlank c = false) (last : isBlank d = false)
    (cs : List Char) : trim (c :: cs ++ [d]) = c :: cs ++ [d] := by
  have hstart : trimStart (c :: cs ++ [d]) = c :: cs ++ [d] :=
    List.dropWhile_cons_of_neg (by simp [first])
  have hend : ((c :: cs ++ [d]).reverse).dropWhile isBlank = (c :: cs ++ [d]).reverse := by
    rw [List.reverse_append, List.reverse_singleton, List.singleton_append]
    exact List.dropWhile_cons_of_neg (by simp [last])
  unfold trim trimEnd
  rw [hstart, hend, List.reverse_reverse]

theorem trim_of_no_blank {cs : List Char} (solid : ∀ c ∈ cs, isBlank c = false) : trim cs = cs := by
  have hdrop {cs : List Char} (solid : ∀ c ∈ cs, isBlank c = false) : cs.dropWhile isBlank = cs := by
    cases cs with
    | nil => rfl
    | cons c cs => exact List.dropWhile_cons_of_neg (by simp [solid c List.mem_cons_self])
  unfold trim trimEnd trimStart
  rw [hdrop solid, hdrop fun c hc => solid c (List.mem_reverse.1 hc), List.reverse_reverse]

theorem trimStart_trimEnd {cs : List Char} (h : trimStart cs = cs) : trimStart (trimEnd cs) = trimEnd cs := by
  have hbefore := isPrefix_trimEnd cs
  refine List.dropWhile_eq_self_iff.2 fun hpos => ?_
  rw [hbefore.getElem hpos]
  exact List.dropWhile_eq_self_iff.1 h (Nat.lt_of_lt_of_le hpos hbefore.length_le)

/-- What has been trimmed stays as it is. -/
theorem trim_trim (cs : List Char) : trim (trim cs) = trim cs := by
  have hstart : trimStart (trimStart cs) = trimStart cs := List.dropWhile_idempotent isBlank cs
  have hend (cs : List Char) : trimEnd (trimEnd cs) = trimEnd cs := by
    unfold trimEnd
    rw [List.reverse_reverse, List.dropWhile_idempotent]
  unfold trim
  rw [trimStart_trimEnd hstart, hend]

/-! ## One step of cutting into lines -/

theorem lines_nil : lines [] = [] :=
  rfl

theorem lines_return_feed (rest : List Char) : lines ('\r' :: '\n' :: rest) = [] :: lines rest :=
  rfl

/-- A character that does not begin a line break of two characters. -/
theorem lines_apart {c : Char} {rest : List Char} (apart : ∀ rest', c = '\r' → rest = '\n' :: rest' → False) :
    lines (c :: rest) = if isLineBreak c then [] :: lines rest else consFirst c (lines rest) :=
  lines.eq_3 c rest apart

/-- A line break ends a line, unless it is a carriage return before a line feed. -/
theorem lines_break {c : Char} {rest : List Char} (ends : isLineBreak c = true)
    (apart : ∀ rest', c = '\r' → rest = '\n' :: rest' → False) : lines (c :: rest) = [] :: lines rest := by
  rw [lines_apart apart, if_pos ends]

theorem lines_feed (rest : List Char) : lines ('\n' :: rest) = [] :: lines rest :=
  lines_break (by decide) fun _ h => absurd h (by decide)

theorem lines_cons {c : Char} (rest : List Char) (unbroken : isLineBreak c = false) :
    lines (c :: rest) = consFirst c (lines rest) := by
  rw [lines_apart, if_neg (by simp [unbroken])]
  rintro rest' rfl rfl
  exact absurd unbroken (by decide)

/-- Induction on a text as it is cut into lines: it begins with a line break of two characters, with one of
a single character, or with a character that joins the line after it. -/
theorem lines_induction {P : List Char → Prop} (nil : P [])
    (pair : ∀ cs, P cs → P ('\r' :: '\n' :: cs))
    (ends : ∀ c cs, isLineBreak c = true → (∀ rest, c = '\r' → cs = '\n' :: rest → False) → P cs → P (c :: cs))
    (joins : ∀ c cs, isLineBreak c = false → P cs → P (c :: cs)) (cs : List Char) : P cs := by
  induction cs using lines.induct with
  | case1 => exact nil
  | case2 cs ih => exact pair cs ih
  | case3 c cs apart h ih => exact ends c cs h apart ih
  | case4 c cs _ h ih => exact joins c cs (by simpa using h) ih

theorem consFirst_ne_nil (c : Char) (ls : List (List Char)) : consFirst c ls ≠ [] := by
  cases ls with
  | nil => exact List.cons_ne_nil _ _
  | cons line ls => exact List.cons_ne_nil _ _

theorem consFirst_append {c : Char} {first : List (List Char)} (rest : List (List Char))
    (nonempty : first ≠ []) : consFirst c (first ++ rest) = consFirst c first ++ rest := by
  obtain ⟨line, ls, rfl⟩ := List.exists_cons_of_ne_nil nonempty
  rfl

theorem lines_ne_nil {cs : List Char} (nonempty : cs ≠ []) : lines cs ≠ [] := by
  induction cs using lines_induction with
  | nil => exact absurd rfl nonempty
  | pair cs => exact List.cons_ne_nil _ _
  | ends c cs ends apart =>
      rw [lines_break ends apart]
      exact List.cons_ne_nil _ _
  | joins c cs unbroken =>
      rw [lines_cons cs unbroken]
      exact consFirst_ne_nil _ _

/-! ## A text after another -/

/-- A line break that ends a line still does so when the text after it goes on. -/
theorem lines_break_append {c : Char} {cs : List Char} (ends : isLineBreak c = true)
    (apart : ∀ rest, c = '\r' → cs = '\n' :: rest → False) (more : c = '\r' → cs ≠ [])
    (tail : List Char) : lines (c :: (cs ++ tail)) = [] :: lines (cs ++ tail) := by
  refine lines_break ends fun rest hc hcs => ?_
  obtain ⟨d, cs, rfl⟩ := List.exists_cons_of_ne_nil (more hc)
  obtain ⟨rfl, _⟩ := List.cons.inj hcs
  exact apart cs hc rfl

theorem lines_append_feed (cs rest : List Char) :
    lines (cs ++ '\n' :: rest) = lines (cs ++ ['\n']) ++ lines rest := by
  induction cs using lines_induction with
  | nil => simp [lines_feed, lines_nil]
  | pair cs ih => simp only [List.cons_append, lines_return_feed, ih]
  | ends c cs ends apart ih =>
      by_cases hreturn : c = '\r' ∧ cs = []
      · obtain ⟨rfl, rfl⟩ := hreturn
        simp [lines_return_feed, lines_nil]
      · have hmore : c = '\r' → cs ≠ [] := fun hc hcs => hreturn ⟨hc, hcs⟩
        rw [List.cons_append, List.cons_append, lines_break_append ends apart hmore,
          lines_break_append ends apart hmore, ih, List.cons_append]
  | joins c cs unbroken ih =>
      rw [List.cons_append, List.cons_append, lines_cons _ unbroken, lines_cons _ unbroken, ih,
        consFirst_append _ (lines_ne_nil (by simp))]

/-- A line feed at the end of a text ends its last line or adds an empty one. -/
theorem lines_append_last_feed (cs : List Char) :
    lines (cs ++ ['\n']) = lines cs ∨ lines (cs ++ ['\n']) = lines cs ++ [[]] := by
  induction cs using lines_induction with
  | nil =>
      right
      simp [lines_feed, lines_nil]
  | pair cs ih => simpa [lines_return_feed] using ih
  | ends c cs ends apart ih =>
      by_cases hreturn : c = '\r' ∧ cs = []
      · obtain ⟨rfl, rfl⟩ := hreturn
        left
        rw [lines_break ends apart]
        simp [lines_return_feed, lines_nil]
      · have hmore : c = '\r' → cs ≠ [] := fun hc hcs => hreturn ⟨hc, hcs⟩
        rw [List.cons_append, lines_break_append ends apart hmore, lines_break ends apart]
        simpa using ih
  | joins c cs unbroken ih =>
      rw [List.cons_append, lines_cons _ unbroken, lines_cons _ unbroken]
      cases cs with
      | nil =>
          left
          simp [lines_feed, lines_nil, consFirst]
      | cons d cs =>
          rcases ih with ih | ih
          · left
            rw [ih]
          · right
            rw [ih, consFirst_append _ (lines_ne_nil (List.cons_ne_nil d cs))]

/-! ## A line and its end -/

/-- What ends a line: a line break, or a carriage return and a line feed. -/
def IsLineEnd (cs : List Char) : Prop :=
  cs = ['\r', '\n'] ∨ ∃ c, cs = [c] ∧ isLineBreak c = true

theorem isLineEnd_feed : IsLineEnd ['\n'] :=
  .inr ⟨'\n', rfl, by decide⟩

/-- An end ends a line, and the text goes on after it or, when a line feed after a carriage return has become
part of the end, without the empty line that the line feed would have ended. -/
theorem IsLineEnd.lines_append {ending : List Char} (h : IsLineEnd ending) (rest : List Char) :
    ∃ ls, lines (ending ++ rest) = [] :: ls ∧ (lines rest = ls ∨ lines rest = [] :: ls) := by
  rcases h with rfl | ⟨c, rfl, ends⟩
  · exact ⟨lines rest, lines_return_feed rest, .inl rfl⟩
  · by_cases hreturn : c = '\r' ∧ ∃ tail, rest = '\n' :: tail
    · obtain ⟨rfl, tail, rfl⟩ := hreturn
      exact ⟨lines tail, lines_return_feed tail, .inr (lines_feed tail)⟩
    · refine ⟨lines rest, lines_break ends fun tail hc hrest => hreturn ⟨hc, tail, hrest⟩, .inl rfl⟩

theorem unbroken_of_any {cs : List Char} (h : cs.any isLineBreak = false) :
    ∀ c ∈ cs, isLineBreak c = false := by
  simpa using h

theorem lines_line_append {line rest : List Char} (unbroken : ∀ c ∈ line, isLineBreak c = false)
    {ls : List (List Char)} (h : lines rest = [] :: ls) : lines (line ++ rest) = line :: ls := by
  induction line with
  | nil => exact h
  | cons c line ih =>
      rw [List.forall_mem_cons] at unbroken
      rw [List.cons_append, lines_cons _ unbroken.1, ih unbroken.2]
      rfl

theorem lines_unbroken {line : List Char} (unbroken : ∀ c ∈ line, isLineBreak c = false)
    (nonempty : line ≠ []) : lines line = [line] := by
  induction line with
  | nil => exact absurd rfl nonempty
  | cons c line ih =>
      rw [List.forall_mem_cons] at unbroken
      rw [lines_cons _ unbroken.1]
      cases line with
      | nil => simp [lines_nil, consFirst]
      | cons d line =>
          rw [ih unbroken.2 (List.cons_ne_nil _ _)]
          rfl

theorem unbroken_of_mem_lines {cs line : List Char} (h : line ∈ lines cs) :
    ∀ c ∈ line, isLineBreak c = false := by
  induction cs using lines_induction generalizing line with
  | nil => cases h
  | pair cs ih =>
      rcases List.mem_cons.1 h with rfl | h
      · exact nofun
      · exact ih h
  | ends c cs ends apart ih =>
      rw [lines_break ends apart] at h
      rcases List.mem_cons.1 h with rfl | h
      · exact nofun
      · exact ih h
  | joins c cs unbroken ih =>
      rw [lines_cons cs unbroken] at h
      cases hlines : lines cs with
      | nil =>
          rw [hlines, consFirst, List.mem_singleton] at h
          rw [h]
          simpa using unbroken
      | cons first ls =>
          rw [hlines] at h ih
          rcases List.mem_cons.1 h with rfl | h
          · exact List.forall_mem_cons.2 ⟨unbroken, ih List.mem_cons_self⟩
          · exact ih (List.mem_cons_of_mem _ h)

theorem feed_not_mem_of_mem_lines {cs line : List Char} (h : line ∈ lines cs) : '\n' ∉ line :=
  fun hmem => absurd (unbroken_of_mem_lines h _ hmem) (by decide)

theorem feed_not_mem_trim {cs line : List Char} (h : line ∈ lines cs) : '\n' ∉ trim line :=
  fun hmem => feed_not_mem_of_mem_lines h ((isInfix_trim line).mem hmem)

theorem infix_of_mem_lines {cs line : List Char} (h : line ∈ lines cs) : line <:+: cs := by
  -- The first line also stands at the very beginning, and a character before it joins it there.
  suffices hlines : (∀ first ∈ (lines cs).head?, first <+: cs) ∧ ∀ line ∈ lines cs, line <:+: cs from
    hlines.2 line h
  clear h
  induction cs using lines_induction with
  | nil => exact ⟨nofun, nofun⟩
  | pair cs ih =>
      rw [lines_return_feed]
      refine ⟨by simp, List.forall_mem_cons.2 ⟨List.nil_infix, fun line h => ?_⟩⟩
      exact ((ih.2 line h).trans (List.suffix_cons _ _).isInfix).trans (List.suffix_cons _ _).isInfix
  | ends c cs ends apart ih =>
      rw [lines_break ends apart]
      refine ⟨by simp, List.forall_mem_cons.2 ⟨List.nil_infix, fun line h => ?_⟩⟩
      exact (ih.2 line h).trans (List.suffix_cons _ _).isInfix
  | joins c cs unbroken ih =>
      rw [lines_cons cs unbroken]
      cases hlines : lines cs with
      | nil =>
          have hfirst : [c] <+: c :: cs := List.prefix_append [c] cs
          exact ⟨by simp [consFirst], by simpa [consFirst] using hfirst.isInfix⟩
      | cons first ls =>
          rw [hlines] at ih
          have hfirst : c :: first <+: c :: cs := (List.prefix_cons_inj c).2 (ih.1 first rfl)
          refine ⟨by simp [consFirst, hfirst], List.forall_mem_cons.2 ⟨hfirst.isInfix, fun line h => ?_⟩⟩
          exact (ih.2 line (List.mem_cons_of_mem _ h)).trans (List.suffix_cons _ _).isInfix

/-! ## Lines that are read one by one -/

section Reading

variable {α : Type} {read : List Char → Option α}

/-- What is found in two texts with a line feed between them, no matter whether the first one ended its last
line: an empty line holds nothing. -/
theorem filterMap_lines_append_feed (empty : read [] = none) (cs rest : List Char) :
    (lines (cs ++ '\n' :: rest)).filterMap read = (lines cs).filterMap read ++ (lines rest).filterMap read := by
  rw [lines_append_feed, List.filterMap_append]
  rcases lines_append_last_feed cs with h | h
  · rw [h]
  · rw [h, List.filterMap_append]
    simp [empty]

/-- A text that ends with a line feed and the text after it. -/
theorem filterMap_lines_append {cs : List Char} (rest : List Char) (ended : cs.getLast? = some '\n') :
    (lines (cs ++ rest)).filterMap read = (lines cs).filterMap read ++ (lines rest).filterMap read := by
  obtain ⟨front, rfl⟩ := List.getLast?_eq_some_iff.1 ended
  rw [List.append_assoc, List.singleton_append, lines_append_feed, List.filterMap_append]

/-- A line with its end is read before the lines after it. -/
theorem filterMap_lines_line (empty : read [] = none) {line ending : List Char}
    (unbroken : ∀ c ∈ line, isLineBreak c = false) (ends : IsLineEnd ending) (rest : List Char) :
    (lines (line ++ (ending ++ rest))).filterMap read =
      (read line).toList ++ (lines rest).filterMap read := by
  obtain ⟨ls, hend, hrest⟩ := ends.lines_append rest
  have hread : ((lines rest).filterMap read) = ls.filterMap read := by
    rcases hrest with hrest | hrest
    · rw [hrest]
    · rw [hrest, List.filterMap_cons_none empty]
  rw [lines_line_append unbroken hend, hread]
  cases hline : read line with
  | none => exact List.filterMap_cons_none hline
  | some a => exact List.filterMap_cons_some hline

/-- The last line of a text, without an end. -/
theorem filterMap_lines_last (empty : read [] = none) {line : List Char}
    (unbroken : ∀ c ∈ line, isLineBreak c = false) : (lines line).filterMap read = (read line).toList := by
  by_cases hline : line = []
  · rw [hline, lines_nil, empty]
    rfl
  · rw [lines_unbroken unbroken hline]
    cases hread : read line with
    | none => exact List.filterMap_cons_none hread
    | some a => exact List.filterMap_cons_some hread

end Reading

end Shellwright.Text
