import Mathlib.Data.List.Basic
import Mathlib.Data.List.TakeWhile
import Shellwright.Output.Pattern
import Shellwright.Proofs.Text.Lines
/-!
# The forms of lines

A line is a finding, a syntax error, a header or a note when it is put together from certain parts. The
readers accept exactly these lines and give the parts back. The name of a file may hold colons, so that
there can be several ways to take a line apart: the one with the shortest name counts.

A line holds no line feed; the readers do more on a text that does.
-/

namespace Shellwright.Output

open Shellwright.Text

/-! ## Parts of a line -/

/-- A number as it is written. -/
def IsNumeral (ds : List Char) : Prop :=
  ds ≠ [] ∧ ∀ d ∈ ds, isDigit d = true

/-- At least one blank. -/
def IsGap (cs : List Char) : Prop :=
  cs ≠ [] ∧ ∀ c ∈ cs, isBlank c = true

/-- A text that does not go on with a character of some class. -/
def Stops (p : Char → Bool) (cs : List Char) : Prop :=
  ∀ c ∈ cs.head?, p c = false

theorem stops_cons {p : Char → Bool} {c : Char} {cs : List Char} : Stops p (c :: cs) ↔ p c = false := by
  simp [Stops]

theorem stops_of_any {p : Char → Bool} {cs : List Char} (h : cs.head?.any p = false) : Stops p cs := by
  intro c hc
  rw [Option.mem_def] at hc
  rwa [hc] at h

theorem stops_dropWhile (p : Char → Bool) (cs : List Char) : Stops p (cs.dropWhile p) := by
  intro c hc
  have hhead := List.head?_dropWhile_not p cs
  rw [Option.mem_def] at hc
  rw [hc] at hhead
  exact hhead

theorem takeWhile_append_of_stops {p : Char → Bool} {ds rest : List Char} (run : ∀ d ∈ ds, p d = true)
    (stop : Stops p rest) : (ds ++ rest).takeWhile p = ds := by
  rw [List.takeWhile_append_of_pos run]
  cases rest with
  | nil => exact List.append_nil ds
  | cons c rest => rw [List.takeWhile_cons_of_neg (by simp [stops_cons.1 stop]), List.append_nil]

theorem dropWhile_append_of_stops {p : Char → Bool} {ds rest : List Char} (run : ∀ d ∈ ds, p d = true)
    (stop : Stops p rest) : (ds ++ rest).dropWhile p = rest := by
  rw [List.dropWhile_append_of_pos run]
  cases rest with
  | nil => rfl
  | cons c rest => exact List.dropWhile_cons_of_neg (by simp [stops_cons.1 stop])

theorem after_eq_some_iff {lead cs rest : List Char} : after lead cs = some rest ↔ cs = lead ++ rest := by
  unfold after
  constructor
  · intro h
    split at h
    · obtain ⟨tail, rfl⟩ := List.isPrefixOf_iff_prefix.1 ‹_›
      rw [List.drop_left, Option.some.injEq] at h
      rw [h]
    · cases h
  · rintro rfl
    rw [if_pos (List.isPrefixOf_iff_prefix.2 (List.prefix_append lead rest)), List.drop_left]

theorem digitRun_eq_some_iff {cs ds rest : List Char} :
    digitRun cs = some (ds, rest) ↔ IsNumeral ds ∧ Stops isDigit rest ∧ cs = ds ++ rest := by
  unfold digitRun
  constructor
  · intro h
    split at h
    · cases h
    · rename_i hne
      cases h
      refine ⟨⟨hne, fun d hd => List.mem_takeWhile_imp hd⟩, stops_dropWhile isDigit cs, ?_⟩
      exact (List.takeWhile_append_dropWhile).symm
  · rintro ⟨⟨hne, hdigits⟩, hstop, rfl⟩
    rw [takeWhile_append_of_stops hdigits hstop, dropWhile_append_of_stops hdigits hstop]
    split
    · exact absurd rfl hne
    · rfl

theorem skipBlanks_eq_some_iff {cs rest : List Char} :
    skipBlanks cs = some rest ↔ Stops isBlank rest ∧ ∃ gap, IsGap gap ∧ cs = gap ++ rest := by
  unfold skipBlanks
  constructor
  · intro h
    split at h
    · cases h
    · rename_i c tail
      split at h
      · cases h
        refine ⟨stops_dropWhile isBlank _, (c :: tail).takeWhile isBlank, ⟨?_, ?_⟩, ?_⟩
        · rw [List.takeWhile_cons_of_pos ‹_›]
          exact List.cons_ne_nil _ _
        · exact fun b hb => List.mem_takeWhile_imp hb
        · exact (List.takeWhile_append_dropWhile).symm
      · cases h
  · rintro ⟨hstop, gap, ⟨hne, hblank⟩, rfl⟩
    have hdrop := dropWhile_append_of_stops hblank hstop
    cases gap with
    | nil => exact absurd rfl hne
    | cons c gap =>
        rw [List.cons_append] at hdrop ⊢
        simp only [hblank c List.mem_cons_self, if_true, hdrop]

theorem coordinates_eq_some_iff {cs line column rest : List Char} :
    coordinates cs = some (line, column, rest) ↔ IsNumeral line ∧ IsNumeral column ∧
      cs = ':' :: line ++ ':' :: column ++ ':' :: ' ' :: rest := by
  have hcolon : ∀ cs, Stops isDigit (':' :: cs) := fun cs => stops_cons.2 (by decide)
  unfold coordinates
  simp only [Option.bind_eq_bind, Option.bind_eq_some_iff, Prod.exists, after_eq_some_iff,
    digitRun_eq_some_iff, Option.pure_def, Option.some.injEq, Prod.mk.injEq]
  constructor
  · rintro ⟨_, rfl, _, _, ⟨hline, -, rfl⟩, _, rfl, _, _, ⟨hcolumn, -, rfl⟩, _, rfl, rfl, rfl, rfl⟩
    exact ⟨hline, hcolumn, by simp⟩
  · rintro ⟨hline, hcolumn, rfl⟩
    exact ⟨_, by simp, line, _, ⟨hline, hcolon _, rfl⟩, _, rfl, column, _, ⟨hcolumn, hcolon _, rfl⟩, rest,
      rfl, rfl, rfl, rfl⟩

theorem levelWord_eq_some_iff {cs word rest : List Char} :
    levelWord cs = some (word, rest) ↔ word ∈ levelWords ∧ cs = word ++ ':' :: ' ' :: rest := by
  unfold levelWord
  constructor
  · intro h
    obtain ⟨w, hw, h⟩ := List.exists_of_findSome?_eq_some h
    obtain ⟨tail, htail, h⟩ := Option.map_eq_some_iff.1 h
    cases h
    rw [after_eq_some_iff] at htail
    exact ⟨hw, by rw [htail, List.append_assoc]; rfl⟩
  · rintro ⟨hword, rfl⟩
    -- No word for a level begins with another one.
    simp only [levelWords, List.mem_cons, List.not_mem_nil, or_false] at hword
    rcases hword with rfl | rfl | rfl | rfl | rfl <;> rfl

theorem splitCode_eq_some_iff {cs message code : List Char} :
    splitCode cs = some (message, code) ↔ ∃ digits, IsNumeral digits ∧ code = 'S' :: 'C' :: digits ∧
      cs = message ++ ' ' :: '[' :: code ++ [']'] := by
  constructor
  · intro h
    unfold splitCode at h
    split at h
    · rename_i reversed hcs
      split at h
      · rename_i d ds reversed' htake hdrop
        cases h
        have hparts : reversed = (d :: ds) ++ 'C' :: 'S' :: '[' :: ' ' :: reversed' := by
          rw [← htake, ← hdrop, List.takeWhile_append_dropWhile]
        refine ⟨(d :: ds).reverse, ⟨by simp, fun c hc => ?_⟩, rfl, ?_⟩
        · rw [List.mem_reverse, ← htake] at hc
          exact List.mem_takeWhile_imp hc
        · rw [← List.reverse_reverse cs, hcs, hparts]
          simp
      · cases h
    · cases h
  · rintro ⟨digits, ⟨hne, hdigits⟩, rfl, rfl⟩
    have hreverse : (message ++ ' ' :: '[' :: ('S' :: 'C' :: digits) ++ [']']).reverse =
        ']' :: (digits.reverse ++ 'C' :: 'S' :: '[' :: ' ' :: message.reverse) := by simp
    have hrun : ∀ d ∈ digits.reverse, isDigit d = true := fun d hd => hdigits d (List.mem_reverse.1 hd)
    have hstop : Stops isDigit ('C' :: 'S' :: '[' :: ' ' :: message.reverse) := stops_cons.2 (by decide)
    unfold splitCode
    rw [hreverse]
    simp only [takeWhile_append_of_stops hrun hstop, dropWhile_append_of_stops hrun hstop]
    split
    · rename_i d ds reversed' htake hdrop
      cases hdrop
      rw [← htake, List.reverse_reverse, List.reverse_reverse]
    · rename_i hnone
      obtain ⟨d, ds, hcons⟩ := List.exists_cons_of_ne_nil (List.reverse_ne_nil_iff.2 hne)
      exact absurd rfl (hnone d ds _ hcons)

theorem withoutFinalFeed_of_not_mem {cs : List Char} (single : '\n' ∉ cs) : withoutFinalFeed cs = cs := by
  unfold withoutFinalFeed
  split
  · rename_i reversed hcs
    have hmem : '\n' ∈ cs.reverse := by rw [hcs]; exact List.mem_cons_self
    exact absurd (List.mem_reverse.1 hmem) single
  · rfl

theorem isOneLine_of_not_mem {cs : List Char} (single : '\n' ∉ cs) : isOneLine cs = true := by
  simpa [isOneLine] using single

/-! ## The first place -/

section FirstPlace

variable {α : Type} {read : List Char → List Char → Option α} {before cs : List Char}

/-- On a single line a reader is tried at every place, from the left. -/
theorem firstPlace_eq_some_iff {a : α} (single : '\n' ∉ cs) : firstPlace read before cs = some a ↔
    ∃ left right, cs = left ++ right ∧ read (left.reverse ++ before) right = some a ∧
      ∀ left' right', cs = left' ++ right' → left'.length < left.length →
        read (left'.reverse ++ before) right' = none := by
  induction cs generalizing before with
  | nil =>
      unfold firstPlace
      constructor
      · exact fun h => ⟨[], [], rfl, h, nofun⟩
      · rintro ⟨left, right, hcs, h, -⟩
        obtain ⟨rfl, rfl⟩ := List.append_eq_nil_iff.1 hcs.symm
        exact h
  | cons c rest ih =>
      rw [List.mem_cons, not_or] at single
      unfold firstPlace
      cases hread : read before (c :: rest) with
      | some b =>
          simp only [Option.some.injEq]
          constructor
          · rintro rfl
            exact ⟨[], c :: rest, rfl, hread, nofun⟩
          · rintro ⟨left, right, hcs, h, hfirst⟩
            cases left with
            | nil =>
                cases hcs
                exact Option.some.inj (hread.symm.trans h)
            | cons d left =>
                have hnone := hfirst [] (c :: rest) rfl (Nat.succ_pos _)
                rw [List.reverse_nil, List.nil_append, hread] at hnone
                cases hnone
      | none =>
          simp only [if_neg (Ne.symm single.1)]
          rw [ih single.2]
          constructor
          · rintro ⟨left, right, rfl, h, hfirst⟩
            refine ⟨c :: left, right, rfl, by simpa using h, fun left' right' hcs hlength => ?_⟩
            cases left' with
            | nil =>
                rw [List.nil_append] at hcs
                rw [List.reverse_nil, List.nil_append, ← hcs]
                exact hread
            | cons d left' =>
                obtain ⟨rfl, hrest⟩ := List.cons.inj hcs
                simpa using hfirst left' right' hrest (Nat.lt_of_succ_lt_succ hlength)
          · rintro ⟨left, right, hcs, h, hfirst⟩
            cases left with
            | nil =>
                rw [List.nil_append] at hcs
                rw [List.reverse_nil, List.nil_append, ← hcs, hread] at h
                cases h
            | cons d left =>
                obtain ⟨rfl, hrest⟩ := List.cons.inj hcs
                refine ⟨left, right, hrest, by simpa using h, fun left' right' hleft hlength => ?_⟩
                simpa using hfirst (c :: left') right' (congrArg (c :: ·) hleft) (Nat.succ_lt_succ hlength)

theorem firstPlace_eq_none_iff (single : '\n' ∉ cs) : firstPlace read before cs = none ↔
    ∀ left right, cs = left ++ right → read (left.reverse ++ before) right = none := by
  induction cs generalizing before with
  | nil =>
      unfold firstPlace
      constructor
      · intro h left right hcs
        obtain ⟨rfl, rfl⟩ := List.append_eq_nil_iff.1 hcs.symm
        exact h
      · exact fun h => h [] [] rfl
  | cons c rest ih =>
      rw [List.mem_cons, not_or] at single
      unfold firstPlace
      constructor
      · intro h left right hcs
        cases hread : read before (c :: rest) with
        | some b =>
            rw [hread] at h
            cases h
        | none =>
            simp only [hread, if_neg (Ne.symm single.1)] at h
            cases left with
            | nil =>
                rw [List.nil_append] at hcs
                rw [List.reverse_nil, List.nil_append, ← hcs]
                exact hread
            | cons d left =>
                obtain ⟨rfl, hrest⟩ := List.cons.inj hcs
                simpa using (ih single.2).1 h left right hrest
      · intro h
        rw [show read before (c :: rest) = none from h [] _ rfl]
        simp only [if_neg (Ne.symm single.1)]
        refine (ih single.2).2 fun left right hcs => ?_
        simpa using h (c :: left) right (congrArg (c :: ·) hcs)

/-- The parts that a reader finds at a place, the text before it being the `file` and the text from it on
the `rest`. -/
def ReadsParts (read : List Char → List Char → Option α) (Valid : α → Prop) (file rest : α → List Char) :
    Prop :=
  ∀ left right a, '\n' ∉ right →
    (read left.reverse right = some a ↔ Valid a ∧ file a = left ∧ rest a = right)

variable {Valid : α → Prop} {file rest : α → List Char}

/-- Of all ways to take a line apart the one with the shortest file is found. -/
theorem ReadsParts.firstPlace_eq_some_iff (parts : ReadsParts read Valid file rest) {a : α}
    (single : '\n' ∉ cs) : firstPlace read [] cs = some a ↔ (Valid a ∧ file a ++ rest a = cs) ∧
      ∀ b, Valid b → file b ++ rest b = cs → (file a).length ≤ (file b).length := by
  have hsuffix : ∀ left right, cs = left ++ right → '\n' ∉ right := by
    rintro left right rfl hright
    exact single (List.mem_append_right left hright)
  rw [Output.firstPlace_eq_some_iff single]
  simp only [List.append_nil]
  constructor
  · rintro ⟨left, right, hcs, h, hfirst⟩
    obtain ⟨hvalid, rfl, rfl⟩ := (parts left right a (hsuffix left right hcs)).1 h
    refine ⟨⟨hvalid, hcs.symm⟩, fun b hb hsplit => ?_⟩
    by_contra hshorter
    have hnone := hfirst (file b) (rest b) hsplit.symm (Nat.lt_of_not_le hshorter)
    rw [(parts _ _ b (hsuffix _ _ hsplit.symm)).2 ⟨hb, rfl, rfl⟩] at hnone
    cases hnone
  · rintro ⟨⟨hvalid, hsplit⟩, hshortest⟩
    refine ⟨file a, rest a, hsplit.symm, (parts _ _ a (hsuffix _ _ hsplit.symm)).2 ⟨hvalid, rfl, rfl⟩, ?_⟩
    intro left right hcs hshorter
    cases h : read left.reverse right with
    | none => rfl
    | some b =>
        obtain ⟨hb, rfl, rfl⟩ := (parts left right b (hsuffix left right hcs)).1 h
        exact absurd hshorter (Nat.not_lt_of_le (hshortest b hb hcs.symm))

theorem ReadsParts.firstPlace_eq_none_iff (parts : ReadsParts read Valid file rest) (single : '\n' ∉ cs) :
    firstPlace read [] cs = none ↔ ∀ a, Valid a → file a ++ rest a ≠ cs := by
  have hsuffix : ∀ left right, cs = left ++ right → '\n' ∉ right := by
    rintro left right rfl hright
    exact single (List.mem_append_right left hright)
  rw [Output.firstPlace_eq_none_iff single]
  simp only [List.append_nil]
  constructor
  · intro h a hvalid hsplit
    have hnone := h (file a) (rest a) hsplit.symm
    rw [(parts _ _ a (hsuffix _ _ hsplit.symm)).2 ⟨hvalid, rfl, rfl⟩] at hnone
    cases hnone
  · intro h left right hcs
    cases hread : read left.reverse right with
    | none => rfl
    | some a =>
        obtain ⟨hvalid, rfl, rfl⟩ := (parts left right a (hsuffix left right hcs)).1 hread
        exact absurd hcs.symm (h a hvalid)

end FirstPlace

/-! ## Findings -/

/-- What follows the file: `:line:column: level: message [SC0000]`. -/
def FindingLine.remainder (l : FindingLine) : List Char :=
  ':' :: l.line ++ ':' :: l.column ++ ':' :: ' ' :: l.level ++ ':' :: ' ' :: l.message ++
    ' ' :: '[' :: l.code ++ [']']

structure FindingLine.WellFormed (l : FindingLine) : Prop where
  file : l.file ≠ []
  line : IsNumeral l.line
  column : IsNumeral l.column
  level : l.level ∈ levelWords
  message : l.message ≠ []
  code : ∃ digits, IsNumeral digits ∧ l.code = 'S' :: 'C' :: digits

/-- The line has the form of a finding: `file:line:column: level: message [SC0000]`. -/
def FindingLine.Spells (l : FindingLine) (cs : List Char) : Prop :=
  l.WellFormed ∧ l.file ++ l.remainder = cs

/-- A finding whose file has been passed over, its last character first. -/
def FindingLine.readAt (file rest : List Char) : Option FindingLine := do
  if file.isEmpty then none
  let (line, column, rest) ← coordinates rest
  let (level, rest) ← levelWord rest
  let (message, code) ← splitCode (withoutFinalFeed rest)
  if message.isEmpty || !isOneLine message then none
  return ⟨file.reverse, line, column, level, message, code⟩

theorem FindingLine.readsParts : ReadsParts FindingLine.readAt FindingLine.WellFormed FindingLine.file
    FindingLine.remainder := by
  intro left right l single
  unfold FindingLine.readAt
  simp only [Option.bind_eq_bind, Option.bind_none, Option.ite_none_left_eq_some, Option.bind_eq_some_iff,
    Prod.exists, coordinates_eq_some_iff, levelWord_eq_some_iff, Option.pure_def, Option.some.injEq,
    List.reverse_reverse]
  constructor
  · rintro ⟨hfile, line, column, _, ⟨hline, hcolumn, rfl⟩, level, tail, ⟨hlevel, rfl⟩, message, code, hcode,
      hmessage, rfl⟩
    have htail : '\n' ∉ tail := fun hmem => single (by simp [hmem])
    rw [withoutFinalFeed_of_not_mem htail, splitCode_eq_some_iff] at hcode
    obtain ⟨digits, hdigits, rfl, rfl⟩ := hcode
    refine ⟨⟨?_, hline, hcolumn, hlevel, ?_, digits, hdigits, rfl⟩, rfl, ?_⟩
    · simpa using hfile
    · rintro rfl
      simp at hmessage
    · simp [FindingLine.remainder]
  · rintro ⟨hl, rfl, rfl⟩
    obtain ⟨digits, hdigits, hcode⟩ := hl.code
    obtain ⟨tail, htail⟩ : ∃ tail, tail = l.message ++ ' ' :: '[' :: l.code ++ [']'] := ⟨_, rfl⟩
    have hremainder : l.remainder = ':' :: l.line ++ ':' :: l.column ++ ':' :: ' ' ::
        (l.level ++ ':' :: ' ' :: tail) := by
      simp [FindingLine.remainder, htail]
    have hsingle : '\n' ∉ tail := by
      intro hmem
      rw [hremainder] at single
      exact single (by simp [hmem])
    refine ⟨by simpa using hl.file, l.line, l.column, _, ⟨hl.line, hl.column, hremainder⟩, l.level, tail,
      ⟨hl.level, rfl⟩, l.message, l.code, ?_, ?_, rfl⟩
    · rw [withoutFinalFeed_of_not_mem hsingle, splitCode_eq_some_iff]
      exact ⟨digits, hdigits, hcode, htail⟩
    · have hmessage : '\n' ∉ l.message := fun hmem => hsingle (by simp [htail, hmem])
      simp [hl.message, isOneLine_of_not_mem hmessage]

theorem FindingLine.read_eq_some_iff {l : FindingLine} {cs : List Char} (single : '\n' ∉ cs) :
    FindingLine.read cs = some l ↔
      l.Spells cs ∧ ∀ l' : FindingLine, l'.Spells cs → l.file.length ≤ l'.file.length := by
  refine (FindingLine.readsParts.firstPlace_eq_some_iff single).trans (and_congr_right fun _ => ?_)
  exact forall_congr' fun l' => and_imp.symm

theorem FindingLine.read_eq_none_iff {cs : List Char} (single : '\n' ∉ cs) :
    FindingLine.read cs = none ↔ ∀ l : FindingLine, ¬ l.Spells cs := by
  refine (FindingLine.readsParts.firstPlace_eq_none_iff single).trans (forall_congr' fun l => ?_)
  exact not_and.symm

/-- A file without a colon ends at the first one. -/
theorem FindingLine.read_of_spells {l : FindingLine} {cs : List Char} (single : '\n' ∉ cs)
    (spells : l.Spells cs) (plain : ':' ∉ l.file) : FindingLine.read cs = some l := by
  refine (FindingLine.read_eq_some_iff single).2 ⟨spells, fun l' spells' => ?_⟩
  by_contra hshorter
  have hsame : l'.file ++ l'.remainder = l.file ++ l.remainder := spells'.2.trans spells.2.symm
  obtain ⟨rest, hfile, hrest⟩ : ∃ rest, l.file = l'.file ++ rest ∧ l'.remainder = rest ++ l.remainder := by
    rcases List.append_eq_append_iff.1 hsame with ⟨rest, hfile, hrest⟩ | ⟨rest, hfile, hrest⟩
    · exact ⟨rest, hfile, hrest⟩
    · have hlength := congrArg List.length hfile
      rw [List.length_append] at hlength
      omega
  cases rest with
  | nil =>
      rw [hfile, List.append_nil] at hshorter
      exact hshorter (Nat.le_refl _)
  | cons c rest =>
      have hcolon : c = ':' := (List.cons.inj hrest).1.symm
      exact plain (by rw [hfile, hcolon]; simp)

/-! ## Syntax errors -/

/-- What follows the file: `:line:column: message`. -/
def ErrorLine.remainder (l : ErrorLine) : List Char :=
  ':' :: l.line ++ ':' :: l.column ++ ':' :: ' ' :: l.message

structure ErrorLine.WellFormed (l : ErrorLine) : Prop where
  line : IsNumeral l.line
  column : IsNumeral l.column
  message : l.message ≠ []

/-- The line has the form of a syntax error: `file:line:column: message`, where the file may be empty. -/
def ErrorLine.Spells (l : ErrorLine) (cs : List Char) : Prop :=
  l.WellFormed ∧ l.file ++ l.remainder = cs

/-- A syntax error whose file has been passed over, its last character first. -/
def ErrorLine.readAt (file rest : List Char) : Option ErrorLine := do
  let (line, column, rest) ← coordinates rest
  let message := withoutFinalFeed rest
  if message.isEmpty || !isOneLine message then none
  return ⟨file.reverse, line, column, message⟩

theorem ErrorLine.readsParts : ReadsParts ErrorLine.readAt ErrorLine.WellFormed ErrorLine.file
    ErrorLine.remainder := by
  intro left right l single
  unfold ErrorLine.readAt
  simp only [Option.bind_eq_bind, Option.bind_none, Option.ite_none_left_eq_some, Option.bind_eq_some_iff,
    Prod.exists, coordinates_eq_some_iff, Option.pure_def, Option.some.injEq, List.reverse_reverse]
  constructor
  · rintro ⟨line, column, rest, ⟨hline, hcolumn, rfl⟩, hmessage, rfl⟩
    have hsingle : '\n' ∉ rest := fun hmem => single (by simp [hmem])
    rw [withoutFinalFeed_of_not_mem hsingle] at hmessage
    refine ⟨⟨hline, hcolumn, ?_⟩, rfl, ?_⟩
    · rw [withoutFinalFeed_of_not_mem hsingle]
      rintro rfl
      simp at hmessage
    · simp [ErrorLine.remainder, withoutFinalFeed_of_not_mem hsingle]
  · rintro ⟨hl, rfl, rfl⟩
    have hsingle : '\n' ∉ l.message := fun hmem => single (by simp [ErrorLine.remainder, hmem])
    refine ⟨l.line, l.column, l.message, ⟨hl.line, hl.column, rfl⟩, ?_, ?_⟩
    · rw [withoutFinalFeed_of_not_mem hsingle]
      simp [hl.message, isOneLine_of_not_mem hsingle]
    · rw [withoutFinalFeed_of_not_mem hsingle]

theorem ErrorLine.read_eq_some_iff {l : ErrorLine} {cs : List Char} (single : '\n' ∉ cs) :
    ErrorLine.read cs = some l ↔
      l.Spells cs ∧ ∀ l' : ErrorLine, l'.Spells cs → l.file.length ≤ l'.file.length := by
  refine (ErrorLine.readsParts.firstPlace_eq_some_iff single).trans (and_congr_right fun _ => ?_)
  exact forall_congr' fun l' => and_imp.symm

theorem ErrorLine.read_eq_none_iff {cs : List Char} (single : '\n' ∉ cs) :
    ErrorLine.read cs = none ↔ ∀ l : ErrorLine, ¬ l.Spells cs := by
  refine (ErrorLine.readsParts.firstPlace_eq_none_iff single).trans (forall_congr' fun l => ?_)
  exact not_and.symm

/-! ## Headers -/

/-- The line has the form of a header: `In file line N:`. -/
structure HeaderLine.Spells (l : HeaderLine) (cs : List Char) : Prop where
  file : l.file ≠ []
  line : IsNumeral l.line
  text : "In ".toList ++ l.file ++ " line ".toList ++ l.line ++ [':'] = cs

theorem HeaderLine.read_eq_some_iff {l : HeaderLine} {cs : List Char} (single : '\n' ∉ cs) :
    HeaderLine.read cs = some l ↔ l.Spells cs := by
  unfold HeaderLine.read
  simp only [Option.bind_eq_bind, Option.bind_eq_some_iff, after_eq_some_iff]
  constructor
  · rintro ⟨rest, rfl, h⟩
    have hsingle : '\n' ∉ rest := fun hmem => single (List.mem_append_right _ hmem)
    rw [withoutFinalFeed_of_not_mem hsingle] at h
    split at h
    · rename_i reversed hrest
      simp only [Option.bind_none, Option.ite_none_left_eq_some, Option.bind_eq_some_iff, Prod.exists,
        digitRun_eq_some_iff, after_eq_some_iff, Option.pure_def, Option.some.injEq] at h
      obtain ⟨line, _, ⟨⟨hne, hdigits⟩, -, rfl⟩, _, rfl, file, rfl, hfile, rfl⟩ := h
      refine ⟨?_, ⟨?_, fun d hd => hdigits d (List.mem_reverse.1 hd)⟩, ?_⟩
      · simp only [Bool.or_eq_true, not_or] at hfile
        simpa using hfile.1
      · simpa using hne
      · rw [← List.reverse_reverse rest, hrest]
        simp
    · cases h
  · rintro ⟨hfile, ⟨hne, hdigits⟩, rfl⟩
    have hsingle : '\n' ∉ l.file ++ " line ".toList ++ l.line ++ [':'] := fun hmem =>
      single (by simpa using hmem)
    have hreverse : (l.file ++ " line ".toList ++ l.line ++ [':']).reverse =
        ':' :: (l.line.reverse ++ ("line ".toList.reverse ++ ([' '] ++ l.file.reverse))) := by simp
    refine ⟨l.file ++ " line ".toList ++ l.line ++ [':'], by simp, ?_⟩
    rw [withoutFinalFeed_of_not_mem hsingle, hreverse]
    simp only [Option.bind_none, Option.ite_none_left_eq_some, Option.bind_eq_some_iff, Prod.exists,
      digitRun_eq_some_iff, after_eq_some_iff, Option.pure_def, Option.some.injEq]
    have hline : IsNumeral l.line.reverse :=
      ⟨by simpa using hne, fun d hd => hdigits d (List.mem_reverse.1 hd)⟩
    have hname : '\n' ∉ l.file := fun hmem => hsingle (by simp [hmem])
    refine ⟨l.line.reverse, _, ⟨hline, stops_cons.2 (by decide), rfl⟩, _, rfl, _, rfl, ?_, ?_⟩
    · have hone : isOneLine l.file.reverse = true := isOneLine_of_not_mem (by simpa using hname)
      simp [hfile, hone]
    · simp

/-! ## Notes -/

/-- What stands between the code and the colon: nothing, or a level in brackets. -/
inductive NoteLine.Marks : Option (List Char) → List Char → Prop
  | bare : NoteLine.Marks none []
  | labelled {gap word : List Char} (blank : IsGap gap) (nonempty : word ≠ [])
      (letters : ∀ c ∈ word, isWord c = true) : NoteLine.Marks (some word) (gap ++ '(' :: word ++ [')'])

/-- The line has the form of a note, `^--^ SC0000 (level): message`, where the mark that the first caret
begins may be of any length and the level may be missing. -/
structure NoteLine.Spells (n : NoteLine) (cs : List Char) : Prop where
  indent : ∀ c ∈ n.indent, isBlank c = true
  code : ∃ digits, IsNumeral digits ∧ n.code = 'S' :: 'C' :: digits
  message : n.message ≠ [] ∧ Stops isBlank n.message
  text : ∃ mark gap level space, (∀ c ∈ mark, c = '-' ∨ c = '^') ∧ IsGap gap ∧
    NoteLine.Marks n.level level ∧ IsGap space ∧
    n.indent ++ '^' :: mark ++ gap ++ n.code ++ level ++ ':' :: space ++ n.message = cs

theorem noteLevel_eq_some_iff {cs word rest : List Char} :
    noteLevel cs = some (word, rest) ↔ ∃ gap, IsGap gap ∧ word ≠ [] ∧ (∀ c ∈ word, isWord c = true) ∧
      cs = gap ++ '(' :: word ++ ')' :: rest := by
  have hstop : Stops isWord (')' :: rest) := stops_cons.2 (by decide)
  unfold noteLevel
  simp only [Option.bind_eq_bind, Option.bind_eq_some_iff, skipBlanks_eq_some_iff, after_eq_some_iff]
  constructor
  · rintro ⟨_, ⟨-, gap, hgap, rfl⟩, cs, rfl, h⟩
    split at h
    · cases h
    · rename_i hne
      simp only [Option.bind_eq_some_iff, after_eq_some_iff, Option.pure_def, Option.some.injEq,
        Prod.mk.injEq] at h
      obtain ⟨rest', hrest, rfl, rfl⟩ := h
      refine ⟨gap, hgap, hne, fun c hc => List.mem_takeWhile_imp hc, ?_⟩
      have hcs : cs = cs.takeWhile isWord ++ ')' :: rest' := by
        rw [show ')' :: rest' = cs.dropWhile isWord from hrest.symm, List.takeWhile_append_dropWhile]
      simp [← hcs]
  · rintro ⟨gap, hgap, hne, hword, rfl⟩
    refine ⟨'(' :: word ++ ')' :: rest, ⟨stops_cons.2 (by decide), gap, hgap, ?_⟩, word ++ ')' :: rest, rfl, ?_⟩
    · rw [List.append_assoc]
    · rw [takeWhile_append_of_stops hword hstop, dropWhile_append_of_stops hword hstop]
      split
      · exact absurd rfl hne
      · rw [after_eq_some_iff.2 (show ')' :: rest = [')'] ++ rest from rfl)]
        rfl

/-- The level, when there is one, and what follows. -/
def optionalLevel (cs : List Char) : Option (List Char) × List Char :=
  match noteLevel cs with
  | some (word, rest) => (some word, rest)
  | none => (none, cs)

theorem optionalLevel_eq_iff {cs rest : List Char} {level : Option (List Char)} :
    optionalLevel cs = (level, ':' :: rest) ↔
      ∃ marks, NoteLine.Marks level marks ∧ cs = marks ++ ':' :: rest := by
  constructor
  · intro h
    unfold optionalLevel at h
    split at h
    · rename_i word rest' hlevel
      cases h
      obtain ⟨gap, hgap, hne, hword, rfl⟩ := noteLevel_eq_some_iff.1 hlevel
      exact ⟨_, .labelled hgap hne hword, by simp⟩
    · cases h
      exact ⟨[], .bare, rfl⟩
  · rintro ⟨marks, hmarks, rfl⟩
    cases hmarks with
    | bare => rfl
    | @labelled gap word hgap hne hword =>
        have hlevel : noteLevel (gap ++ '(' :: word ++ [')'] ++ ':' :: rest) = some (word, ':' :: rest) :=
          noteLevel_eq_some_iff.2 ⟨gap, hgap, hne, hword, by simp⟩
        unfold optionalLevel
        rw [hlevel]

/-- A character of the mark below a piece of source. -/
def isCaretMark (c : Char) : Bool :=
  c == '-' || c == '^'

theorem IsGap.stops_isCaretMark {gap cs : List Char} (h : IsGap gap) : Stops isCaretMark (gap ++ cs) := by
  obtain ⟨c, rest, rfl⟩ := List.exists_cons_of_ne_nil h.1
  have hblank := h.2 c List.mem_cons_self
  rw [List.cons_append, stops_cons]
  exact forall_blank (P := fun c => isCaretMark c = false) (by decide) hblank

theorem NoteLine.Marks.stops_isDigit {level : Option (List Char)} {marks cs : List Char}
    (h : NoteLine.Marks level marks) : Stops isDigit (marks ++ ':' :: cs) := by
  cases h with
  | bare => exact stops_cons.2 (by decide)
  | @labelled gap word hgap _ _ =>
      obtain ⟨c, rest, rfl⟩ := List.exists_cons_of_ne_nil hgap.1
      exact stops_cons.2 (isDigit_of_isBlank (hgap.2 c List.mem_cons_self))

theorem NoteLine.read_eq (cs : List Char) : NoteLine.read cs = do
    let rest ← after ['^'] (cs.dropWhile isBlank)
    let rest ← skipBlanks (rest.dropWhile isCaretMark)
    let rest ← after ['S', 'C'] rest
    let (digits, rest) ← digitRun rest
    let tail ← after [':'] (optionalLevel rest).2
    let message ← skipBlanks tail
    if (withoutFinalFeed message).isEmpty || !isOneLine (withoutFinalFeed message) then none
    return ⟨cs.takeWhile isBlank, 'S' :: 'C' :: digits, (optionalLevel rest).1, withoutFinalFeed message⟩ :=
  rfl

theorem NoteLine.read_eq_some_iff {n : NoteLine} {cs : List Char} (single : '\n' ∉ cs) :
    NoteLine.read cs = some n ↔ n.Spells cs := by
  rw [NoteLine.read_eq]
  simp only [Option.bind_eq_bind, Option.bind_eq_some_iff, Option.bind_none, Option.ite_none_left_eq_some,
    after_eq_some_iff, skipBlanks_eq_some_iff, Prod.exists, digitRun_eq_some_iff, Option.pure_def,
    Option.some.injEq]
  constructor
  · rintro ⟨tail, htail, _, ⟨-, gap, hgap, hmark⟩, _, rfl, digits, rest, ⟨hdigits, -, rfl⟩, _, hcolon, message,
      ⟨hstop, space, hspace, rfl⟩, hmessage, rfl⟩
    obtain ⟨level, hmarks, rfl⟩ := optionalLevel_eq_iff.1 (Prod.ext rfl hcolon)
    have hcs : cs = cs.takeWhile isBlank ++ '^' :: (tail.takeWhile isCaretMark ++ (gap ++
        (['S', 'C'] ++ (digits ++ (level ++ ':' :: (space ++ message)))))) := by
      change tail.dropWhile isCaretMark = gap ++ (['S', 'C'] ++ (digits ++ (level ++ ':' ::
        (space ++ message)))) at hmark
      rw [← hmark, List.takeWhile_append_dropWhile, ← List.singleton_append, ← htail,
        List.takeWhile_append_dropWhile]
    have hsingle : '\n' ∉ message := by
      intro hmem
      rw [hcs] at single
      exact single (by simp [hmem])
    rw [withoutFinalFeed_of_not_mem hsingle] at hmessage ⊢
    refine ⟨fun c hc => List.mem_takeWhile_imp hc, ⟨digits, hdigits, rfl⟩, ⟨?_, hstop⟩, ?_⟩
    · rintro rfl
      simp at hmessage
    · refine ⟨tail.takeWhile isCaretMark, gap, level, space, ?_, hgap, hmarks, hspace, ?_⟩
      · exact fun c hc => by simpa [isCaretMark] using List.mem_takeWhile_imp hc
      · refine Eq.trans ?_ hcs.symm
        simp
  · rintro ⟨hindent, ⟨digits, hdigits, hcode⟩, ⟨hne, hstop⟩, mark, gap, level, space, hmark, hgap, hmarks,
      hspace, rfl⟩
    have hsingle : '\n' ∉ n.message := fun hmem => single (by simp [hmem])
    have hcs : n.indent ++ '^' :: mark ++ gap ++ n.code ++ level ++ ':' :: space ++ n.message =
        n.indent ++ '^' :: (mark ++ (gap ++ (['S', 'C'] ++ (digits ++ (level ++ ':' ::
          (space ++ n.message)))))) := by
      simp [hcode]
    have hcaret {cs : List Char} : Stops isBlank ('^' :: cs) := stops_cons.2 (by decide)
    have hlevel : optionalLevel (level ++ ':' :: (space ++ n.message)) =
        (n.level, ':' :: (space ++ n.message)) :=
      optionalLevel_eq_iff.2 ⟨level, hmarks, rfl⟩
    rw [hcs, takeWhile_append_of_stops hindent hcaret, dropWhile_append_of_stops hindent hcaret]
    refine ⟨_, rfl, _, ⟨?_, gap, hgap, dropWhile_append_of_stops ?_ hgap.stops_isCaretMark⟩, _, rfl,
      digits, _, ⟨hdigits, hmarks.stops_isDigit, rfl⟩, _, congrArg Prod.snd hlevel, n.message,
      ⟨hstop, space, hspace, rfl⟩, ?_, ?_⟩
    · exact stops_cons.2 (by decide)
    · exact fun c hc => by simpa [isCaretMark] using hmark c hc
    · rw [withoutFinalFeed_of_not_mem hsingle]
      simp [hne, isOneLine_of_not_mem hsingle]
    · rw [withoutFinalFeed_of_not_mem hsingle, hlevel, ← hcode]

/-! ## Lines of some form -/

/-- An empty line has none of the forms. -/
theorem matching_eq {α : Type} {read : List Char → Option α} (empty : read [] = none)
    (ls : List (List Char)) : matching read ls [] true = ls.filterMap fun raw => read (trim raw) := by
  unfold matching
  refine List.filterMap_congr fun raw _ => ?_
  by_cases h : trim raw = []
  · simp [h, empty]
  · simp [h]

end Shellwright.Output
