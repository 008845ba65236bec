import Mathlib.Data.List.Forall2
import Shellwright.Proofs.Settings.RoundTrip
import Shellwright.Tool.Task
/-!
# Codes of rules

A code is four decimal digits after an optional SC in either case. A list of entries that are all codes is
brought into canonical form: each number once, in the order in which the numbers occur first, written with
four digits of ASCII after an upper case SC. A list with any other entry is refused. What has been brought
into this form stays as it is, also on the way through the command line of the linter.

There are digits of other scripts, and those are kept as they are written. Canonical are the codes only of
entries that hold none.
-/

namespace Shellwright

/-! ## Parts between separators -/

namespace Text

theorem cutAt_eq_splitOn (separator : Char) (cs : List Char) : cutAt separator cs = cs.splitOn separator := by
  induction cs with
  | nil => rfl
  | cons c rest ih =>
      have hcons : consFirst c (cutAt separator rest) = (cutAt separator rest).modifyHead (c :: ·) := by
        cases hcut : cutAt separator rest with
        | nil => exact absurd hcut (cutAt_ne_nil separator rest)
        | cons first others => rfl
      rw [cutAt, hcons, ih]
      simp only [List.splitOn, List.splitOnP_cons_eq_if_modifyHead, beq_iff_eq]

/-- Joining parts that hold no separator and cutting at the separator are inverse to one another. -/
theorem cutAt_intercalate {separator : Char} {parts : List (List Char)} (nonempty : parts ≠ [])
    (free : ∀ p ∈ parts, separator ∉ p) : cutAt separator ([separator].intercalate parts) = parts := by
  rw [cutAt_eq_splitOn]
  exact List.splitOn_intercalate separator free nonempty

/-! ## Digits -/

theorem digitValue?_of_isDigit {c : Char} (ascii : c.isDigit = true) : digitValue? c = some (c.toNat - 48) := by
  obtain ⟨hlow, hhigh⟩ : 48 ≤ c.toNat ∧ c.toNat ≤ 57 := Char.isDigit_iff_toNat.1 ascii
  have hzero : digitZeros.find? (fun z => z ≤ c.toNat && c.toNat < z + 10) = some 48 := by
    rw [show digitZeros = 48 :: digitZeros.tail from rfl]
    apply List.find?_cons_of_pos
    simp only [Bool.and_eq_true, decide_eq_true_eq]
    omega
  rw [digitValue?, hzero, Option.map_some]

theorem isDigit_of_ascii {c : Char} (ascii : c.isDigit = true) : isDigit c = true := by
  rw [isDigit, digitValue?_of_isDigit ascii]
  rfl

theorem digitsValue_concat (cs : List Char) (c : Char) :
    digitsValue (cs ++ [c]) = 10 * digitsValue cs + (digitValue? c).getD 0 := by
  rw [digitsValue, List.foldl_append]
  rfl

/-- Digits of ASCII in the same number of places write the same number only if they are the same. -/
theorem digitsValue_inj {cs ds : List Char} (hcs : ∀ c ∈ cs, c.isDigit = true)
    (hds : ∀ d ∈ ds, d.isDigit = true) (length : cs.length = ds.length)
    (h : digitsValue cs = digitsValue ds) : cs = ds := by
  induction cs using List.reverseRecOn generalizing ds with
  | nil => exact (List.length_eq_zero_iff.1 length.symm).symm
  | append_singleton cs c ih =>
      obtain rfl | ⟨ds, d, rfl⟩ := List.eq_nil_or_concat' ds
      · simp at length
      · obtain ⟨hcs, hc⟩ := List.forall_mem_append.1 hcs
        obtain ⟨hds, hd⟩ := List.forall_mem_append.1 hds
        have hc := hc c (List.mem_singleton_self c)
        have hd := hd d (List.mem_singleton_self d)
        simp only [List.length_append, List.length_singleton, Nat.add_right_cancel_iff] at length
        simp only [digitsValue_concat, digitValue?_of_isDigit hc, digitValue?_of_isDigit hd,
          Option.getD_some] at h
        obtain ⟨hclow, hchigh⟩ : 48 ≤ c.toNat ∧ c.toNat ≤ 57 := Char.isDigit_iff_toNat.1 hc
        obtain ⟨hdlow, hdhigh⟩ : 48 ≤ d.toNat ∧ d.toNat ≤ 57 := Char.isDigit_iff_toNat.1 hd
        -- The last digits are the remainders by ten, and the others write the quotients.
        have hlast : c.toNat = d.toNat := by omega
        have hfirst : digitsValue cs = digitsValue ds := by omega
        rw [ih hcs hds length hfirst, Char.toNat_inj.1 hlast]

end Text

/-! ## Lists without repetitions -/

section

variable {α β : Type} [BEq α] [LawfulBEq α] [BEq β] [LawfulBEq β]

/-- A function that tells the members of a list apart keeps the order in which they occur first. -/
theorem eraseDups_map {f : α → β} {xs : List α} (apart : ∀ a ∈ xs, ∀ b ∈ xs, f a = f b → a = b) :
    (xs.map f).eraseDups = xs.eraseDups.map f := by
  induction hlength : xs.length using Nat.strong_induction_on generalizing xs with
  | _ n ih =>
      subst hlength
      cases xs with
      | nil => rfl
      | cons x rest =>
          have hkept : (rest.map f).filter (fun b => !b == f x) = (rest.filter fun a => !a == x).map f := by
            rw [List.filter_map]
            congr 1
            apply List.filter_congr
            intro a ha
            have hiff : f a = f x ↔ a = x :=
              ⟨apart a (List.mem_cons_of_mem x ha) x List.mem_cons_self, congrArg f⟩
            have hsame : (f a == f x) = (a == x) := by rw [Bool.eq_iff_iff, beq_iff_eq, beq_iff_eq, hiff]
            simp [hsame]
          have hshort : (rest.filter fun a => !a == x).length < (x :: rest).length :=
            Nat.lt_succ_of_le (List.length_filter_le _ rest)
          have hsub : ∀ a ∈ rest.filter (fun a => !a == x), a ∈ x :: rest :=
            fun a ha => List.mem_cons_of_mem x (List.mem_of_mem_filter ha)
          rw [List.map_cons, List.eraseDups_cons, List.eraseDups_cons, List.map_cons, hkept,
            ih _ hshort (fun a ha b hb => apart a (hsub a ha) b (hsub b hb)) rfl]

theorem eraseDups_concat (xs : List α) (x : α) :
    (xs ++ [x]).eraseDups = if xs.eraseDups.contains x then xs.eraseDups else xs.eraseDups ++ [x] := by
  rw [List.eraseDups_append]
  by_cases h : x ∈ xs <;> simp [List.removeAll, List.eraseDups_cons, h]

end

namespace RuleCode

/-! ## Spellings -/

/-- Nothing, or an S and a C in either case; a long s is a lower case S too. -/
inductive Letters : List Char → Prop
  | none : Letters []
  | both {s c : Char} (hs : s ∈ ['S', 's', 'ſ']) (hc : c ∈ ['C', 'c']) : Letters [s, c]

/-- Without the blanks around it, the text is four decimal digits after optional letters. -/
structure Spells (text : String) (digits : List Char) : Prop where
  letters : ∃ sc, Letters sc ∧ Text.trim text.toList = sc ++ digits
  decimal : ∀ d ∈ digits, Text.isDigit d = true
  four : digits.length = 4

/-- The code with certain digits. -/
def withDigits (digits : List Char) : String :=
  String.ofList ('S' :: 'C' :: digits)

theorem isS_iff {c : Char} : isS c = true ↔ c ∈ ['S', 's', 'ſ'] := by
  have hlong : c.toNat = 0x17F ↔ c = 'ſ' := Char.toNat_inj (d := 'ſ')
  simp only [isS, Bool.or_eq_true, beq_iff_eq, hlong, List.mem_cons, List.not_mem_nil, or_false, or_assoc]

theorem isC_iff {c : Char} : isC c = true ↔ c ∈ ['C', 'c'] := by
  simp [isC]

theorem exists_letters (cs : List Char) : ∃ sc, Letters sc ∧ cs = sc ++ withoutLetters cs := by
  unfold withoutLetters
  split
  · rename_i s c rest
    split
    · rename_i hletters
      obtain ⟨hs, hc⟩ := Bool.and_eq_true_iff.1 hletters
      exact ⟨[s, c], .both (isS_iff.1 hs) (isC_iff.1 hc), rfl⟩
    · exact ⟨[], .none, rfl⟩
  · exact ⟨[], .none, rfl⟩

/-- No letter of a code is a digit. -/
theorem isS_of_isDigit {c : Char} (decimal : Text.isDigit c = true) : isS c = false := by
  refine Bool.eq_false_iff.2 fun hs => ?_
  have hletters : ['S', 's', 'ſ'].all (fun s => !Text.isDigit s) = true := by decide
  have hsolid := List.all_eq_true.1 hletters c (isS_iff.1 hs)
  rw [decimal] at hsolid
  cases hsolid

theorem withoutLetters_append {sc digits : List Char} (letters : Letters sc)
    (decimal : ∀ d ∈ digits, Text.isDigit d = true) : withoutLetters (sc ++ digits) = digits := by
  cases letters with
  | none =>
      cases digits with
      | nil => rfl
      | cons d digits =>
          cases digits with
          | nil => rfl
          | cons e digits =>
              have hd : isS d = false := isS_of_isDigit (decimal d List.mem_cons_self)
              simp [withoutLetters, hd]
  | both hs hc =>
      simp [withoutLetters, isS_iff.2 hs, isC_iff.2 hc]

/-- Texts that spell a code are read, and no others. -/
theorem ofText?_eq_some_iff {text code : String} :
    ofText? text = some code ↔ ∃ digits, Spells text digits ∧ code = withDigits digits := by
  unfold ofText?
  simp only [Option.ite_none_right_eq_some, Bool.and_eq_true, decide_eq_true_eq, List.all_eq_true,
    Option.some.injEq]
  constructor
  · rintro ⟨⟨hfour, hdecimal⟩, rfl⟩
    exact ⟨_, ⟨exists_letters _, hdecimal, hfour⟩, rfl⟩
  · rintro ⟨digits, ⟨⟨sc, hletters, htrim⟩, hdecimal, hfour⟩, rfl⟩
    rw [htrim, withoutLetters_append hletters hdecimal]
    exact ⟨⟨hfour, hdecimal⟩, rfl⟩

/-- A text spells one code at most. -/
theorem Spells.eq {text : String} {digits : List Char} (h : Spells text digits) :
    withoutLetters (Text.trim text.toList) = digits := by
  obtain ⟨sc, hletters, htrim⟩ := h.letters
  rw [htrim, withoutLetters_append hletters h.decimal]

theorem withDigits_inj {digits digits' : List Char} (h : withDigits digits = withDigits digits') :
    digits = digits' := by
  have hlist := congrArg String.toList h
  rw [withDigits, withDigits, String.toList_ofList, String.toList_ofList] at hlist
  injection hlist with _ hlist
  injection hlist

/-! ## Entries -/

theorem Letters.length_le {sc : List Char} (h : Letters sc) : sc.length ≤ 2 := by
  cases h <;> simp

/-- What comes first in the spelling of a code is a letter or a digit. -/
theorem Spells.first {text : String} {digits cs : List Char} {c : Char} (h : Spells text digits)
    (starts : text.toList = c :: cs) (solid : Text.isBlank c = false) :
    c ∈ ['S', 's', 'ſ'] ∨ Text.isDigit c = true := by
  obtain ⟨sc, hletters, htrim⟩ := h.letters
  have hstart : Text.trimStart (c :: cs) = c :: cs := List.dropWhile_cons_of_neg (by simp [solid])
  have hprefix : sc ++ digits <+: c :: cs := by
    rw [← htrim, starts, Text.trim, hstart]
    exact Text.isPrefix_trimEnd _
  cases hletters with
  | none =>
      cases digits with
      | nil => cases h.four
      | cons d digits =>
          obtain ⟨rfl, -⟩ := List.cons_prefix_cons.1 hprefix
          exact .inr (h.decimal d List.mem_cons_self)
  | both hs hc =>
      obtain ⟨rfl, -⟩ := List.cons_prefix_cons.1 hprefix
      exact .inl hs

/-- A number is written with an optional sign and its digits. -/
theorem exists_toList_toString (n : Int) : ∃ sign, (∀ c ∈ sign, c = '-') ∧
    (toString n).toList = sign ++ Nat.toDigits 10 n.natAbs := by
  have hdigits (m : Nat) : (Nat.repr m).toList = Nat.toDigits 10 m := by
    rw [Nat.repr, String.toList_ofList]
  cases n with
  | ofNat m => exact ⟨[], nofun, hdigits m⟩
  | negSucc m =>
      refine ⟨['-'], fun c hc => List.mem_singleton.1 hc, ?_⟩
      calc
        (toString (Int.negSucc m)).toList = ("-" ++ Nat.repr (m + 1)).toList := rfl
        _ = "-".toList ++ Nat.toDigits 10 (m + 1) := by rw [String.toList_append, hdigits]

/-- Only small numbers are written as a code is. -/
theorem natAbs_lt_of_spells {n : Int} {digits : List Char} (h : Spells (toString n) digits) :
    n.natAbs < Nat.pow 10 6 := by
  obtain ⟨sign, hsign, htext⟩ := exists_toList_toString n
  have hsolid : ∀ c ∈ sign ++ Nat.toDigits 10 n.natAbs, Text.isBlank c = false := by
    refine List.forall_mem_append.2 ⟨fun c hc => by rw [hsign c hc]; decide, fun c hc => ?_⟩
    have hdigit := Text.isDigit_of_ascii (Nat.isDigit_of_mem_toDigits (by decide) (by decide) hc)
    refine Bool.eq_false_iff.2 fun hblank => ?_
    rw [Text.isDigit_of_isBlank hblank] at hdigit
    cases hdigit
  obtain ⟨sc, hletters, htrim⟩ := h.letters
  rw [htext, Text.trim_of_no_blank hsolid] at htrim
  have hlength := congrArg List.length htrim
  rw [List.length_append, List.length_append, h.four] at hlength
  have hsc := hletters.length_le
  apply (Nat.length_toDigits_le_iff (by omega) (by omega)).1
  omega

/-- An entry that spells a code can be shown. -/
theorem isShort_of_spells {d : Datum} {digits : List Char} (h : Spells d.plain digits) : d.isShort = true := by
  cases d with
  | int n =>
      have hlimit : 6 ≤ Text.digitLimit := by decide
      rw [Datum.isShort, decide_eq_true_eq]
      generalize Text.digitLimit = limit at hlimit
      exact Nat.lt_of_lt_of_le (natAbs_lt_of_spells h) (Nat.pow_le_pow_right (by decide) hlimit)
  | list items =>
      have hstarts : (Datum.list items).plain.toList =
          '[' :: (", ".intercalate (Datum.describeItems items) ++ "]").toList := by
        simp [Datum.plain, Datum.describe]
      exact absurd (h.first hstarts (by decide)) (by decide)
  | table entries =>
      have hstarts : (Datum.table entries).plain.toList =
          '\x7b' :: (", ".intercalate (Datum.describeEntries entries) ++ "\x7d").toList := by
        simp [Datum.plain, Datum.describe]
      exact absurd (h.first hstarts (by decide)) (by decide)
  | null => rfl
  | bool => rfl
  | float => rfl
  | text => rfl
  | moment => rfl

/-- What is said of the first entry that is no code. -/
def refusal (d : Datum) : String :=
  if d.isShort then invalidMessage d else tooLongMessage

/-- The entry is a code. -/
def IsCode (d : Datum) : Prop :=
  ∃ digits, Spells d.plain digits

/-- The digits of an entry that is a code. -/
def digitsOf (d : Datum) : List Char :=
  withoutLetters (Text.trim d.plain.toList)

theorem IsCode.spells {d : Datum} (h : IsCode d) : Spells d.plain (digitsOf d) := by
  obtain ⟨digits, hspells⟩ := h
  rwa [digitsOf, hspells.eq]

theorem collect_cons_of_isCode {d : Datum} (h : IsCode d) (codes : List String) (rest : List Datum) :
    collect codes (d :: rest) = collect (insert codes (withDigits (digitsOf d))) rest := by
  rw [collect, isShort_of_spells h.spells, ofText?_eq_some_iff.2 ⟨_, h.spells, rfl⟩]
  rfl

theorem collect_cons_of_not_isCode {d : Datum} (h : ¬ IsCode d) (codes : List String) (rest : List Datum) :
    collect codes (d :: rest) = .fail (.rule (refusal d)) := by
  have hnone : ofText? d.plain = none := by
    by_contra hsome
    obtain ⟨code, hcode⟩ := Option.ne_none_iff_exists'.1 hsome
    obtain ⟨digits, hspells, -⟩ := ofText?_eq_some_iff.1 hcode
    exact h ⟨digits, hspells⟩
  rw [collect, hnone, refusal]
  cases d.isShort <;> rfl

theorem insert_eraseDups (codes : List String) (code : String) :
    insert codes.eraseDups code = (codes ++ [code]).eraseDups := by
  rw [insert, eraseDups_concat]

/-- The codes of all entries are collected, each where it occurs first. -/
theorem collect_of_codes {items : List Datum} (h : ∀ d ∈ items, IsCode d) (before : List String) :
    collect before.eraseDups items =
      .valid (before ++ items.map fun d => withDigits (digitsOf d)).eraseDups := by
  induction items generalizing before with
  | nil => rw [List.map_nil, List.append_nil, collect]
  | cons d rest ih =>
      obtain ⟨hd, hrest⟩ := List.forall_mem_cons.1 h
      rw [collect_cons_of_isCode hd, insert_eraseDups, ih hrest, List.map_cons, List.append_assoc,
        List.singleton_append]

/-- The first entry that is no code is complained about. -/
theorem collect_of_refused {before after : List Datum} {d : Datum} (clear : ∀ b ∈ before, IsCode b)
    (h : ¬ IsCode d) (codes : List String) :
    collect codes (before ++ d :: after) = .fail (.rule (refusal d)) := by
  induction before generalizing codes with
  | nil => exact collect_cons_of_not_isCode h codes after
  | cons b before ih =>
      obtain ⟨hb, hbefore⟩ := List.forall_mem_cons.1 clear
      rw [List.cons_append, collect_cons_of_isCode hb]
      exact ih hbefore _

/-- Either all entries are codes, or there is a first one that is none. -/
theorem codes_or_refused (items : List Datum) : (∀ d ∈ items, IsCode d) ∨
    ∃ before d after, items = before ++ d :: after ∧ (∀ b ∈ before, IsCode b) ∧ ¬ IsCode d := by
  induction items with
  | nil => exact .inl nofun
  | cons e rest ih =>
      by_cases he : IsCode e
      · rcases ih with hrest | ⟨before, d, after, rfl, hbefore, hd⟩
        · exact .inl (List.forall_mem_cons.2 ⟨he, hrest⟩)
        · exact .inr ⟨e :: before, d, after, rfl, List.forall_mem_cons.2 ⟨he, hbefore⟩, hd⟩
      · exact .inr ⟨[], e, rest, rfl, nofun, he⟩

/-! ## The canonical form -/

/-- The entry is a code with this number. -/
def Denotes (d : Datum) (n : Nat) : Prop :=
  ∃ digits, Spells d.plain digits ∧ Text.digitsValue digits = n

/-- The number of a code that is written with SC. -/
def numberOf (code : String) : Nat :=
  Text.digitsValue (code.toList.drop 2)

/-- All digits of the entry, where it is a code, are digits of ASCII. -/
def IsAscii (d : Datum) : Prop :=
  ∀ digits, Spells d.plain digits → ∀ c ∈ digits, c.isDigit = true

/-- The codes have four digits of ASCII after SC. There is one for each number, and they stand in the order in
which the numbers occur first. -/
structure Canonical (numbers : List Nat) (codes : List String) : Prop where
  form : ∀ code ∈ codes, ∃ digits, digits.length = 4 ∧ (∀ d ∈ digits, d.isDigit = true) ∧
    code = withDigits digits
  distinct : codes.Nodup
  ordered : codes.map numberOf = numbers.eraseDups

theorem numberOf_withDigits (digits : List Char) : numberOf (withDigits digits) = Text.digitsValue digits := by
  rw [numberOf, withDigits, String.toList_ofList]
  rfl

theorem canonical_of_ascii {items : List Datum} (codes : ∀ d ∈ items, IsCode d)
    (ascii : ∀ d ∈ items, IsAscii d) : Canonical (items.map fun d => Text.digitsValue (digitsOf d))
      (items.map fun d => withDigits (digitsOf d)).eraseDups := by
  have hcollect := collect_of_codes codes []
  have hkept : AreKept (items.map fun d => withDigits (digitsOf d)).eraseDups :=
    areKept_of_collect hcollect ⟨nofun, List.nodup_nil⟩
  refine ⟨?_, hkept.distinct, ?_⟩
  · intro code hcode
    obtain ⟨d, hd, rfl⟩ := List.mem_map.1 (List.mem_eraseDups.1 hcode)
    have hspells := (codes d hd).spells
    exact ⟨digitsOf d, hspells.four, ascii d hd _ hspells, rfl⟩
  · have hapart : ∀ a ∈ items.map (fun d => withDigits (digitsOf d)),
        ∀ b ∈ items.map (fun d => withDigits (digitsOf d)), numberOf a = numberOf b → a = b := by
      intro a ha b hb hnumber
      obtain ⟨d, hd, rfl⟩ := List.mem_map.1 ha
      obtain ⟨e, he, rfl⟩ := List.mem_map.1 hb
      rw [numberOf_withDigits, numberOf_withDigits] at hnumber
      have hdspells := (codes d hd).spells
      have hespells := (codes e he).spells
      rw [Text.digitsValue_inj (ascii d hd _ hdspells) (ascii e he _ hespells)
        (hdspells.four.trans hespells.four.symm) hnumber]
    rw [← eraseDups_map hapart]
    simp only [List.map_map, Function.comp_def, numberOf_withDigits]

/-! ## On the command line -/

theorem append_ne_append {a b : String} (ha : 2 < a.toList.length) (hb : 2 < b.toList.length)
    (apart : a.toList[2]? ≠ b.toList[2]?) (s t : String) : a ++ s ≠ b ++ t := by
  intro h
  have hthird := congrArg (fun s => s.toList[2]?) h
  simp only [String.toList_append, List.getElem?_append_left ha, List.getElem?_append_left hb] at hthird
  exact apart hthird

/-- Of all arguments, one excludes codes, and only where there are any. -/
theorem mem_arguments_iff {f : Tool.LintFilter} {value : String} :
    "--exclude=" ++ value ∈ f.arguments ↔ f.exclude ≠ [] ∧ value = ",".intercalate f.exclude := by
  have hseverity (level : String) : "--exclude=" ++ value ≠ "--severity=" ++ level :=
    append_ne_append (by decide) (by decide) (by decide) value level
  have hshell (shell : String) : "--exclude=" ++ value ≠ "--shell=" ++ shell :=
    append_ne_append (by decide) (by decide) (by decide) value shell
  have hexclude : "--exclude=" ++ value = "--exclude=" ++ ",".intercalate f.exclude ↔
      value = ",".intercalate f.exclude := String.append_right_inj _
  unfold Tool.LintFilter.arguments
  by_cases hempty : f.exclude = [] <;> cases f.severity <;> cases f.shell <;>
    simp [hseverity, hshell, hexclude, hempty]

theorem IsCanonical.toList_eq {code : String} (h : IsCanonical code) :
    ∃ digits, (∀ d ∈ digits, Text.isDigit d = true) ∧ code.toList = 'S' :: 'C' :: digits := by
  obtain ⟨digits, hspells, hcode⟩ := ofText?_eq_some_iff.1 h
  exact ⟨digits, hspells.decimal, by rw [hcode, withDigits, String.toList_ofList]⟩

/-- Codes that are kept come apart again where they were joined. -/
theorem parts_intercalate {codes : List String} (h : AreKept codes) : parts (",".intercalate codes) = codes := by
  by_cases hempty : codes = []
  · rw [hempty]
    rfl
  · have hfree : ∀ p ∈ codes.map String.toList, ',' ∉ p := by
      intro p hp hcomma
      obtain ⟨code, hcode, rfl⟩ := List.mem_map.1 hp
      obtain ⟨digits, hdecimal, hlist⟩ := (h.canonical code hcode).toList_eq
      rw [hlist] at hcomma
      simp only [List.mem_cons, Char.reduceEq, false_or] at hcomma
      exact absurd (hdecimal ',' hcomma) (by decide)
    have hsolid : ∀ code ∈ codes, (!Text.isBlankText code) = true := by
      intro code hcode
      obtain ⟨digits, -, hlist⟩ := (h.canonical code hcode).toList_eq
      rw [Text.isBlankText, hlist]
      rfl
    have hcut : Text.cutAt ',' (",".intercalate codes).toList = codes.map String.toList := by
      rw [String.toList_intercalate]
      exact Text.cutAt_intercalate (by simpa using hempty) hfree
    rw [parts, hcut, List.map_map]
    simp only [Function.comp_def, String.ofList_toList, List.map_id']
    exact List.filter_eq_self.2 hsolid

/-- Reading the codes again gives the same, whether as a list or as the command line of the linter has them. -/
structure Stays (codes : List String) : Prop where
  again : Settings.excludeSchema (.ofList .text codes) = .valid codes
  passed : codes ≠ [] → ∀ f : Tool.LintFilter, f.exclude = codes →
    ∃ value, "--exclude=" ++ value ∈ f.arguments
  argument : ∀ f : Tool.LintFilter, f.exclude = codes → ∀ value, "--exclude=" ++ value ∈ f.arguments →
    Settings.excludeSchema (.text value) = .valid codes

theorem stays_of_areKept {codes : List String} (h : AreKept codes) : Stays codes where
  again := Settings.normalizes_exclude.takes h
  passed := by
    rintro hnonempty f rfl
    exact ⟨_, mem_arguments_iff.2 ⟨hnonempty, rfl⟩⟩
  argument := by
    rintro f rfl value hvalue
    obtain ⟨-, rfl⟩ := mem_arguments_iff.1 hvalue
    calc
      Settings.excludeSchema (.text (",".intercalate f.exclude))
          = collect [] ((parts (",".intercalate f.exclude)).map .text) := rfl
      _ = collect [] (f.exclude.map .text) := by rw [parts_intercalate h]
      _ = .valid f.exclude := collect_of_areKept h

/-! ## Reading codes -/

/-- A value that lists certain entries is refused for the first of them that is no code, or, if all are codes,
read in canonical form and for good. -/
inductive Canonizes (d : Datum) (entries : List Datum) : Prop
  | refused {before after : List Datum} {e : Datum} (split : entries = before ++ e :: after)
      (clear : ∀ b ∈ before, IsCode b) (wrong : ¬ IsCode e)
      (refused : Settings.excludeSchema d = .fail (.rule (refusal e)))
  | kept {numbers : List Nat} {codes : List String} (spelled : List.Forall₂ Denotes entries numbers)
      (kept : Settings.excludeSchema d = .valid codes) (canonical : Canonical numbers codes) (stays : Stays codes)

variable {d : Datum} {entries : List Datum}

theorem excludeSchema_eq (lists : entries? d = some entries) :
    Settings.excludeSchema d = collect [] entries := by
  rw [Settings.excludeSchema, lists, Option.getD_some]

theorem excludeSchema_of_codes (lists : entries? d = some entries) (codes : ∀ e ∈ entries, IsCode e) :
    Settings.excludeSchema d = .valid (entries.map fun e => withDigits (digitsOf e)).eraseDups :=
  (excludeSchema_eq lists).trans (collect_of_codes codes [])

/-- A code is kept with the digits that an entry has. -/
theorem Canonizes.ascii (h : Canonizes d entries) (lists : entries? d = some entries)
    (codes : ∀ e ∈ entries, IsCode e) : ∀ e ∈ entries, IsAscii e := by
  intro e he digits hspells
  cases h with
  | @refused before after e split clear wrong =>
      exact absurd (codes e (by rw [split]; simp)) wrong
  | kept spelled kept canonical =>
      rw [excludeSchema_of_codes lists codes] at kept
      cases kept
      have hmember : withDigits digits ∈ (entries.map fun e => withDigits (digitsOf e)).eraseDups := by
        rw [List.mem_eraseDups, ← hspells.eq]
        exact List.mem_map.2 ⟨e, he, rfl⟩
      obtain ⟨digits', -, hascii, hsame⟩ := canonical.form _ hmember
      rwa [withDigits_inj hsame]

/-- Codes are brought into canonical form unless all entries are codes and one is written with digits of another
script. -/
theorem canonizes_iff (lists : entries? d = some entries) :
    Canonizes d entries ↔ ((∀ e ∈ entries, IsCode e) → ∀ e ∈ entries, IsAscii e) := by
  constructor
  · exact fun h => h.ascii lists
  · intro hascii
    rcases codes_or_refused entries with hcodes | ⟨before, e, after, hsplit, hclear, hwrong⟩
    · have hread := excludeSchema_of_codes lists hcodes
      refine .kept ?_ hread (canonical_of_ascii hcodes (hascii hcodes)) ?_
      · rw [List.forall₂_map_right_iff, List.forall₂_same]
        exact fun e he => ⟨digitsOf e, (hcodes e he).spells, rfl⟩
      · exact stays_of_areKept (Settings.normalizes_exclude.gives hread)
    · refine .refused hsplit hclear hwrong ?_
      rw [excludeSchema_eq lists, hsplit]
      exact collect_of_refused hclear hwrong []

theorem isCode_of_isSome {d : Datum} (h : (ofText? d.plain).isSome = true) : IsCode d := by
  obtain ⟨code, hcode⟩ := Option.isSome_iff_exists.1 h
  obtain ⟨digits, hspells, -⟩ := ofText?_eq_some_iff.1 hcode
  exact ⟨digits, hspells⟩

/-- Three codes with blanks around them and an empty part between, one code twice. -/
def commaSeparated : Datum :=
  .text " 2034,, sc2086,SC2034 "

theorem canonizes_commaSeparated :
    entries? commaSeparated = some ([" 2034", " sc2086", "SC2034 "].map .text) ∧
      (Settings.excludeSchema commaSeparated).toOption = some ["SC2034", "SC2086"] ∧
      Canonizes commaSeparated ([" 2034", " sc2086", "SC2034 "].map .text) := by
  have hparts : parts " 2034,, sc2086,SC2034 " = [" 2034", " sc2086", "SC2034 "] := by decide +kernel
  have hlists : entries? commaSeparated = some ([" 2034", " sc2086", "SC2034 "].map .text) :=
    congrArg (fun ps : List String => some (ps.map Datum.text)) hparts
  refine ⟨hlists, by decide +kernel, (canonizes_iff hlists).2 fun _ e he digits hspells => ?_⟩
  have hascii : ∀ text ∈ [" 2034", " sc2086", "SC2034 "],
      (withoutLetters (Text.trim text.toList)).all Char.isDigit = true := by decide +kernel
  obtain ⟨text, htext, rfl⟩ := List.mem_map.1 he
  rw [← hspells.eq]
  exact List.all_eq_true.1 (hascii text htext)

/-- The number of a code in digits of ASCII and in Arabic ones. -/
def twoScripts : List Datum :=
  ["2034", "\u0662\u0660\u0663\u0664"].map .text

/-- Two entries with one number are kept as two codes, of which one has no digits of ASCII. -/
theorem exists_not_canonized :
    ¬ ∀ (d : Datum) (entries : List Datum), entries? d = some entries → Canonizes d entries := by
  intro h
  have hcodes : ∀ e ∈ twoScripts, IsCode e := by
    intro e he
    obtain ⟨text, htext, rfl⟩ := List.mem_map.1 he
    have hread : ∀ text ∈ ["2034", "\u0662\u0660\u0663\u0664"], (ofText? text).isSome = true := by
      decide +kernel
    exact isCode_of_isSome (hread text htext)
  have hlast : Datum.text "\u0662\u0660\u0663\u0664" ∈ twoScripts := List.mem_of_mem_getLast? rfl
  have hascii := (h (.list twoScripts) twoScripts rfl).ascii rfl hcodes _ hlast
  have hfirst := hascii _ (hcodes _ hlast).spells '\u0662' (by decide +kernel)
  revert hfirst
  decide

end RuleCode

end Shellwright
