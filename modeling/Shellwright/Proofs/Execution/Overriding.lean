import Shellwright.Execution.Options
import Shellwright.Proofs.Keyed
import Shellwright.Proofs.Output.Legible
/-!
# Options over options

Options are told by their names. An override is taken as a whole or refused as a whole; one that is taken
replaces the options that it names and no others, so that of several overrides the last one decides.
-/

namespace Shellwright.Execution

open Output (bind_eq_ok_iff)

/-! ## Options by name -/

inductive OptionName
  | stdin
  | token
  | directory
  | environment
  | timeout
  deriving DecidableEq, Repr

namespace OptionName

def label : OptionName → String
  | .stdin => "stdin"
  | .token => "token"
  | .directory => "cwd"
  | .environment => "env"
  | .timeout => "timeout_ms"

/-- What may be given for an option. Null, which stands for none, always may. -/
inductive Fits {τ : Type} : OptionName → OptionValue τ → Prop
  | none (name : OptionName) : Fits name (.data .null)
  | text (s : String) : Fits .stdin (.data (.text s))
  | token (t : τ) : Fits .token (.token t)
  | path (p : String) : Fits .directory (.path p)
  | texts (entries : List (String × Datum)) (texts : ∀ e ∈ entries, ∃ s, e.2 = .text s) :
      Fits .environment (.data (.table entries))
  | milliseconds (n : Nat) : Fits .timeout (.data (.int n))

end OptionName

variable {τ : Type}

/-- A limit as the value that stands for it. -/
def OptionValue.ofLimit : Option Int → OptionValue τ
  | none => .data .null
  | some n => .data (.int n)

theorem OptionValue.ofLimit_injective : Function.Injective (ofLimit (τ := τ)) := by
  intro a b h
  cases a <;> cases b <;> simp_all [ofLimit]

/-- The option of a name. -/
def Choice.get (o : Choice τ) : OptionName → OptionValue τ
  | .stdin => o.stdin
  | .token => o.token
  | .directory => o.directory
  | .environment => o.environment
  | .timeout => .ofLimit o.timeout

theorem Choice.ext_get {o p : Choice τ} (h : ∀ name, o.get name = p.get name) : o = p := by
  obtain ⟨stdin, token, timeout, directory, environment⟩ := o
  obtain ⟨stdin', token', timeout', directory', environment'⟩ := p
  obtain rfl : stdin = stdin' := h .stdin
  obtain rfl : token = token' := h .token
  obtain rfl : directory = directory' := h .directory
  obtain rfl : environment = environment' := h .environment
  obtain rfl : timeout = timeout' := OptionValue.ofLimit_injective (h .timeout)
  rfl

/-! ## Checks -/

/-- The values that fit the option are read as what they are written for, and no others are read. -/
structure Reads (τ : Type) {α : Type} (name : OptionName) (read : OptionValue τ → Except OptionError α)
    (write : α → OptionValue τ) : Prop where
  injective : Function.Injective write
  iff : ∀ {v a}, read v = .ok a ↔ name.Fits v ∧ write a = v

namespace OptionValue

theorem reads_stdin : Reads τ .stdin checkStdin id where
  injective := Function.injective_id
  iff {v a} := by
    unfold checkStdin
    split
    · simp [OptionName.Fits.none, eq_comm]
    · simp [OptionName.Fits.text, eq_comm]
    · rename_i hnull htext
      refine iff_of_false nofun ?_
      rintro ⟨hfits, -⟩
      cases hfits with
      | none => exact hnull rfl
      | text s => exact htext s rfl

theorem reads_token : Reads τ .token checkToken id where
  injective := Function.injective_id
  iff {v a} := by
    unfold checkToken
    split
    · simp [OptionName.Fits.none, eq_comm]
    · simp [OptionName.Fits.token, eq_comm]
    · rename_i hnull htoken
      refine iff_of_false nofun ?_
      rintro ⟨hfits, -⟩
      cases hfits with
      | none => exact hnull rfl
      | token t => exact htoken t rfl

theorem reads_directory : Reads τ .directory checkDirectory id where
  injective := Function.injective_id
  iff {v a} := by
    unfold checkDirectory
    split
    · simp [OptionName.Fits.none, eq_comm]
    · simp [OptionName.Fits.path, eq_comm]
    · rename_i hnull hpath
      refine iff_of_false nofun ?_
      rintro ⟨hfits, -⟩
      cases hfits with
      | none => exact hnull rfl
      | path p => exact hpath p rfl

theorem isText_iff {d : Datum} : isText d = true ↔ ∃ s, d = .text s := by
  cases d <;> simp [isText]

theorem fits_environment_iff {entries : List (String × Datum)} :
    OptionName.Fits .environment (.data (.table entries) : OptionValue τ) ↔
      entries.all (isText ·.2) = true := by
  rw [List.all_eq_true]
  constructor
  · rintro ⟨⟩ e he
    rename_i htexts
    exact isText_iff.2 (htexts e he)
  · exact fun hall => .texts entries fun e he => isText_iff.1 (hall e he)

theorem reads_environment : Reads τ .environment checkEnvironment id where
  injective := Function.injective_id
  iff {v a} := by
    unfold checkEnvironment
    split
    · simp [OptionName.Fits.none, eq_comm]
    · rw [fits_environment_iff]
      split <;> simp [*, eq_comm]
    · rename_i hnull htable
      refine iff_of_false nofun ?_
      rintro ⟨hfits, -⟩
      cases hfits with
      | none => exact hnull rfl
      | texts entries => exact htable entries rfl

theorem fits_timeout_iff {n : Int} :
    OptionName.Fits .timeout (.data (.int n) : OptionValue τ) ↔ 0 ≤ n := by
  constructor
  · rintro ⟨⟩
    omega
  · intro h
    obtain ⟨m, rfl⟩ := Int.eq_ofNat_of_zero_le h
    exact .milliseconds m

theorem reads_timeout : Reads τ .timeout (fun v => checkLimit v.limit) ofLimit where
  injective := ofLimit_injective
  iff {v a} := by
    have hmisfit : v.limit = some .misfit → (checkLimit v.limit = .ok a ↔
        OptionName.Fits .timeout v ∧ ofLimit a = v) := by
      intro h
      rw [h]
      refine iff_of_false nofun ?_
      rintro ⟨⟨⟩, -⟩ <;> cases h
    cases v with
    | token t => exact hmisfit rfl
    | path p => exact hmisfit rfl
    | data d =>
        cases d with
        | null => cases a <;> simp [limit, Limit.ofDatum, checkLimit, OptionName.Fits.none, ofLimit]
        | int n =>
            have hlimit : (data (.int n) : OptionValue τ).limit = some (.milliseconds n) := rfl
            rw [hlimit, fits_timeout_iff, checkLimit]
            by_cases hneg : n < 0
            · rw [if_pos hneg]
              exact iff_of_false nofun fun h => absurd h.1 (by omega)
            · have hfits : 0 ≤ n := by omega
              rw [if_neg hneg]
              cases a <;> simp [ofLimit, hfits, eq_comm]
        | bool _ => exact hmisfit rfl
        | float _ => exact hmisfit rfl
        | text _ => exact hmisfit rfl
        | list _ => exact hmisfit rfl
        | table _ => exact hmisfit rfl
        | moment _ => exact hmisfit rfl

end OptionValue

open OptionValue

/-! ## Values brought up to date -/

namespace Overrides

/-- Values brought up to date by others: later ones win. -/
def updated (a b : Overrides τ) : Overrides τ :=
  b.foldl (fun entries e => Keyed.put entries e.1 e.2) a

theorem updated_cons (a : Overrides τ) (e : String × OptionValue τ) (rest : Overrides τ) :
    updated a (e :: rest) = updated (Keyed.put a e.1 e.2) rest := rfl

theorem lookup_updated {b : Overrides τ} (distinct : (Keyed.keys b).Nodup) (a : Overrides τ)
    (key : String) : (a.updated b).lookup key = (b.lookup key).or (a.lookup key) := by
  rw [Keyed.lookup_eq, Keyed.lookup_eq, Keyed.lookup_eq]
  induction b generalizing a with
  | nil => rfl
  | cons e rest ih =>
      obtain ⟨hnew, hdistinct⟩ := List.nodup_cons.1 distinct
      rw [updated_cons, ih hdistinct, Keyed.get?_put, Keyed.get?_cons]
      by_cases hkey : key = e.1
      · subst hkey
        have hrest : Keyed.get? rest e.1 = none := Keyed.get?_eq_none_iff.2 hnew
        simp [hrest]
      · have hother : e.1 ≠ key := Ne.symm hkey
        simp [hkey, hother]

theorem mem_keys_updated {a b : Overrides τ} {key : String} (h : key ∈ Keyed.keys (a.updated b)) :
    key ∈ Keyed.keys a ∨ key ∈ Keyed.keys b := by
  induction b generalizing a with
  | nil => exact .inl h
  | cons e rest ih =>
      rw [updated_cons] at h
      obtain h | h := ih h
      · rw [Keyed.keys_put] at h
        split at h
        · exact .inl h
        · obtain h | h := List.mem_append.1 h
          · exact .inl h
          · exact .inr (List.mem_cons.2 (.inl (List.mem_singleton.1 h)))
      · exact .inr (List.mem_cons_of_mem _ h)

/-- Values that count as given. -/
theorem lookup_given {named : Overrides τ} (distinct : (Keyed.keys named).Nodup) (key : String) :
    (named.filter (·.2.isGiven)).lookup key = (named.lookup key).filter (·.isGiven) := by
  rw [Keyed.lookup_eq, Keyed.lookup_eq]
  induction named with
  | nil => rfl
  | cons e rest ih =>
      obtain ⟨hnew, hdistinct⟩ := List.nodup_cons.1 distinct
      by_cases hkey : e.1 = key
      · subst hkey
        have hrest : Keyed.get? rest e.1 = none := Keyed.get?_eq_none_iff.2 hnew
        rw [Keyed.get?_cons, if_pos rfl, List.filter_cons]
        split
        · rename_i hgiven
          rw [Keyed.get?_cons, if_pos rfl, Option.filter_some, if_pos hgiven]
        · rename_i hnull
          rw [ih hdistinct, hrest, Option.filter_some, if_neg hnull]
          rfl
      · rw [Keyed.get?_cons, if_neg hkey, ← ih hdistinct, List.filter_cons]
        split
        · rw [Keyed.get?_cons, if_neg hkey]
        · rfl

/-- What is given for an option: a keyword, unless it is null, or else an override, be it null or not. -/
def offered (overrides named : Overrides τ) (name : OptionName) : Option (OptionValue τ) :=
  ((named.lookup name.label).filter (·.isGiven)).or (overrides.lookup name.label)

theorem lookup_given_append {named : Overrides τ} (distinct : (Keyed.keys named).Nodup)
    (overrides : Overrides τ) (name : OptionName) :
    (named.filter (·.2.isGiven) ++ overrides).lookup name.label = offered overrides named name := by
  rw [List.lookup_append, lookup_given distinct]
  rfl

end Overrides

/-! ## One override -/

namespace Choice

variable {o o' o'' base c : Choice τ} {a b overrides named : Overrides τ}

theorem pick_eq_ok_iff {α : Type} {name : OptionName} {read : OptionValue τ → Except OptionError α}
    {write : α → OptionValue τ} (reads : Reads τ name read write) (overrides : Overrides τ) {base x : α} :
    pick overrides name.label base read = .ok x ↔
      (∀ v, overrides.lookup name.label = some v → name.Fits v) ∧
        write x = (overrides.lookup name.label).getD (write base) := by
  unfold pick
  cases overrides.lookup name.label with
  | none => simp [reads.injective.eq_iff, eq_comm]
  | some v => simp [reads.iff]

/-- Every key is the name of an option, and every value fits its option. -/
structure Accepted (overrides : Overrides τ) : Prop where
  known : ∀ e ∈ overrides, ∃ name : OptionName, e.1 = name.label
  fits : ∀ (name : OptionName) v, overrides.lookup name.label = some v → name.Fits v

theorem mem_optionNames_iff {key : String} : key ∈ optionNames ↔ ∃ name : OptionName, key = name.label := by
  constructor
  · intro h
    simp only [optionNames, List.mem_cons, List.not_mem_nil, or_false] at h
    obtain rfl | rfl | rfl | rfl | rfl := h
    · exact ⟨.stdin, rfl⟩
    · exact ⟨.token, rfl⟩
    · exact ⟨.timeout, rfl⟩
    · exact ⟨.directory, rfl⟩
    · exact ⟨.environment, rfl⟩
  · rintro ⟨name, rfl⟩
    cases name <;> decide

theorem known_iff : overrides.filter (!hasOptionName ·) = [] ↔
    ∀ e ∈ overrides, ∃ name : OptionName, e.1 = name.label := by
  rw [List.filter_eq_nil_iff]
  refine forall₂_congr fun e _ => ?_
  rw [← mem_optionNames_iff, hasOptionName]
  simp

/-- What an override makes of options, and when it is taken at all. -/
theorem override_eq_ok_iff :
    o.override overrides = .ok c ↔
      Accepted overrides ∧ ∀ name, c.get name = (overrides.lookup name.label).getD (o.get name) := by
  unfold override
  by_cases hknown : ∀ e ∈ overrides, ∃ name : OptionName, e.1 = name.label
  · simp only [known_iff.2 hknown, List.map_nil, List.isEmpty_nil, Bool.not_true, Bool.false_eq_true,
      if_false, bind_eq_ok_iff]
    constructor
    · rintro ⟨stdin, hstdin, token, htoken, directory, hdirectory, environment, henvironment, timeout,
        htimeout, ⟨⟩⟩
      have hstdin := (pick_eq_ok_iff reads_stdin overrides).1 hstdin
      have htoken := (pick_eq_ok_iff reads_token overrides).1 htoken
      have hdirectory := (pick_eq_ok_iff reads_directory overrides).1 hdirectory
      have henvironment := (pick_eq_ok_iff reads_environment overrides).1 henvironment
      have htimeout := (pick_eq_ok_iff reads_timeout overrides).1 htimeout
      refine ⟨⟨hknown, fun name => ?_⟩, fun name => ?_⟩
      · cases name with
        | stdin => exact hstdin.1
        | token => exact htoken.1
        | directory => exact hdirectory.1
        | environment => exact henvironment.1
        | timeout => exact htimeout.1
      · cases name with
        | stdin => exact hstdin.2
        | token => exact htoken.2
        | directory => exact hdirectory.2
        | environment => exact henvironment.2
        | timeout => exact htimeout.2
    · rintro ⟨haccepted, hget⟩
      exact ⟨c.stdin, (pick_eq_ok_iff reads_stdin overrides).2 ⟨haccepted.fits .stdin, hget .stdin⟩,
        c.token, (pick_eq_ok_iff reads_token overrides).2 ⟨haccepted.fits .token, hget .token⟩,
        c.directory,
        (pick_eq_ok_iff reads_directory overrides).2 ⟨haccepted.fits .directory, hget .directory⟩,
        c.environment,
        (pick_eq_ok_iff reads_environment overrides).2 ⟨haccepted.fits .environment, hget .environment⟩,
        c.timeout, (pick_eq_ok_iff reads_timeout overrides).2 ⟨haccepted.fits .timeout, hget .timeout⟩, rfl⟩
  · have hunknown : overrides.filter (!hasOptionName ·) ≠ [] := mt known_iff.1 hknown
    refine iff_of_false ?_ fun h => hknown h.1.known
    simp [hunknown]

theorem exists_override_iff : (∃ c, o.override overrides = .ok c) ↔ Accepted overrides := by
  constructor
  · rintro ⟨c, h⟩
    exact (override_eq_ok_iff.1 h).1
  · intro h
    obtain ⟨timeout, htimeout⟩ :
        ∃ timeout, ofLimit timeout = (overrides.lookup "timeout_ms").getD (ofLimit o.timeout) := by
      cases hlookup : overrides.lookup "timeout_ms" with
      | none => exact ⟨o.timeout, rfl⟩
      | some v =>
          cases h.fits .timeout v hlookup with
          | none => exact ⟨none, rfl⟩
          | milliseconds n => exact ⟨some n, rfl⟩
    refine ⟨⟨(overrides.lookup "stdin").getD o.stdin, (overrides.lookup "token").getD o.token, timeout,
      (overrides.lookup "cwd").getD o.directory, (overrides.lookup "env").getD o.environment⟩,
      override_eq_ok_iff.2 ⟨h, fun name => ?_⟩⟩
    cases name with
    | timeout => exact htimeout
    | _ => rfl

/-! ## Several overrides -/

theorem Accepted.updated (ha : Accepted a) (hb : Accepted b) (distinct : (Keyed.keys b).Nodup) :
    Accepted (Overrides.updated a b) where
  known e he := by
    obtain h | h := Overrides.mem_keys_updated (List.mem_map_of_mem he)
    · obtain ⟨e', he', hkey⟩ := List.mem_map.1 h
      exact hkey ▸ ha.known e' he'
    · obtain ⟨e', he', hkey⟩ := List.mem_map.1 h
      exact hkey ▸ hb.known e' he'
  fits name v hv := by
    rw [Overrides.lookup_updated distinct] at hv
    obtain h | ⟨-, h⟩ := Option.or_eq_some_iff.1 hv
    · exact hb.fits name v h
    · exact ha.fits name v h

/-- One override after the other is one override, by the values of the first brought up to date. -/
theorem override_override (ha : o.override a = .ok o') (hb : o'.override b = .ok o'')
    (distinct : (Keyed.keys b).Nodup) : o.override (Overrides.updated a b) = .ok o'' := by
  obtain ⟨haccepted, ha⟩ := override_eq_ok_iff.1 ha
  obtain ⟨haccepted', hb⟩ := override_eq_ok_iff.1 hb
  refine override_eq_ok_iff.2 ⟨haccepted.updated haccepted' distinct, fun name => ?_⟩
  rw [hb, ha, Overrides.lookup_updated distinct]
  cases b.lookup name.label <;> rfl

theorem resolve_of_known (known : ∀ e ∈ named, ∃ name : OptionName, e.1 = name.label) :
    base.resolve overrides named = base.override (named.filter (·.2.isGiven) ++ overrides) := by
  have hall : named.all hasOptionName = true :=
    List.all_eq_true.2 fun e he => by
      rw [hasOptionName, List.contains_iff_mem]
      exact mem_optionNames_iff.2 (known e he)
  rw [resolve, hall]
  rfl

theorem known_of_resolve (h : base.resolve overrides named = .ok c) :
    ∀ e ∈ named, ∃ name : OptionName, e.1 = name.label := by
  intro e he
  by_contra hstrange
  have hall : named.all hasOptionName = false := by
    refine List.all_eq_false.2 ⟨e, he, ?_⟩
    rwa [hasOptionName, List.contains_iff_mem, mem_optionNames_iff]
  rw [resolve, hall] at h
  cases h

/-- Of a call all names have to be names of options, and what is offered for each option has to fit. -/
theorem accepted_given_iff (distinct : (Keyed.keys named).Nodup)
    (known : ∀ e ∈ named, ∃ name : OptionName, e.1 = name.label) :
    Accepted (named.filter (·.2.isGiven) ++ overrides) ↔
      (∀ e ∈ named ++ overrides, ∃ name : OptionName, e.1 = name.label) ∧
        ∀ (name : OptionName) v, overrides.offered named name = some v → name.Fits v := by
  have hlookup := Overrides.lookup_given_append distinct overrides
  constructor
  · rintro ⟨hknown, hfits⟩
    refine ⟨List.forall_mem_append.2 ⟨known, (List.forall_mem_append.1 hknown).2⟩, fun name v hv => ?_⟩
    exact hfits name v (by rw [hlookup, hv])
  · rintro ⟨hknown, hfits⟩
    refine ⟨List.forall_mem_append.2 ⟨fun e he => known e (List.mem_of_mem_filter he),
      (List.forall_mem_append.1 hknown).2⟩, fun name v hv => ?_⟩
    rw [hlookup] at hv
    exact hfits name v hv

theorem exists_resolve_iff (distinct : (Keyed.keys named).Nodup) :
    (∃ c, base.resolve overrides named = .ok c) ↔
      (∀ e ∈ named ++ overrides, ∃ name : OptionName, e.1 = name.label) ∧
        ∀ (name : OptionName) v, overrides.offered named name = some v → name.Fits v := by
  constructor
  · rintro ⟨c, h⟩
    have hknown := known_of_resolve h
    rw [resolve_of_known hknown] at h
    exact (accepted_given_iff distinct hknown).1 (exists_override_iff.1 ⟨c, h⟩)
  · rintro ⟨hknown, hfits⟩
    have hnamed := (List.forall_mem_append.1 hknown).1
    rw [resolve_of_known hnamed]
    exact exists_override_iff.2 ((accepted_given_iff distinct hnamed).2 ⟨hknown, hfits⟩)

theorem get_of_resolve (distinct : (Keyed.keys named).Nodup)
    (h : base.resolve overrides named = .ok c) (name : OptionName) :
    c.get name = (overrides.offered named name).getD (base.get name) := by
  rw [resolve_of_known (known_of_resolve h)] at h
  rw [(override_eq_ok_iff.1 h).2, Overrides.lookup_given_append distinct]

theorem exists_error_iff {ε α : Type} {x : Except ε α} : (∃ e, x = .error e) ↔ ¬ ∃ a, x = .ok a := by
  cases x <;> simp

theorem not_accepted_iff : ¬ Accepted overrides ↔
    (∃ e ∈ overrides, ∀ name : OptionName, e.1 ≠ name.label) ∨
      ∃ (name : OptionName) (v : OptionValue τ), overrides.lookup name.label = some v ∧ ¬ name.Fits v := by
  have hparts : Accepted overrides ↔ (∀ e ∈ overrides, ∃ name : OptionName, e.1 = name.label) ∧
      ∀ (name : OptionName) v, overrides.lookup name.label = some v → name.Fits v :=
    ⟨fun h => ⟨h.known, h.fits⟩, fun h => ⟨h.1, h.2⟩⟩
  rw [hparts, not_and_or]
  push Not
  rfl

/-- Two overrides that are taken do together what the first does when it is brought up to date by the
second, and leave everything else alone. An override is refused when it has a key that names no option or
a value that does not fit its option. Of a call each option is the keyword unless that is null, else the
override where there is one, else the base. -/
theorem override_compose (τ : Type) :
    (∀ (o o' o'' : Choice τ) (a b : Overrides τ), (Keyed.keys b).Nodup →
      o.override a = .ok o' → o'.override b = .ok o'' →
        o.override (a.updated b) = .ok o'' ∧
        ∀ name : OptionName, a.lookup name.label = none → b.lookup name.label = none →
          o''.get name = o.get name) ∧
    (∀ (o : Choice τ) (a : Overrides τ), (∃ e, o.override a = .error e) ↔
      (∃ e ∈ a, ∀ name : OptionName, e.1 ≠ name.label) ∨
        ∃ (name : OptionName) (v : OptionValue τ), a.lookup name.label = some v ∧ ¬ name.Fits v) ∧
    ∀ (base : Choice τ) (overrides named : Overrides τ), (Keyed.keys named).Nodup →
      ((∃ c, base.resolve overrides named = .ok c) ↔
        (∀ e ∈ named ++ overrides, ∃ name : OptionName, e.1 = name.label) ∧
        ∀ (name : OptionName) v, overrides.offered named name = some v → name.Fits v) ∧
      ∀ c, base.resolve overrides named = .ok c →
        ∀ name, c.get name = (overrides.offered named name).getD (base.get name) := by
  refine ⟨fun o o' o'' a b distinct ha hb => ⟨override_override ha hb distinct, fun name hna hnb => ?_⟩,
    fun o a => ?_, fun base overrides named distinct => ⟨exists_resolve_iff distinct, fun c h =>
      get_of_resolve distinct h⟩⟩
  · rw [(override_eq_ok_iff.1 hb).2, hnb, (override_eq_ok_iff.1 ha).2, hna]
    rfl
  · rw [exists_error_iff, exists_override_iff, not_accepted_iff]

/-- Options of a base. -/
def baseOptions : Choice Unit :=
  { stdin := .data (.text "in"), timeout := some 100 }

def firstOverrides : Overrides Unit :=
  [("stdin", .data .null), ("cwd", .path "/tmp"), ("timeout_ms", .data (.int 5))]

def secondOverrides : Overrides Unit :=
  [("timeout_ms", .data .null), ("token", .token ())]

/-- The second override takes back the limit of the first. A keyword that is null leaves an option to the
overrides, where null takes it back from the base. -/
theorem override_compose_limits :
    baseOptions.override (firstOverrides.updated secondOverrides) =
      .ok { token := .token (), timeout := none, directory := .path "/tmp" } ∧
    (∃ e, baseOptions.override [("timeout_ms", .data (.int (-1)))] = .error e) ∧
    ∃ c, baseOptions.resolve firstOverrides [("stdin", .data .null), ("cwd", .path "/")] = .ok c ∧
      c.get .stdin = .data .null ∧ c.get .directory = .path "/" ∧ c.get .token = .data .null := by
  obtain ⟨hcompose, hrejects, hresolve⟩ := override_compose Unit
  obtain ⟨c, h⟩ : ∃ c, baseOptions.resolve firstOverrides
      [("stdin", .data .null), ("cwd", .path "/")] = .ok c := ⟨_, rfl⟩
  refine ⟨?_, ?_, c, h, ?_, ?_, ?_⟩
  · have hfirst : baseOptions.override firstOverrides =
        .ok { timeout := some 5, directory := .path "/tmp" } := rfl
    exact (hcompose _ _ _ _ _ (by decide) hfirst rfl).1
  · refine (hrejects _ _).2 (.inr ⟨.timeout, _, rfl, fun h => ?_⟩)
    have hneg := OptionValue.fits_timeout_iff.1 h
    omega
  · exact (hresolve _ _ _ (by decide)).2 c h .stdin
  · exact (hresolve _ _ _ (by decide)).2 c h .directory
  · exact (hresolve _ _ _ (by decide)).2 c h .token

end Choice

end Shellwright.Execution
