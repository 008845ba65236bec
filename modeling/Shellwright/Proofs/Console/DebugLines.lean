import Shellwright.Console.DebugLine
import Shellwright.Proofs.Output.Forms
/-!
# Debug lines

A message is cut at the pairs that stand in it, found from left to right, each search going on where the
last pair ended. The pieces joined are the message, whatever it holds. On the printed line they stand side
by side from the mark to the end, each without the characters that are never printed, so that nothing but
those is missing from the line.
-/

namespace Shellwright.Console

open Shellwright.Text
open Shellwright.Output (Stops stops_cons stops_dropWhile takeWhile_append_of_stops)

/-! ## Pairs -/

/-- Text between quotes on one line, with what comes after it. -/
structure IsQuoted (cs body rest : List Char) : Prop where
  inner : ∀ c ∈ body, (c != '"' && c != '\n') = true
  split : cs = '"' :: body ++ '"' :: rest

/-- A value with what comes after it: one in quotes, or else all that stands before the next blank. -/
inductive IsValue (cs : List Char) : (value rest : List Char) → Prop
  | quoted {body rest : List Char} (quoted : IsQuoted cs body rest) : IsValue cs ('"' :: body ++ ['"']) rest
  | solid {value rest : List Char} (unquoted : ∀ body rest', ¬ IsQuoted cs body rest') (nonempty : value ≠ [])
      (inner : ∀ c ∈ value, (!isBlank c) = true) (stop : Stops (!isBlank ·) rest) (split : cs = value ++ rest) :
      IsValue cs value rest

/-- A pair at the start of a text, with what comes after it. -/
structure IsPair (cs key value rest : List Char) : Prop where
  nonempty : key ≠ []
  inner : ∀ c ∈ key, isKeyChar c = true
  value : ∃ tail, cs = key ++ '=' :: tail ∧ IsValue tail value rest

theorem takeWhile_append_drop (p : Char → Bool) (cs : List Char) :
    cs.takeWhile p ++ cs.drop (cs.takeWhile p).length = cs :=
  List.prefix_iff_eq_append.1 (List.takeWhile_prefix p)

theorem inner_takeWhile (p : Char → Bool) (cs : List Char) : ∀ c ∈ cs.takeWhile p, p c = true :=
  fun _ hc => List.mem_takeWhile_imp hc

theorem stops_drop (p : Char → Bool) (cs : List Char) : Stops p (cs.drop (cs.takeWhile p).length) := by
  have hsplit : cs.takeWhile p ++ cs.drop (cs.takeWhile p).length = cs.takeWhile p ++ cs.dropWhile p := by
    rw [takeWhile_append_drop, List.takeWhile_append_dropWhile]
  rw [List.append_cancel_left hsplit]
  exact stops_dropWhile p cs

theorem quotedValue?_of_isQuoted {cs body rest : List Char} (h : IsQuoted cs body rest) :
    quotedValue? cs = some ('"' :: body ++ ['"']) := by
  obtain ⟨hinner, rfl⟩ := h
  have hstop : Stops (fun c => c != '"' && c != '\n') ('"' :: rest) := stops_cons.2 (by decide)
  simp only [List.cons_append, quotedValue?, takeWhile_append_of_stops hinner hstop, List.drop_left]

theorem isQuoted_of_quotedValue? {cs value : List Char} (h : quotedValue? cs = some value) :
    ∃ body rest, IsQuoted cs body rest ∧ value = '"' :: body ++ ['"'] := by
  cases cs with
  | nil => cases h
  | cons quote tail =>
      by_cases hquote : quote = '"'
      · subst hquote
        have hsplit := takeWhile_append_drop (fun c => c != '"' && c != '\n') tail
        simp only [quotedValue?] at h
        split at h
        · rename_i rest hdrop
          rw [hdrop] at hsplit
          refine ⟨_, rest, ⟨inner_takeWhile _ tail, ?_⟩, (Option.some.inj h).symm⟩
          rw [List.cons_append, hsplit]
        · cases h
      · rw [quotedValue?.eq_2 _ (by rintro rest ⟨⟩; exact hquote rfl)] at h
        cases h

theorem value?_eq_some_iff {cs value : List Char} : value? cs = some value ↔ ∃ rest, IsValue cs value rest := by
  unfold value?
  constructor
  · intro h
    split at h
    · rename_i quoted hquoted
      obtain ⟨body, rest, hbody, rfl⟩ := isQuoted_of_quotedValue? hquoted
      cases h
      exact ⟨rest, .quoted hbody⟩
    · rename_i hunquoted
      split at h
      · cases h
      · rename_i hnonempty
        cases h
        refine ⟨_, .solid ?_ hnonempty (inner_takeWhile _ cs) (stops_drop _ cs)
          (takeWhile_append_drop _ cs).symm⟩
        intro body rest hquoted
        rw [quotedValue?_of_isQuoted hquoted] at hunquoted
        cases hunquoted
  · rintro ⟨rest, hvalue⟩
    cases hvalue with
    | quoted hquoted => rw [quotedValue?_of_isQuoted hquoted]
    | solid hunquoted hnonempty hinner hstop hsplit =>
        have hnone : quotedValue? cs = none := by
          by_contra hsome
          obtain ⟨quoted, hquoted⟩ := Option.ne_none_iff_exists'.1 hsome
          obtain ⟨body, rest', hbody, -⟩ := isQuoted_of_quotedValue? hquoted
          exact hunquoted body rest' hbody
        rw [hnone, hsplit, takeWhile_append_of_stops hinner hstop]
        cases value with
        | nil => exact absurd rfl hnonempty
        | cons => rfl

theorem pair?_eq_some_iff {cs key value : List Char} :
    pair? cs = some (key, value) ↔ ∃ rest, IsPair cs key value rest := by
  unfold pair?
  constructor
  · intro h
    split at h
    · cases h
    · rename_i hnonempty
      split at h
      · rename_i tail hdrop
        obtain ⟨value, hvalue, hpair⟩ := Option.map_eq_some_iff.1 h
        cases hpair
        obtain ⟨rest, hrest⟩ := value?_eq_some_iff.1 hvalue
        have hsplit := takeWhile_append_drop isKeyChar cs
        rw [hdrop] at hsplit
        exact ⟨rest, hnonempty, inner_takeWhile isKeyChar cs, tail, hsplit.symm, hrest⟩
      · cases h
  · rintro ⟨rest, hnonempty, hinner, tail, rfl, hvalue⟩
    have hstop : Stops isKeyChar ('=' :: tail) := stops_cons.2 (by decide)
    rw [takeWhile_append_of_stops hinner hstop]
    cases key with
    | nil => exact absurd rfl hnonempty
    | cons c key =>
        simp only [List.drop_left, value?_eq_some_iff.2 ⟨rest, hvalue⟩]
        rfl

theorem IsValue.eq_append {cs value rest : List Char} (h : IsValue cs value rest) : cs = value ++ rest := by
  cases h with
  | quoted hquoted => rw [hquoted.split]; simp
  | solid _ _ _ _ hsplit => exact hsplit

theorem IsPair.eq_append {cs key value rest : List Char} (h : IsPair cs key value rest) :
    cs = key ++ '=' :: value ++ rest := by
  obtain ⟨tail, rfl, hvalue⟩ := h.value
  rw [hvalue.eq_append]
  simp

/-! ## Pieces -/

/-- A text that nothing is found in, as a piece unless it is empty. -/
def plainPieces (cs : List Char) : List Piece :=
  if cs = [] then [] else [⟨cs, .dim⟩]

theorem dimPieces_eq (passed : List Char) : dimPieces passed = plainPieces passed.reverse := by
  cases passed with
  | nil => rfl
  | cons c passed => simp [dimPieces, plainPieces]

/-- No pair starts in `passed` when `rest` comes after it. -/
def Unpaired (passed rest : List Char) : Prop :=
  ∀ before after, passed = before ++ after → after ≠ [] →
    ∀ key value rest', ¬ IsPair (after ++ rest) key value rest'

theorem unpaired_nil (rest : List Char) : Unpaired [] rest := by
  intro before after hsplit hafter
  exact absurd (List.append_eq_nil_iff.1 hsplit.symm).2 hafter

theorem Unpaired.concat {passed rest : List Char} {c : Char} (h : Unpaired passed (c :: rest))
    (missed : pair? (c :: rest) = none) : Unpaired (passed ++ [c]) rest := by
  intro before after hsplit hafter key value rest' hpair
  obtain hempty | ⟨inner, last, rfl⟩ := List.eq_nil_or_concat' after
  · exact hafter hempty
  · rw [← List.append_assoc] at hsplit
    obtain ⟨hpassed, hlast⟩ := List.append_inj' hsplit rfl
    obtain rfl := List.singleton_inj.1 hlast
    rw [List.append_assoc, List.singleton_append] at hpair
    -- The pair would start at `c` itself or before it.
    by_cases hinner : inner = []
    · rw [hinner, List.nil_append] at hpair
      rw [pair?_eq_some_iff.2 ⟨rest', hpair⟩] at missed
      cases missed
    · exact h before inner hpassed hinner key value rest' hpair

/-- The pieces of a text that is cut at its pairs, each of them the first that is found in what the pairs
before it leave. -/
inductive CutsUp : List Char → List Piece → Prop
  | plain {cs : List Char} (unpaired : Unpaired cs []) : CutsUp cs (plainPieces cs)
  | pair {passed cs key value rest : List Char} {ps : List Piece} (unpaired : Unpaired passed cs)
      (found : IsPair cs key value rest) (following : CutsUp rest ps) :
      CutsUp (passed ++ cs) (plainPieces passed ++ pairPieces key value ++ ps)

/-- The pieces joined are the text. -/
theorem CutsUp.joined {cs : List Char} {ps : List Piece} (h : CutsUp cs ps) : ps.flatMap Piece.text = cs := by
  have hplain : ∀ cs, (plainPieces cs).flatMap Piece.text = cs := by
    intro cs
    unfold plainPieces
    split <;> simp_all
  induction h with
  | plain => exact hplain _
  | @pair passed cs key value rest ps _ hfound _ ih =>
      calc
        (plainPieces passed ++ pairPieces key value ++ ps).flatMap Piece.text
            = passed ++ (key ++ '=' :: value) ++ rest := by
              simp only [List.flatMap_append, hplain, ih, pairPieces, List.flatMap_cons, List.flatMap_nil,
                List.append_nil, List.singleton_append]
        _ = passed ++ cs := by rw [hfound.eq_append, List.append_assoc]

/-- The search passes over what it finds no pair in, and goes on behind a pair that it finds. -/
theorem cutsUp_piecesFrom {passed cs : List Char} {fuel : Nat} (enough : cs.length ≤ fuel)
    (unpaired : Unpaired passed.reverse cs) : CutsUp (passed.reverse ++ cs) (piecesFrom passed cs fuel) := by
  induction fuel generalizing passed cs with
  | zero =>
      obtain rfl := List.length_eq_zero_iff.1 (Nat.le_zero.1 enough)
      rw [piecesFrom, dimPieces_eq, List.append_nil]
      exact .plain unpaired
  | succ fuel ih =>
      cases cs with
      | nil =>
          rw [piecesFrom, dimPieces_eq, List.append_nil]
          exact .plain unpaired
      | cons c rest =>
          rw [piecesFrom]
          split
          · rename_i key value hpair
            obtain ⟨rest', hfound⟩ := pair?_eq_some_iff.1 hpair
            have hdrop : (c :: rest).drop (key.length + 1 + value.length) = rest' := by
              have hlength : key.length + 1 + value.length = (key ++ '=' :: value).length := by
                simp only [List.length_append, List.length_cons]
                omega
              rw [hfound.eq_append, hlength]
              exact List.drop_left
            have hshort : rest'.length ≤ fuel := by
              rw [← hdrop, List.length_drop]
              omega
            have hfollowing : CutsUp rest' (piecesFrom [] rest' fuel) :=
              @ih [] rest' hshort (unpaired_nil rest')
            rw [hdrop, dimPieces_eq]
            exact .pair unpaired hfound hfollowing
          · rename_i hnone
            have hsplit : passed.reverse ++ c :: rest = (c :: passed).reverse ++ rest := by simp
            rw [hsplit]
            apply ih (Nat.le_of_succ_le_succ enough)
            rw [List.reverse_cons]
            exact unpaired.concat hnone

theorem cutsUp_pieces (message : List Char) : CutsUp message (pieces message) :=
  @cutsUp_piecesFrom [] message _ (Nat.le_refl _) (unpaired_nil message)

/-! ## Lines -/

/-- The pieces stand side by side in the text, from `start` to its end. -/
inductive Adjoins (text : List Char) : Nat → List Piece → List (Nat × Nat × PieceStyle) → Prop
  | done : Adjoins text text.length [] []
  | next {start stop : Nat} {p : Piece} {ps : List Piece} {spans : List (Nat × Nat × PieceStyle)}
      (ordered : start ≤ stop) (shows : (text.take stop).drop start = p.shown)
      (following : Adjoins text stop ps spans) : Adjoins text start (p :: ps) ((start, stop, p.style) :: spans)

theorem adjoins_spansFrom (lead : List Char) (ps : List Piece) :
    Adjoins (lead ++ ps.flatMap Piece.shown) lead.length ps (spansFrom lead.length ps) := by
  induction ps generalizing lead with
  | nil =>
      rw [List.flatMap_nil, List.append_nil]
      exact .done
  | cons p ps ih =>
      have hstop : lead.length + p.shown.length = (lead ++ p.shown).length := List.length_append.symm
      rw [List.flatMap_cons, ← List.append_assoc, spansFrom, hstop]
      apply Adjoins.next
      · omega
      · rw [List.take_left, List.drop_left]
      · exact ih (lead ++ p.shown)

theorem printable_flatMap (ps : List Piece) :
    printable (ps.flatMap Piece.text) = ps.flatMap Piece.shown :=
  List.filter_flatMap

/-- The line has the mark and the message, without what is never printed. Its spans are those of the pieces
of the message, side by side, and the pieces have all of the message. -/
structure DebugLine.Shows (line : DebugLine) (message : List Char) : Prop where
  text : line.text = debugMark.toList ++ printable message
  pieces : ∃ ps, CutsUp message ps ∧ ps.flatMap Piece.text = message ∧
    Adjoins line.text debugMark.length ps line.spans

/-- A debug line lacks nothing of its message but the characters that are never printed. -/
theorem debugLine_shows (message : String) : (debugLine message).Shows message.toList := by
  have hcut := cutsUp_pieces message.toList
  constructor
  · calc
      (debugLine message).text
          = debugMark.toList ++ (pieces message.toList).flatMap Piece.shown := rfl
      _ = debugMark.toList ++ printable message.toList := by rw [← printable_flatMap, hcut.joined]
  · exact ⟨pieces message.toList, hcut, hcut.joined, adjoins_spansFrom debugMark.toList _⟩

/-- A carriage return is missing from the line. -/
theorem exists_debugLine_lossy :
    ¬ ∀ message : String, (debugLine message).text = debugMark.toList ++ message.toList := by
  intro h
  have hline := h "a\rb"
  revert hline
  decide

end Shellwright.Console
