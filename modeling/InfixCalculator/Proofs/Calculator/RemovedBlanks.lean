import InfixCalculator.Proofs.Calculator.Safety
import InfixCalculator.Proofs.Parser.Relocation
import InfixCalculator.Proofs.Token.Tiling

/-!
# Lines freed of blanks

The calculator frees a line of its blanks before it reads it, and the cursor skips blanks between
tokens.  Both come to the same unless two parts of a line grow together to one number: the tiles of
the freed line are those of the line that are no blanks, each moved to the left by the blanks before
it.
-/

namespace InfixCalculator

open Tile

namespace Text

def solid (text : List Char) : List Char := text.filter fun c => !isBlank c

def solidBefore (text : List Char) (column : Nat) : Nat := (solid (text.take column)).length

/-- No blanks stand between two characters of which each is a digit or a point. -/
def NumbersApart (text : List Char) : Prop :=
  ∀ (front gap rest : List Char) (c c' : Char), text = front ++ c :: (gap ++ c' :: rest) →
    Cursor.continuesNumber c = true → Cursor.continuesNumber c' = true →
    (∀ b ∈ gap, isBlank b = true) → gap = []

variable {text front : List Char} {c : Char} {kind : TokenKind}

theorem solid_append (text more : List Char) : solid (text ++ more) = solid text ++ solid more :=
  List.filter_append text more

theorem solid_eq_self (h : ∀ c ∈ text, isBlank c = false) : solid text = text :=
  List.filter_eq_self.2 fun c hc => by rw [h c hc]; rfl

theorem solidBefore_append (front text : List Char) :
    solidBefore (front ++ text) front.length = (solid front).length := by
  rw [solidBefore, List.take_left]

theorem removeBlanks_eq (source : String) :
    removeBlanks source = String.ofList (solid source.toList) := rfl

theorem isBlank_of_mem_blankChars (h : c ∈ blankChars) : isBlank c = true := by
  simp only [blankChars, List.mem_cons, List.not_mem_nil, or_false] at h
  rcases h with rfl | rfl | rfl | rfl <;> rfl

theorem isBlank_of_symbol (h : (c, kind) ∈ symbolKinds) : isBlank c = false := by
  simp only [symbolKinds, List.mem_cons, Prod.mk.injEq, List.not_mem_nil, or_false] at h
  rcases h with ⟨rfl, -⟩ | ⟨rfl, -⟩ | ⟨rfl, -⟩ | ⟨rfl, -⟩ | ⟨rfl, -⟩ | ⟨rfl, -⟩ | ⟨rfl, -⟩ <;> rfl

theorem isBlank_of_continuesNumber (h : Cursor.continuesNumber c = true) : isBlank c = false := by
  rcases continuesNumber_iff.1 h with hdigit | rfl
  · simp only [Char.isDigit, Bool.and_eq_true, decide_eq_true_eq] at hdigit
    have hfirst : 48 ≤ c.toNat := UInt32.le_iff_toNat_le.1 hdigit.1
    have hlast : c.toNat ≤ 57 := UInt32.le_iff_toNat_le.1 hdigit.2
    simp only [isBlank, blankRanges, CodeRange.anyContains]
    grind
  · rfl

theorem NumbersApart.of_append (h : NumbersApart (front ++ text)) : NumbersApart text := by
  rintro front' gap rest c c' rfl
  exact h (front ++ front') gap rest c c' (List.append_assoc _ _ _).symm

theorem numbersApart_nil : NumbersApart [] := by
  intro front gap rest c c' h
  simp at h

theorem numbersApart_cons : NumbersApart (c :: text) ↔
    (Cursor.continuesNumber c = true →
      (text.dropWhile isBlank).head?.any Cursor.continuesNumber = true →
        text.takeWhile isBlank = []) ∧ NumbersApart text := by
  constructor
  · intro h
    have hmore : NumbersApart ([c] ++ text) := h
    refine ⟨fun hc hnumber => ?_, hmore.of_append⟩
    obtain ⟨c', hc', hnumber⟩ := (Option.any_eq_true _ _).1 hnumber
    obtain ⟨rest, hrest⟩ := List.head?_eq_some_iff.1 hc'
    have htext := List.takeWhile_append_dropWhile (p := isBlank) (l := text)
    rw [hrest] at htext
    exact h [] (text.takeWhile isBlank) rest c c' (by rw [htext]; rfl) hc hnumber
      fun b hb => List.all_eq_true.1 List.all_takeWhile b hb
  · rintro ⟨hfirst, hmore⟩ front gap rest d d' htext hd hd' hgap
    cases front with
    | cons c₀ front => exact hmore front gap rest d d' (List.cons.inj htext).2 hd hd' hgap
    | nil =>
      obtain ⟨rfl, rfl⟩ := List.cons.inj htext
      have hblank := isBlank_of_continuesNumber hd'
      have hdrop : (gap ++ d' :: rest).dropWhile isBlank = (d' :: rest).dropWhile isBlank :=
        List.dropWhile_append_of_pos hgap
      have htake : (gap ++ d' :: rest).takeWhile isBlank =
          gap ++ (d' :: rest).takeWhile isBlank := List.takeWhile_append_of_pos hgap
      rw [List.dropWhile_cons_of_neg (by simp [hblank])] at hdrop
      rw [List.takeWhile_cons_of_neg (by simp [hblank]), List.append_nil] at htake
      rw [← htake]
      exact hfirst hd (by rw [hdrop]; exact hd')

instance decidableNumbersApart : (text : List Char) → Decidable (NumbersApart text)
  | [] => isTrue numbersApart_nil
  | _ :: text =>
    have := decidableNumbersApart text
    decidable_of_iff' _ numbersApart_cons

/-- The blank in `) .5` separates no digits and points, that in `1. 5` does. -/
example : NumbersApart [')', ' ', '.', '5'] ∧ ¬NumbersApart ['1', '.', ' ', '5'] := by decide

end Text

open Text

namespace Tile

variable {text rest run : List Char} {tile : Tile} {tiles : List Tile}

def isSolid : Tile → Bool
  | blank _ => false
  | _ => true

theorem IsRun.solid_eq (h : IsRun run rest) : Text.solid run = run :=
  solid_eq_self fun c hc => isBlank_of_continuesNumber (continuesNumber_iff.2 (h.all c hc))

theorem IsRun.solid (h : IsRun run rest) (hapart : NumbersApart (run ++ rest)) :
    IsRun run (solid rest) := by
  refine ⟨h.first, h.all, fun c' hc' hnumber => ?_⟩
  -- The first solid character of the rest stands behind a gap, which the run cannot bridge.
  obtain ⟨more, hmore⟩ := List.head?_eq_some_iff.1 hc'
  obtain ⟨gap, rest', rfl, hgap, -, -⟩ := List.filter_eq_cons_iff.1 hmore
  have hrun : run ≠ [] := by
    rintro rfl
    simpa using h.first
  obtain ⟨front, c, rfl⟩ := List.eq_nil_or_concat run |>.resolve_left hrun
  have hgap' : gap = [] := by
    refine hapart front gap rest' c c' (by simp) (continuesNumber_iff.2 (h.all c (by simp)))
      (continuesNumber_iff.2 hnumber) fun b hb => by simpa using hgap b hb
  subst hgap'
  exact h.longest c' rfl hnumber

theorem token?_map_relocate (f : Nat → Nat) (column : Nat) (tile : Tile) :
    (tile.token? column).map (Token.relocate f) = tile.token? (f column) := by
  cases tile <;> rfl

theorem Fits.solid_of_blank (h : tile.Fits rest) (hsolid : tile.isSolid = false) :
    Text.solid tile.text = [] ∧ ∀ column, tile.token? column = none := by
  cases tile with
  | blank c => exact ⟨by simp [Text.solid, Tile.text, isBlank_of_mem_blankChars h], fun _ => rfl⟩
  | symbol c kind => cases hsolid
  | number run => cases hsolid

theorem Fits.solid (h : tile.Fits rest) (hapart : NumbersApart (tile.text ++ rest))
    (hsolid : tile.isSolid = true) :
    Text.solid tile.text = tile.text ∧ tile.Fits (Text.solid rest) := by
  cases tile with
  | blank c => cases hsolid
  | symbol c kind => exact ⟨solid_eq_self (by simpa [Tile.text] using isBlank_of_symbol h), h⟩
  | number run => exact ⟨h.1.solid_eq, h.1.solid hapart, h.2⟩

end Tile

namespace Tiled

variable {text rest : List Char} {tiles : List Tile}

theorem solid (h : Tiled text tiles rest) (hapart : NumbersApart text) :
    Tiled (Text.solid text) (tiles.filter isSolid) (Text.solid rest) := by
  induction h with
  | nil rest => exact .nil _
  | @cons tile text rest tiles fits more ih =>
    have htiled := ih hapart.of_append
    rw [solid_append]
    cases hsolid : tile.isSolid with
    | false =>
      rw [List.filter_cons_of_neg (by simp [hsolid]), (fits.solid_of_blank hsolid).1]
      exact htiled
    | true =>
      obtain ⟨htext, hfits⟩ := fits.solid hapart hsolid
      rw [List.filter_cons_of_pos hsolid, htext]
      exact .cons hfits htiled

/-- The tokens of the tiles that are no blanks stand to the left by the blanks before them. -/
theorem tokens_solid (h : Tiled text tiles rest) (hapart : NumbersApart text) (front : List Char) :
    Tile.tokens (Text.solid front).length (tiles.filter isSolid) =
      (Tile.tokens front.length tiles).map (Token.relocate (solidBefore (front ++ text))) := by
  -- The column of a tile is the length of what is in front of it, so the front has to vary.
  induction h generalizing front with
  | nil rest => rfl
  | @cons tile text rest tiles fits more ih =>
    have hmore := ih hapart.of_append (front ++ tile.text)
    rw [solid_append, List.length_append, List.length_append, List.append_assoc] at hmore
    rw [Tile.tokens, List.map_append, ← hmore, ← Option.toList_map, token?_map_relocate,
      solidBefore_append]
    cases hsolid : tile.isSolid with
    | false =>
      obtain ⟨htext, hnone⟩ := fits.solid_of_blank hsolid
      rw [List.filter_cons_of_neg (by simp [hsolid]), htext, hnone]
      rfl
    | true => rw [List.filter_cons_of_pos hsolid, (fits.solid hapart hsolid).1, Tile.tokens]

end Tiled

/-- Where the division of a text stops, that of the text without blanks stops too. -/
theorem StopsAt.solid {column : Nat} {rest : List Char} {ending : Pull}
    (h : StopsAt column rest ending) (hapart : NumbersApart rest)
    (hblanks : ∀ c ∈ rest, isBlank c = true → c ∈ blankChars) (f : Nat → Nat) :
    StopsAt (f column) (solid rest) (ending.relocate f) := by
  cases h with
  | finished => exact .finished
  | @malformed run rest isRun points =>
    rw [solid_append, isRun.solid_eq]
    exact .malformed (isRun.solid hapart) points
  | @unexpected c rest blank symbol digit =>
    have hblank : isBlank c = false := eq_false_of_ne_true fun h => blank (hblanks c (by simp) h)
    have hsolid : Text.solid (c :: rest) = c :: Text.solid rest := by simp [Text.solid, hblank]
    rw [hsolid]
    exact .unexpected blank symbol digit

namespace Cursor

/-- The pulls at a text without blanks are those at the text, moved to the left by the blanks before
them. -/
theorem pullAll_solid {text : List Char} (hapart : NumbersApart text)
    (hblanks : ∀ c ∈ text, isBlank c = true → c ∈ blankChars) :
    pullAll ⟨solid text, 0⟩ = (pullAll ⟨text, 0⟩).map (Pull.relocate (solidBefore text)) := by
  obtain ⟨tiles, rest, htiled, hstop⟩ := exists_tiled text
  obtain ⟨ending, hstops⟩ := hstop (tiles.flatMap Tile.text).length
  have htext := htiled.text_eq
  have hrest : NumbersApart rest := (htext ▸ hapart).of_append
  have hstops' := hstops.solid hrest (fun c hc => hblanks c (by simp [htext, hc]))
    (solidBefore text)
  -- The freed text has the solid tiles, and its division stops at the same place.
  have hsolid := (htiled.solid hapart).text_eq
  have hcolumn : solidBefore text (tiles.flatMap Tile.text).length =
      ((tiles.filter isSolid).flatMap Tile.text).length := by
    have hfront : solid (tiles.flatMap Tile.text) = (tiles.filter isSolid).flatMap Tile.text := by
      rw [htext, solid_append] at hsolid
      exact List.append_cancel_right hsolid
    rw [← hfront, htext, solidBefore_append]
  rw [hcolumn] at hstops'
  rw [pullAll_of_tiled htiled, pullAll_of_tiled (htiled.solid hapart), Nat.zero_add, Nat.zero_add,
    pullAll_of_stopsAt hstops, pullAll_of_stopsAt hstops', List.map_append]
  have htokens : Tile.tokens 0 (tiles.filter isSolid) =
      (Tile.tokens 0 tiles).map (Token.relocate (solidBefore text)) := htiled.tokens_solid hapart []
  rw [htokens, List.map_map, List.map_map]
  rfl

end Cursor

namespace Calculator

/-- If no blanks but those that the cursor skips occur in a line, and none of them separate digits
or points, then the line is the same expression with its blanks and without them, or has the same
fault; the column of the fault is moved to the left by the blanks before it, and the end of the
line is moved to the end.  So the calculator computes the expression that the line spells. -/
theorem reading_ignores_blanks (limit : Nat) (source : String)
    (hblanks : ∀ c ∈ source.toList, isBlank c = true → c ∈ blankChars)
    (hapart : NumbersApart source.toList) :
    (∀ e, Expr.parseWithin limit source = .ok e ↔
      Expr.parseWithin limit (removeBlanks source) = .ok e) ∧
    (∀ fault, Expr.parseWithin limit source = .error fault → ∃ fault',
      Expr.parseWithin limit (removeBlanks source) = .error fault' ∧
      fault'.kind = fault.kind ∧ fault'.detail = fault.detail ∧
      fault'.column = fault.column.map (solidBefore source.toList)) ∧
    (removeBlanks source).length = solidBefore source.toList source.length ∧
    ∀ e, Expr.parseWithin limit source = .ok e →
      (evaluateWithin limit source).result = .ok ⟨e, e.value⟩ := by
  have hlength : (removeBlanks source).length = solidBefore source.toList source.length := by
    rw [removeBlanks_eq, String.length_ofList, solidBefore, ← String.length_toList,
      List.take_length]
  have hpulls : (Cursor.ofSource (removeBlanks source)).pullAll =
      (Cursor.ofSource source).pullAll.map (Pull.relocate (solidBefore source.toList)) := by
    rw [Cursor.ofSource, removeBlanks_eq, String.toList_ofList]
    exact Cursor.pullAll_solid hapart hblanks
  have hparse : Expr.parseWithin limit (removeBlanks source) = (Expr.parseWithin limit
      source).mapError (Fault.relocate (solidBefore source.toList)) :=
    Expr.parseWithin_relocate hlength hpulls
  refine ⟨fun e => ?same, fun fault hfault => ?fault, hlength, fun e he => ?value⟩
  case same =>
    rw [hparse]
    cases Expr.parseWithin limit source with
    | ok e' => exact Iff.rfl
    | error fault => exact iff_of_false (fun h => by cases h) fun h => by cases h
  case fault =>
    rw [hparse, hfault]
    exact ⟨_, rfl, FaultCause.kind_relocate _ _, FaultCause.detail_relocate _ _, rfl⟩
  case value =>
    rw [result_evaluateWithin, expressionText, hparse, he]
    rfl

/-- In `(1 + 2) .5` the point is found in column 8, and in column 5 when the blanks are gone. -/
theorem reading_ignores_blanks_before_point :
    Expr.parseWithin 20 "(1 + 2) .5" = .error ⟨.unexpectedCharacter '.', some 8⟩ ∧
    ∃ fault, Expr.parseWithin 20 "(1+2).5" = .error fault ∧
      fault.detail = "Unexpected character: '.'" ∧ fault.column = some 5 := by
  have hfault : Expr.parseWithin 20 "(1 + 2) .5" = .error ⟨.unexpectedCharacter '.', some 8⟩ := by
    decide +kernel
  have hline : removeBlanks "(1 + 2) .5" = "(1+2).5" := by decide +kernel
  have hchars : "(1 + 2) .5".toList = ['(', '1', ' ', '+', ' ', '2', ')', ' ', '.', '5'] := rfl
  obtain ⟨fault, hparse, -, hdetail, hcolumn⟩ := (reading_ignores_blanks 20 "(1 + 2) .5"
    (by simp [isBlank, blankRanges, CodeRange.anyContains, blankChars])
    (by rw [hchars]; decide)).2.1 _ hfault
  exact ⟨hfault, fault, hline ▸ hparse, hdetail, hcolumn⟩

end Calculator

end InfixCalculator
