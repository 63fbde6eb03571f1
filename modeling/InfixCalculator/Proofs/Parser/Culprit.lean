import InfixCalculator.Proofs.Parser.Finality
import InfixCalculator.Proofs.Token.Tiling

/-!
# The culprit of a fault

A fault with a column complains of a token that is refused, of characters that are no token, or of
the end of the source.  What it complains of is spelled in the source from this column on.
-/

namespace InfixCalculator

open Relation Parsing Tile

namespace FaultCause

def found? : FaultCause → Option Token
  | expected _ found | operandExpected found | operatorExpected found | leftoverToken found =>
    some found
  | _ => none

theorem found?_of_refuse {c : CallStack} {t : Token} {cause : FaultCause}
    (h : c.act t = .refuse cause) (ht : t.kind ≠ .eof) : cause.found? = some t := by
  obtain ⟨n, stage, callers⟩ := c
  unfold CallStack.act CallStack.returned at h
  grind [found?]

end FaultCause

/-- What a cause complains of is spelled `culprit` at a column, and `rest` follows it: a token, a
character that begins none, or a run of digits with more than one point. -/
inductive Culprit (column : Nat) : FaultCause → List Char → List Char → Prop
  | token {cause : FaultCause} {t : Token} {tile : Tile} {rest : List Char}
      (found : cause.found? = some t) (spelled : tile.token? column = some t)
      (fits : tile.Fits rest) : Culprit column cause tile.text rest
  | character {c : Char} {rest : List Char} (blank : c ∉ blankChars)
      (symbol : ∀ kind, (c, kind) ∉ symbolKinds) (digit : c.isDigit = false) :
      Culprit column (.unexpectedCharacter c) [c] rest
  | literal {run rest : List Char} (isRun : IsRun run rest) (points : 1 < run.count '.') :
      Culprit column (.malformedNumber run) run rest

/-- The column at which a cause is found in a source. -/
inductive Located (source : String) : FaultCause → Nat → Prop
  | token {cause : FaultCause} {t : Token} (found : cause.found? = some t)
      (pulled : .token t ∈ (Cursor.ofSource source).pullAll) : Located source cause t.position
  | lexeme {cause : FaultCause} {column : Nat}
      (failed : .failed ⟨cause, some column⟩ ∈ (Cursor.ofSource source).pullAll) :
      Located source cause column
  | finish {cause : FaultCause} (atEnd : cause.isAtEnd = true) :
      Located source cause source.length

variable {limit column : Nat} {source : String} {fault : Fault} {cause : FaultCause} {t : Token}
  {tile : Tile} {text rest culprit : List Char}

/-! ## Where faults are found -/

namespace Moment

variable {s : ParserState} {m : Moment}

theorem located_of_refuse (hs : ParserState.ofSource source = .ok s)
    (h : ReflTransGen Next (first s) m) (act : m.calls.act m.state.current = .refuse cause) :
    Located source cause m.state.current.position := by
  by_cases heof : m.state.current.kind = .eof
  · have hstarts := ParserState.starts_of_ofSource hs
    obtain ⟨hplaced, hlength⟩ := placed h fun heof => absurd heof hstarts.current_ne
    rw [hplaced heof, hlength, hstarts.length_eq]
    exact .finish ((CallStack.isAtEnd_of_refuse act).2 heof)
  · obtain ⟨tokens, hpulls⟩ := exists_pullAll hs h heof
    refine .token (FaultCause.found?_of_refuse act heof) ?_
    rw [hpulls]
    simp

theorem failed_of_lexical {c : CallStack} {s' : ParserState}
    (hs : ParserState.ofSource source = .ok s) (h : ReflTransGen Next (first s) m)
    (act : m.calls.act m.state.current = .read c) (failed : advance m.state = .error fault s') :
    .failed fault ∈ (Cursor.ofSource source).pullAll := by
  have heof := CallStack.ne_eof_of_read act
  have hcursor := (advance_ends heof).of_error failed
  obtain ⟨tokens, hpulls⟩ := exists_pullAll hs h heof
  rw [hpulls, hcursor]
  simp

end Moment

namespace Cursor

theorem exists_divides (source : String) : ∃ tiles rest ending,
    Divides source.toList tiles rest ending ∧
      (ofSource source).pullAll = (Tile.tokens 0 tiles).map .token ++ [ending] := by
  obtain ⟨tiles, rest, htiled, hstops⟩ := exists_tiled source.toList
  obtain ⟨ending, hending⟩ := hstops (tiles.flatMap Tile.text).length
  refine ⟨tiles, rest, ending, ⟨htiled, hending⟩, ?_⟩
  rw [ofSource, pullAll_of_tiled htiled, Nat.zero_add, pullAll_of_stopsAt hending]

theorem column_of_failed (h : .failed fault ∈ (ofSource source).pullAll) :
    ∃ column, fault.column = some column := by
  obtain ⟨tiles, rest, ending, hdivides, hpulls⟩ := exists_divides source
  rw [hpulls] at h
  have hfailed : .failed fault = ending := by simpa using h
  subst hfailed
  cases hdivides.stops with
  | malformed isRun points => exact ⟨_, rfl⟩
  | unexpected blank symbol digit => exact ⟨_, rfl⟩

end Cursor

/-- A source without tokens and one that is nested too deeply are rejected as a whole, every other
rejected source at a column. -/
theorem Expr.located_of_parseWithin (h : parseWithin limit source = .error fault) :
    fault = ⟨.emptyExpression, none⟩ ∧ (Cursor.ofSource source).pullAll = [.exhausted] ∨
      fault = .tooDeep ∨
      ∃ column, fault.column = some column ∧ Located source fault.cause column := by
  have hlexeme (hfailed : .failed fault ∈ (Cursor.ofSource source).pullAll) :
      ∃ column, fault.column = some column ∧ Located source fault.cause column := by
    obtain ⟨column, hcolumn⟩ := Cursor.column_of_failed hfailed
    refine ⟨column, hcolumn, .lexeme ?_⟩
    rwa [← hcolumn]
  cases hs : ParserState.ofSource source with
  | error fault' =>
    rw [parseWithin_of_not_ofSource hs] at h
    cases h
    rcases ParserState.pullAll_of_not_ofSource hs with ⟨hnone, rfl⟩ | hfailed
    · exact .inl ⟨rfl, hnone⟩
    · exact .inr (.inr (hlexeme (by simp [hfailed])))
  | ok s =>
    rw [parseWithin_of_ofSource hs] at h
    by_cases hdeep : fault = .tooDeep
    · exact .inr (.inl hdeep)
    · obtain ⟨-, m, hm, hend⟩ := leads_of_result h (by simpa using hdeep)
      have hnext := Moment.leads_of_within hm
      right; right
      cases hend with
      | refuse act => exact ⟨_, rfl, Moment.located_of_refuse hs hnext act⟩
      | lexical act failed => exact hlexeme (Moment.failed_of_lexical hs hnext act failed)

/-! ## How culprits are spelled -/

theorem Tile.position_of_token? (h : tile.token? column = some t) : t.position = column := by
  cases tile with
  | blank c => cases h
  | symbol c kind =>
    cases h
    rfl
  | number run =>
    cases h
    rfl

theorem Tiled.exists_tile {tiles : List Tile} (h : Tiled text tiles rest)
    (ht : t ∈ Tile.tokens column tiles) : ∃ (front : List Char) (tile : Tile) (after : List Char),
      text = front ++ (tile.text ++ after) ∧ tile.Fits after ∧
        tile.token? t.position = some t ∧ t.position = column + front.length := by
  induction h generalizing column with
  | nil rest => cases ht
  | @cons tile text rest tiles fits more ih =>
    rw [Tile.tokens, List.mem_append] at ht
    rcases ht with ht | ht
    · have htoken : tile.token? column = some t := by simpa using ht
      have hposition := position_of_token? htoken
      exact ⟨[], tile, text, rfl, fits, hposition.symm ▸ htoken, hposition⟩
    · obtain ⟨front, tile', after, rfl, hfits, htoken, hposition⟩ := ih ht
      refine ⟨tile.text ++ front, tile', after, ?_, hfits, htoken, ?_⟩
      · rw [List.append_assoc]
      · rw [hposition, List.length_append, Nat.add_assoc]

/-- A cause is found at the end of the source, or what it complains of is spelled at its column. -/
theorem Located.exists_culprit (h : Located source cause column) :
    column ≤ source.length ∧
      (cause.isAtEnd = true ∧ column = source.length ∨
        ∃ culprit rest, Culprit column cause culprit rest ∧ culprit ≠ [] ∧
          source.toList.drop column = culprit ++ rest) := by
  obtain ⟨tiles, left, ending, hdivides, hpulls⟩ := Cursor.exists_divides source
  have hlength (front after : List Char) (h : source.toList = front ++ after) :
      front.length ≤ source.length := by simp [← String.length_toList, h]
  cases h with
  | @token t found pulled =>
    have hmem : t ∈ Tile.tokens 0 tiles := by
      rw [hpulls] at pulled
      cases hdivides.stops <;> simpa using pulled
    obtain ⟨front, tile, after, htext, hfits, htoken, hposition⟩ :=
      hdivides.tiled.exists_tile hmem
    rw [Nat.zero_add] at hposition
    refine ⟨?_, .inr ⟨tile.text, after, .token found htoken hfits, hfits.text_ne_nil, ?_⟩⟩
    · rw [hposition]
      exact hlength front _ htext
    · rw [htext, hposition, List.drop_left]
  | lexeme failed =>
    have hfailed : .failed ⟨cause, some column⟩ = ending := by
      rw [hpulls] at failed
      simpa using failed
    subst hfailed
    have htext := hdivides.tiled.text_eq
    obtain ⟨culprit, rest, hculprit, hne, rfl, rfl⟩ : ∃ culprit rest,
        Culprit column cause culprit rest ∧ culprit ≠ [] ∧ left = culprit ++ rest ∧
          column = (tiles.flatMap Tile.text).length := by
      cases hdivides.stops with
      | malformed isRun points =>
        refine ⟨_, _, .literal isRun points, ?_, rfl, rfl⟩
        rintro rfl
        simp at points
      | unexpected blank symbol digit =>
        exact ⟨_, _, .character blank symbol digit, by simp, rfl, rfl⟩
    refine ⟨hlength _ _ htext, .inr ⟨culprit, rest, hculprit, hne, ?_⟩⟩
    rw [htext, List.drop_left]
  | finish atEnd => exact ⟨le_rfl, .inl ⟨atEnd, rfl⟩⟩

theorem Expr.located_of_column (h : parseWithin limit source = .error fault)
    (hcolumn : fault.column = some column) : Located source fault.cause column := by
  rcases located_of_parseWithin h with ⟨rfl, -⟩ | rfl | ⟨column', hcolumn', hlocated⟩
  · cases hcolumn
  · cases hcolumn
  · rw [hcolumn] at hcolumn'
    cases hcolumn'
    exact hlocated

theorem Expr.column_eq_none_iff (h : parseWithin limit source = .error fault) :
    fault.column = none ↔
      (Cursor.ofSource source).pullAll = [.exhausted] ∨ fault.cause = .nestedTooDeeply := by
  rcases located_of_parseWithin h with ⟨rfl, hnone⟩ | rfl | ⟨column, hcolumn, hlocated⟩
  · simp [hnone]
  · simp [Fault.tooDeep]
  · have hplaced : fault.cause ≠ .nestedTooDeeply := by
      intro hdeep
      rw [hdeep] at hlocated
      rcases hlocated.exists_culprit.2 with ⟨hatEnd, -⟩ | ⟨culprit, rest, hculprit, -⟩
      · cases hatEnd
      · cases hculprit with
        | token found => cases found
    have hsome : (Cursor.ofSource source).pullAll ≠ [.exhausted] := by
      intro hnone
      rw [parseWithin_of_no_token limit hnone] at h
      cases h
      cases hcolumn
    simp [hcolumn, hplaced, hsome]

end InfixCalculator
