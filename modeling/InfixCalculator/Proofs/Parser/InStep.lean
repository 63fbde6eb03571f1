import InfixCalculator.Proofs.Parser.SharedTokens
import InfixCalculator.Proofs.Parser.Advances
import InfixCalculator.Proofs.Token.Lexeme

/-!
# In step with the source

As long as no faulty lexeme is met, the cursor of a parser stands right behind the token ahead, so
that the column of this token determines the whole state.  Once a faulty lexeme is met, the parser
is cut off: the token before it stays ahead, and behind this token the source ends.
-/

namespace InfixCalculator

open Relation

open Parsing

namespace ParserState

variable {source : String} {s s' : ParserState} {fault : Fault}

/-- The cursor stands right behind the token ahead, which is spelled in the source where it says. -/
structure InStep (source : String) (s : ParserState) : Prop where
  length_eq : s.length = source.length
  placed : s.Placed
  entries : ∃ tokens : List Token,
    (Cursor.ofSource source).pullAll = tokens.map .token ++ s.ahead
  cursor_eq : s.cursor =
    Cursor.along source.toList (Cursor.lexemeEnd source.toList s.current.position)
  lexeme_eq : s.current.kind ≠ .eof → Cursor.lexemePull
    (Cursor.lexeme (source.toList.drop s.current.position)) s.current.position = .token s.current

/-- The cursor has met a faulty lexeme, which stands behind the token ahead or, once the parser has
moved on, where the source is taken to end. -/
structure CutOff (source : String) (s : ParserState) : Prop where
  length_eq : s.length = source.length
  placed : s.Placed
  finished : s.cursor.rest = []
  entries : ∃ (tokens : List Token) (fault : Fault), (Cursor.ofSource source).pullAll =
    tokens.map .token ++ if s.current.kind = .eof then [.failed fault]
      else [.token s.current, .failed fault]

theorem inStep_of_ofSource (h : ofSource source = .ok s) : s.InStep source := by
  have hstarts := starts_of_ofSource h
  unfold ofSource at h
  split at h
  · next token cursor hpull =>
    cases h
    have halong : Cursor.pull (Cursor.along source.toList 0) = (.token token, cursor) := hpull
    obtain ⟨-, -, hlexeme, hcursor⟩ := Cursor.pull_along halong
    exact ⟨rfl, fun heof => absurd heof hstarts.current_ne, ⟨[], hstarts.ahead_eq.symm⟩, hcursor,
      fun _ => hlexeme⟩
  · cases h
  · cases h

theorem InStep.position_lt (h : s.InStep source) (hs : s.current.kind ≠ .eof) :
    s.current.position < source.toList.length := by
  have hlexeme := h.lexeme_eq hs
  cases hdrop : source.toList.drop s.current.position with
  | nil => simp [hdrop, Cursor.lexeme, Cursor.lexemePull] at hlexeme
  | cons c text => exact List.length_lt_of_drop_ne_nil (by simp [hdrop])

theorem InStep.position_of_eof (h : s.InStep source) (heof : s.current.kind = .eof) :
    s.current.position = source.toList.length := by
  rw [h.placed heof, h.length_eq, String.length_toList]

theorem InStep.position_le (h : s.InStep source) : s.current.position ≤ source.toList.length := by
  by_cases heof : s.current.kind = .eof
  · exact Nat.le_of_eq (h.position_of_eof heof)
  · exact Nat.le_of_lt (h.position_lt heof)

theorem exists_entries_of_precedes {tokens : List Token} (hp : s.Precedes s')
    (hs : s.current.kind ≠ .eof)
    (h : (Cursor.ofSource source).pullAll = tokens.map .token ++ s.ahead) :
    (Cursor.ofSource source).pullAll = (tokens ++ [s.current]).map .token ++ s'.ahead := by
  rw [h, ahead_of_ne_eof hs, hp.ahead_eq]
  simp

theorem InStep.advances (h : s.InStep source) (hadvance : Advances s s') : s'.InStep source := by
  have hprecedes := hadvance.precedes
  obtain ⟨tokens, hentries⟩ := h.entries
  have hlength := hprecedes.length_eq.trans h.length_eq
  have hentries' := exists_entries_of_precedes hprecedes hadvance.ne_eof hentries
  have hend := Cursor.lexemeEnd_le h.position_le
  rcases hadvance.pull with ⟨t, next, hpull, rfl⟩ | ⟨next, hpull, rfl⟩
  · rw [h.cursor_eq] at hpull
    obtain ⟨-, -, hlexeme, hnext⟩ := Cursor.pull_along hpull
    exact ⟨hlength, hprecedes.placed, ⟨_, hentries'⟩, hnext, fun _ => hlexeme⟩
  · rw [h.cursor_eq] at hpull
    have hnext := Cursor.pull_along_exhausted hend hpull
    refine ⟨hlength, hprecedes.placed, ⟨_, hentries'⟩, ?_, fun hne => absurd rfl hne⟩
    rw [hnext, h.length_eq, ← String.length_toList, Cursor.lexemeEnd_length]

theorem InStep.cutOff (h : s.InStep source) (hfailed : advance s = .error fault s')
    (hlexical : fault.cause.isLexical = true) :
    s'.CutOff source ∧ s'.current.kind ≠ .eof ∧ ∃ tokens : List Token,
      (Cursor.ofSource source).pullAll =
        tokens.map .token ++ [.token s'.current, .failed fault] := by
  obtain ⟨hs, next, hpull, rfl⟩ := pull_of_failed hfailed hlexical
  obtain ⟨tokens, hentries⟩ := h.entries
  rw [ahead_of_ne_eof hs, Cursor.pullAll_of_failed hpull] at hentries
  refine ⟨⟨h.length_eq, fun heof => absurd heof hs, Cursor.rest_of_pull hpull (by simp),
    tokens, fault, ?_⟩, hs, tokens, hentries⟩
  rw [hentries, if_neg hs]

theorem CutOff.pull (h : s.CutOff source) :
    s.cursor.pull = (.exhausted, s.cursor) := by
  have hfinished := h.finished
  obtain ⟨length, current, rest, position⟩ := s
  obtain rfl : rest = [] := hfinished
  rfl

theorem CutOff.advances (h : s.CutOff source) (hadvance : Advances s s') :
    s'.CutOff source ∧ s'.current = ⟨.eof, none, source.length⟩ := by
  have hprecedes := hadvance.precedes
  obtain ⟨tokens, fault, hentries⟩ := h.entries
  rw [if_neg hadvance.ne_eof] at hentries
  rcases hadvance.pull with ⟨t, next, hpull, rfl⟩ | ⟨next, hpull, rfl⟩
  · rw [h.pull] at hpull
    cases hpull
  · rw [h.pull] at hpull
    cases hpull
    refine ⟨⟨h.length_eq, hprecedes.placed, h.finished, tokens ++ [s.current], fault, ?_⟩, ?_⟩
    · simpa using hentries
    · rw [h.length_eq]

theorem CutOff.not_failed (h : s.CutOff source) (hlexical : fault.cause.isLexical = true) :
    advance s ≠ .error fault s' := fun hfailed => by
  obtain ⟨-, next, hpull, -⟩ := pull_of_failed hfailed hlexical
  rw [h.pull] at hpull
  cases hpull

theorem CutOff.advance_eq (h : s.CutOff source) (hs : s.current.kind ≠ .eof) :
    ∃ s', advance s = .ok () s' ∧ s'.current = ⟨.eof, none, source.length⟩ := by
  obtain ⟨s', hadvance, -⟩ := Moment.exists_advance hs fun fault => by
    rw [Cursor.pullAll_of_exhausted h.pull]
    simp
  exact ⟨s', hadvance, (h.advances hadvance).2⟩

theorem InStep.leads (h : s.InStep source) (hleads : ReflTransGen Advances s s') :
    s'.InStep source := by
  induction hleads with
  | refl => exact h
  | tail _ hadvance ih => exact ih.advances hadvance

theorem CutOff.leads (h : s.CutOff source) (hleads : ReflTransGen Advances s s') :
    s'.CutOff source := by
  induction hleads with
  | refl => exact h
  | tail _ hadvance ih => exact (ih.advances hadvance).1

theorem eq_of_leads (hs : s.current.kind = .eof) (h : ReflTransGen Advances s s') : s' = s := by
  induction h with
  | refl => rfl
  | tail _ hadvance ih =>
    subst ih
    exact absurd hs hadvance.ne_eof

theorem InStep.current_of_position (h : s.InStep source) (h' : s'.InStep source)
    (hposition : s.current.position = s'.current.position) : s.current = s'.current := by
  by_cases heof : s.current.kind = .eof
  · by_cases heof' : s'.current.kind = .eof
    · rw [h.placed heof, h'.placed heof', h.length_eq, h'.length_eq]
    · have hlt := h'.position_lt heof'
      rw [← hposition, h.position_of_eof heof] at hlt
      exact absurd hlt (Nat.lt_irrefl _)
  · by_cases heof' : s'.current.kind = .eof
    · have hlt := h.position_lt heof
      rw [hposition, h'.position_of_eof heof'] at hlt
      exact absurd hlt (Nat.lt_irrefl _)
    · have hlexeme := h.lexeme_eq heof
      rw [hposition, h'.lexeme_eq heof'] at hlexeme
      exact (Pull.token.inj hlexeme).symm

/-- The column of the token ahead determines the state. -/
theorem InStep.eq_of_position (h : s.InStep source) (h' : s'.InStep source)
    (hposition : s.current.position = s'.current.position) : s = s' := by
  have hcurrent := h.current_of_position h' hposition
  have hlength := h.length_eq.trans h'.length_eq.symm
  have hcursor := h.cursor_eq.trans (hcurrent ▸ h'.cursor_eq.symm)
  cases s
  cases s'
  simp_all

/-! ## The number of the token ahead -/

def tokensBehind (source : String) (s : ParserState) : Nat :=
  (Cursor.ofSource source).pullAll.length - s.ahead.length

/-- The token ahead is the one behind the first `k` of a source, or these are all the tokens of the
source, and its end is ahead. -/
def IsAhead (source : String) (k : Nat) (t : Token) : Prop :=
  (Cursor.ofSource source).pullAll[k]? = some (.token t) ∨
    t = ⟨.eof, none, source.length⟩ ∧ k + 1 = (Cursor.ofSource source).pullAll.length

theorem InStep.isAhead (h : s.InStep source) :
    IsAhead source (s.tokensBehind source) s.current := by
  obtain ⟨tokens, hentries⟩ := h.entries
  have hbehind : s.tokensBehind source = tokens.length := by simp [tokensBehind, hentries]
  rw [IsAhead, hbehind, hentries]
  by_cases heof : s.current.kind = .eof
  · right
    rw [h.placed heof, h.length_eq, ahead_of_eof heof]
    simp
  · left
    rw [ahead_of_ne_eof heof]
    simp

theorem CutOff.isAhead (h : s.CutOff source) :
    IsAhead source (s.tokensBehind source) s.current := by
  obtain ⟨tokens, fault, hentries⟩ := h.entries
  by_cases heof : s.current.kind = .eof
  · rw [if_pos heof] at hentries
    have hbehind : s.tokensBehind source = tokens.length := by
      simp [tokensBehind, hentries, ahead_of_eof heof]
    rw [IsAhead, hbehind, hentries, h.placed heof, h.length_eq]
    simp
  · rw [if_neg heof] at hentries
    have hbehind : s.tokensBehind source = tokens.length := by
      simp [tokensBehind, hentries, ahead_of_ne_eof heof, Cursor.pullAll_of_exhausted h.pull]
    rw [IsAhead, hbehind, hentries]
    simp

theorem length_ahead_le_of_leads (h : ReflTransGen Advances s s') :
    s'.ahead.length ≤ s.ahead.length := by
  induction h with
  | refl => exact Nat.le_refl _
  | tail _ hadvance ih =>
    have hlen := hadvance.precedes.length_ahead hadvance.ne_eof
    omega

theorem length_ahead_of_failed (hfailed : advance s = .error fault s')
    (hlexical : fault.cause.isLexical = true) : s'.ahead.length = s.ahead.length := by
  obtain ⟨hs, next, hpull, rfl⟩ := pull_of_failed hfailed hlexical
  have hrest := Cursor.rest_of_pull hpull (by simp)
  obtain ⟨rest, position⟩ := next
  obtain rfl : rest = [] := hrest
  rw [ahead_of_ne_eof hs, Cursor.pullAll_of_failed hpull]
  unfold ahead
  rw [if_neg hs]
  rfl

end ParserState

end InfixCalculator
