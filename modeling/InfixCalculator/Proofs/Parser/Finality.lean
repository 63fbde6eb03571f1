import InfixCalculator.Proofs.Parser.Completion
import InfixCalculator.Proofs.Parser.Nesting

/-!
# Faults are found early and are final

Every token is judged before the next one is pulled.  So the text before the column of a fault can
be completed to an expression, and behind the lexeme at this column no text can make up for it.
-/

namespace InfixCalculator

open Relation Parsing

def FaultCause.isAtEnd : FaultCause → Bool
  | noMoreTokens | unexpectedEnd => true
  | expected _ found | operandExpected found | operatorExpected found | leftoverToken found =>
    found.kind = .eof
  | _ => false

theorem FaultCause.not_isAtEnd_of_isLexical {cause : FaultCause} (h : cause.isLexical = true) :
    cause.isAtEnd = false := by
  cases cause <;> simp_all [isLexical, isAtEnd]

theorem CallStack.isAtEnd_of_refuse {c : CallStack} {t : Token} {cause : FaultCause}
    (h : c.act t = .refuse cause) : cause.isAtEnd = true ↔ t.kind = .eof := by
  obtain ⟨n, stage, callers⟩ := c
  unfold act returned at h
  grind [FaultCause.isAtEnd]

/-! ## What has been read -/

namespace Moment

variable {limit : Nat} {source source' : String} {s : ParserState} {m : Moment} {c : CallStack}
  {tokens : List Token}

/-- Behind the first tokens of a source, all taken within the limit, these calls are live. -/
inductive LiveBehind (limit : Nat) (source : String) : List Token → CallStack → Prop
  | start : LiveBehind limit source [] .start
  | read {s : ParserState} {m : Moment} {tokens : List Token} {c : CallStack}
      (starts : ParserState.ofSource source = .ok s)
      (leads : ReflTransGen (NextWithin limit) (first s) m) (live : m.liveCalls ≤ limit)
      (pulls : (Cursor.ofSource source).pullAll =
        tokens.map .token ++ .token m.state.current :: m.state.cursor.pullAll)
      (act : m.calls.act m.state.current = .read c) :
      LiveBehind limit source (tokens ++ [m.state.current]) c

theorem liveBehind_of_leads (hs : ParserState.ofSource source = .ok s) (hlimit : 0 < limit)
    (h : ReflTransGen (NextWithin limit) (first s) m) :
    ∃ tokens c, LiveBehind limit source tokens c ∧
      (Cursor.ofSource source).pullAll = tokens.map .token ++ m.state.ahead := by
  induction h with
  | refl => exact ⟨[], .start, .start, (ParserState.starts_of_ofSource hs).ahead_eq.symm⟩
  | tail hm hnext ih =>
    have hlive := (outcome_of_leads (m := first s) hlimit hm).1
    cases hnext.1 with
    | turn => exact ih
    | read act advanced =>
      obtain ⟨tokens, htokens⟩ :=
        exists_pullAll hs (leads_of_within hm) (CallStack.ne_eof_of_read act)
      refine ⟨_, _, .read hs hm hlive htokens act, ?_⟩
      simpa [(precedes_of_read act advanced).ahead_eq] using htokens

theorem exists_ok_of_liveBehind {more : List Token} (h : LiveBehind limit source tokens c)
    (hpulls : (Cursor.ofSource source').pullAll =
      tokens.map .token ++ (more.map .token ++ [.exhausted]))
    (hmore : more.map Token.kind = c.completion) :
    ∃ e, Expr.parseWithin (limit + 1) source' = .ok e := by
  cases h with
  | start =>
    obtain ⟨t, rest, rfl, -⟩ := List.map_eq_cons_iff.1 hmore
    obtain ⟨s', hs'⟩ := ParserState.exists_ofSource hpulls
    have hlists : s'.Lists (t :: rest) := (ParserState.starts_of_ofSource hs').ahead_eq.trans hpulls
    have hsucceeds : Succeeds (limit + 1) (first s') :=
      succeeds_of_completion rfl (Nat.le_add_left 1 limit) hlists hmore
    obtain ⟨m', e, hm', hend⟩ := hsucceeds
    rw [Expr.parseWithin_of_ofSource hs']
    exact ⟨e, result_whole limit.succ_pos hm' hend⟩
  | @read s m tokens c starts leads live pulls act =>
    have heof := CallStack.ne_eof_of_read act
    rw [List.map_append, List.append_assoc] at hpulls
    obtain ⟨s', s₁', hs', hm', hcurrent, hcursor⟩ :=
      leads_of_pullAll starts leads pulls hpulls heof
    have hsome : ∀ fault, s₁'.cursor.pullAll ≠ [.failed fault] := by
      rw [hcursor]
      cases more <;> simp
    obtain ⟨s₂', hadvance, hahead⟩ := exists_advance (hcurrent ▸ heof) hsome
    have hnext : Next ⟨m.calls, s₁'⟩ ⟨c, s₂'⟩ := .read (hcurrent ▸ act) hadvance
    have hlive : c.liveCalls ≤ limit + 1 :=
      Nat.le_trans (liveCalls_le_of_next hnext) (Nat.succ_le_succ live)
    have hthresholds := CallStack.thresholds_of_act (thresholds (leads_of_within leads)) (.inl act)
    obtain ⟨m', e, hm₂, hend⟩ :=
      succeeds_of_completion hthresholds hlive (hahead.trans hcursor) hmore
    rw [Expr.parseWithin_of_ofSource hs']
    have hm₁ := (leads_of_le limit.le_succ hm').tail ⟨hnext, hlive⟩
    exact ⟨e, result_whole limit.succ_pos (hm₁.trans hm₂) hend⟩

end Moment

/-! ## Where a reading stops -/

/-- A reading that fails behind some tokens stops at the entry behind them: at the end of the
source, or at the column of the fault.  It fails alike in every source with the same entries so
far. -/
structure StopsBehind (limit : Nat) (source : String) (fault : Fault) (column : Nat)
    (tokens : List Token) (head : Pull) : Prop where
  entry : ∃ pulls, (Cursor.ofSource source).pullAll = tokens.map .token ++ head :: pulls
  place : head = .exhausted ∧ column = source.length ∧ fault.cause.isAtEnd = true ∨
    head.column? = some column ∧ fault.cause.isAtEnd = false
  again : fault.cause.isAtEnd = false → ∀ source' pulls',
    (Cursor.ofSource source').pullAll = tokens.map .token ++ head :: pulls' →
    ((∀ t, head ≠ .token t) → pulls' = []) → Expr.parseWithin limit source' = .error fault

namespace Moment

variable {limit column : Nat} {source : String} {s : ParserState} {m : Moment} {c : CallStack}
  {fault : Fault} {tokens : List Token}

theorem stopsBehind_of_not_ofSource (h : ParserState.ofSource source = .error fault)
    (hcolumn : fault.column = some column) :
    StopsBehind limit source fault column [] (.failed fault) := by
  have hpulls : (Cursor.ofSource source).pullAll = [.failed fault] := by
    rcases ParserState.pullAll_of_not_ofSource h with ⟨-, rfl⟩ | hpulls
    · cases hcolumn
    · exact hpulls
  have hlexical := FaultCause.not_isAtEnd_of_isLexical (Cursor.isLexical_of_pullAll hpulls)
  refine ⟨⟨[], hpulls⟩, .inr ⟨hcolumn, hlexical⟩, fun _ source' pulls' hpulls' hend => ?_⟩
  obtain rfl := hend (by simp)
  exact Expr.parseWithin_of_not_ofSource (ParserState.ofSource_of_failed hpulls')

theorem exists_stopsBehind_of_refuse (hs : ParserState.ofSource source = .ok s) (hlimit : 0 < limit)
    (h : ReflTransGen (NextWithin limit) (first s) m) {cause : FaultCause}
    (act : m.calls.act m.state.current = .refuse cause) :
    ∃ tokens c head, LiveBehind limit source tokens c ∧
      StopsBehind limit source ⟨cause, some m.state.current.position⟩ m.state.current.position
        tokens head := by
  obtain ⟨tokens, c, hlive, hpulls⟩ := liveBehind_of_leads hs hlimit h
  have hatEnd := CallStack.isAtEnd_of_refuse act
  by_cases heof : m.state.current.kind = .eof
  · have hstarts := ParserState.starts_of_ofSource hs
    obtain ⟨hplaced, hlength⟩ :=
      placed (leads_of_within h) fun heof => absurd heof hstarts.current_ne
    rw [ParserState.ahead_of_eof heof] at hpulls
    refine ⟨tokens, c, .exhausted, hlive, ⟨[], hpulls⟩, .inl ⟨rfl, ?_, hatEnd.2 heof⟩, ?_⟩
    · rw [hplaced heof, hlength, hstarts.length_eq]
    · exact fun hnot => absurd (hatEnd.2 heof) (by simp [hnot])
  · rw [ParserState.ahead_of_ne_eof heof] at hpulls
    refine ⟨tokens, c, .token m.state.current, hlive, ⟨_, hpulls⟩, .inr ⟨rfl, ?_⟩, ?_⟩
    · simpa [← hatEnd] using heof
    · intro _ source' pulls' hpulls' _
      obtain ⟨s', s₁', hs', hm', hcurrent, -⟩ := leads_of_pullAll hs h hpulls hpulls' heof
      rw [Expr.parseWithin_of_ofSource hs', ← hcurrent]
      exact result_whole hlimit hm' (.refuse (hcurrent ▸ act))

theorem exists_stopsBehind_of_lexical (hs : ParserState.ofSource source = .ok s)
    (hlimit : 0 < limit) (h : ReflTransGen (NextWithin limit) (first s) m)
    (act : m.calls.act m.state.current = .read c) {s' : ParserState}
    (failed : advance m.state = .error fault s') (hcolumn : fault.column = some column) :
    ∃ tokens c head, LiveBehind limit source tokens c ∧
      StopsBehind limit source fault column tokens head := by
  have heof := CallStack.ne_eof_of_read act
  have hcursor := (advance_ends heof).of_error failed
  have hlexical := FaultCause.not_isAtEnd_of_isLexical (Cursor.isLexical_of_pullAll hcursor)
  obtain ⟨tokens, hpulls⟩ := exists_pullAll hs (leads_of_within h) heof
  have hlive := (outcome_of_leads (m := first s) hlimit h).1
  refine ⟨_, c, .failed fault, .read hs h hlive hpulls act, ⟨[], ?_⟩, .inr ⟨hcolumn, hlexical⟩, ?_⟩
  · simpa [hcursor] using hpulls
  · intro _ source' pulls' hpulls' hend
    obtain rfl := hend (by simp)
    rw [List.map_append, List.append_assoc] at hpulls'
    obtain ⟨s₁, s₁', hs₁, hm', hcurrent, hcursor'⟩ := leads_of_pullAll hs h hpulls hpulls' heof
    obtain ⟨s₂, hadvance⟩ : ∃ s₂, advance s₁' = .error fault s₂ :=
      exists_advance_error (hcurrent ▸ heof) hcursor'
    rw [Expr.parseWithin_of_ofSource hs₁]
    exact result_whole hlimit hm' (.lexical (hcurrent ▸ act) hadvance)

end Moment

namespace Expr

variable {limit column : Nat} {source : String} {fault : Fault}

theorem exists_stopsBehind (hfault : parseWithin limit source = .error fault)
    (hcolumn : fault.column = some column) :
    ∃ tokens c head, Moment.LiveBehind limit source tokens c ∧
      StopsBehind limit source fault column tokens head := by
  cases hs : ParserState.ofSource source with
  | error fault' =>
    rw [parseWithin_of_not_ofSource hs] at hfault
    cases hfault
    exact ⟨[], .start, _, .start, Moment.stopsBehind_of_not_ofSource hs hcolumn⟩
  | ok s =>
    rw [parseWithin_of_ofSource hs] at hfault
    have hne : (.error fault : Except Fault Expr) ≠ .error .tooDeep := by
      rintro ⟨⟩
      simp [Fault.tooDeep] at hcolumn
    obtain ⟨hlimit, m, hm, hend⟩ := leads_of_result hfault hne
    cases hend with
    | refuse act =>
      cases hcolumn
      exact Moment.exists_stopsBehind_of_refuse hs hlimit hm act
    | lexical act failed =>
      exact Moment.exists_stopsBehind_of_lexical hs hlimit hm act failed hcolumn

def before (source : String) (column : Nat) : String := String.ofList (source.toList.take column)

theorem ofSource_before_append (source more : String) (column : Nat) :
    Cursor.ofSource (before source column ++ more) =
      ⟨source.toList.take column ++ more.toList, 0⟩ := by
  simp [Cursor.ofSource, before]

/-- Faults with a column are found as early as possible, and they are final. -/
theorem parseWithin_fault_final (hfault : parseWithin limit source = .error fault)
    (hcolumn : fault.column = some column) :
    (∃ w e, ∀ limit', limit < limit' →
      parseWithin limit' (before source column ++ w) = .ok e) ∧
    (fault.cause.isAtEnd = false → ∀ r : String,
      Cursor.extendsLexeme (Cursor.lexeme (source.toList.drop column)) r.toList = false →
        parseWithin limit (before source (Cursor.lexemeEnd source.toList column) ++ r) =
          .error fault) ∧
    (fault.cause.isAtEnd = true → column = source.length) := by
  obtain ⟨tokens, c, head, hlive, hstop⟩ := exists_stopsBehind hfault hcolumn
  obtain ⟨pulls, hpulls⟩ := hstop.entry
  refine ⟨?viable, ?final, ?atEnd⟩
  case viable =>
    have hplace : head = .exhausted ∧ column = source.toList.length ∨
        head.column? = some column := by
      rcases hstop.place with ⟨hhead, hlength, -⟩ | ⟨hhead, -⟩
      · exact .inl ⟨hhead, by rw [hlength, String.length_toList]⟩
      · exact .inr hhead
    have hcut := Cursor.pullAll_take_skipped hplace hpulls (c := ' ') rfl c.completionText
    obtain ⟨more, hmore, hkinds⟩ := Cursor.pullAll_completionText c (column + 1)
    rw [hmore, ← String.toList_ofList (l := ' ' :: c.completionText),
      ← ofSource_before_append] at hcut
    obtain ⟨e, he⟩ := Moment.exists_ok_of_liveBehind hlive hcut hkinds
    refine ⟨String.ofList (' ' :: c.completionText), e, fun limit' hlt => ?_⟩
    rw [parseWithin_of_le (by rw [he]; simp) hlt, he]
  case final =>
    intro hnot r hr
    have hhead : head.column? = some column := by
      rcases hstop.place with ⟨-, -, hatEnd⟩ | ⟨hhead, -⟩
      · simp [hnot] at hatEnd
      · exact hhead
    obtain ⟨pulls', hpulls', hend⟩ := Cursor.pullAll_take_lexemeEnd hhead hpulls hr
    rw [← ofSource_before_append] at hpulls'
    exact hstop.again hnot _ pulls' hpulls' hend
  case atEnd =>
    intro hatEnd
    rcases hstop.place with ⟨-, hlength, -⟩ | ⟨-, hnot⟩
    · exact hlength
    · simp [hatEnd] at hnot

/-- In `(2 +)^` the closing bracket is refused, and it is refused whatever follows it. -/
theorem parseWithin_fault_final_closing :
    parseWithin 9 "(2 +)^" = .error ⟨.operandExpected ⟨.rightParen, none, 4⟩, some 4⟩ ∧
      parseWithin 9 (before "(2 +)^" 5 ++ "7)") =
        .error ⟨.operandExpected ⟨.rightParen, none, 4⟩, some 4⟩ := by
  have hfault : parseWithin 9 "(2 +)^" =
      .error ⟨.operandExpected ⟨.rightParen, none, 4⟩, some 4⟩ := by decide +kernel
  exact ⟨hfault, (parseWithin_fault_final hfault rfl).2.1 rfl "7)" (by decide +kernel)⟩

end Expr

end InfixCalculator
