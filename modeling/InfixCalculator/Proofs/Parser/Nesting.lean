import InfixCalculator.Proofs.Grammar.Climbing
import InfixCalculator.Proofs.Parser.SharedTokens
import InfixCalculator.Proofs.Parser.Thresholds
import InfixCalculator.Proofs.Token.Lexeme

/-!
# Nesting

Only nesting makes calls pile up: chains of operators, however long, are read with four live calls.
A limit of nesting changes no result but to the fault of too deep nesting, and once a reading is too
deep no further text can help.
-/

namespace InfixCalculator

open Relation Parsing

/-! ## Chains of operators -/

/-- Numbers with binary operators between them, without signs and brackets. -/
inductive IsChain : List Token → Prop
  | single {number : Token} (literal : number.kind = .num) : IsChain [number]
  | link {number operator : Token} {tokens : List Token} (literal : number.kind = .num)
      (binary : operator.kind.operator?.isSome) (more : IsChain tokens) :
      IsChain (number :: operator :: tokens)

/-- What is ahead in the middle of a chain: a number where an operand is due, and otherwise an
operator or the end of the source. -/
def Moment.InChain (m : Moment) : Prop :=
  m.openLevels = 0 ∧
    match m.calls.stage with
    | .operand => ∃ tokens, IsChain tokens ∧ m.state.Lists tokens
    | .operators _ => m.state.Lists [] ∨ ∃ operator tokens, operator.kind.operator?.isSome ∧
        IsChain tokens ∧ m.state.Lists (operator :: tokens)
    | .behindBracket _ => False

namespace Moment

variable {m m' : Moment} {s : ParserState} {r : Except Fault Expr}

theorem callers_of_no_level {callers : List WaitingCall}
    (h : callers.countP (·.awaited.opensLevel) = 0) :
    callers = [] ∨ ∃ n op left rest, callers = ⟨n, .rightOperand op left⟩ :: rest ∧
      rest.countP (·.awaited.opensLevel) = 0 := by
  rcases callers with _ | ⟨⟨n, awaited⟩, rest⟩
  · exact .inl rfl
  · cases awaited with
    | rightOperand op left =>
      exact .inr ⟨n, op, left, rest, rfl, by simpa [Awaited.opensLevel] using h⟩
    | negated | bracketed | factor left => simp [Awaited.opensLevel] at h

theorem act_of_inChain (hm : m.InChain)
    (hthresholds : CallStack.Thresholds m.calls.threshold m.calls.callers) :
    (∃ e, m.calls.act m.state.current = .finish e) ∨
    (∃ c, m.calls.act m.state.current = .turn c ∧ InChain ⟨c, m.state⟩) ∨
    ∃ c, m.calls.act m.state.current = .read c ∧ (∃ tokens, m.state.Lists tokens) ∧
      ∀ s', m.state.Precedes s' → InChain ⟨c, s'⟩ := by
  obtain ⟨⟨n, stage, callers⟩, s⟩ := m
  obtain ⟨hlevels, hstage⟩ := hm
  change callers.countP _ = 0 at hlevels
  cases stage with
  | behindBracket inner => exact hstage.elim
  | operand =>
    obtain ⟨tokens, hchain, hlists⟩ := hstage
    have hread {number : Token} (literal : number.kind = .num) :
        CallStack.act ⟨n, .operand, callers⟩ number =
          .read ⟨n, .operators (.leaf number.number), callers⟩ := by
      simp only [CallStack.act, literal]
    right; right
    cases hchain with
    | single literal =>
      obtain ⟨rfl, -⟩ := hlists.current_of_cons
      exact ⟨_, hread literal, ⟨_, hlists⟩, fun s' hs' => ⟨hlevels, .inl (hlists.tail hs')⟩⟩
    | link literal binary more =>
      obtain ⟨rfl, -⟩ := hlists.current_of_cons
      exact ⟨_, hread literal, ⟨_, hlists⟩,
        fun s' hs' => ⟨hlevels, .inr ⟨_, _, binary, more, hlists.tail hs'⟩⟩⟩
  | operators left =>
    have hreturned := callers_of_no_level hlevels
    rcases hstage with hnil | ⟨operator, tokens, binary, hchain, hlists⟩
    · have hact : CallStack.act ⟨n, .operators left, callers⟩ s.current =
          CallStack.returned callers left s.current := if_pos (.inr hnil.current_of_nil)
      rcases hreturned with rfl | ⟨n', op, left', rest, rfl, hrest⟩
      · exact .inl ⟨left, hact.trans (if_pos hnil.current_of_nil)⟩
      · exact .inr (.inl ⟨_, hact, hrest, .inl hnil⟩)
    · obtain ⟨op, hop⟩ := Option.isSome_iff_exists.1 binary
      obtain ⟨rfl, heof⟩ := hlists.current_of_cons
      by_cases hstop : (s.current.precedence : Int) ≤ n
      · have hact : CallStack.act ⟨n, .operators left, callers⟩ s.current =
            CallStack.returned callers left s.current := if_pos (.inl hstop)
        rcases hreturned with rfl | ⟨n', op', left', rest, rfl, hrest⟩
        · -- The first call takes every operator.
          obtain rfl : n = 0 := hthresholds
          exact absurd (Int.natCast_pos.2 (TokenKind.precedence_pos hop)) (Int.not_lt.2 hstop)
        · exact .inr (.inl ⟨_, hact, hrest, .inr ⟨_, tokens, binary, hchain, hlists⟩⟩)
      · right; right
        have hact : CallStack.act ⟨n, .operators left, callers⟩ s.current =
            .read ⟨s.current.precedence, .operand, ⟨n, .rightOperand op left⟩ :: callers⟩ := by
          simp only [CallStack.act, hstop, heof, or_self, if_false, hop]
        refine ⟨_, hact, ⟨_, hlists⟩, fun s' hs' => ⟨?_, tokens, hchain, hlists.tail hs'⟩⟩
        simpa [openLevels, CallStack.openLevels, Awaited.opensLevel] using hlevels

theorem inChain (h : ReflTransGen Next (first s) m) (hs : (first s).InChain) : m.InChain := by
  induction h with
  | refl => exact hs
  | tail hm hnext ih =>
    have hcases := act_of_inChain ih (thresholds hm)
    cases hnext with
    | turn act =>
      rcases hcases with ⟨e, he⟩ | ⟨c, hc, hchain⟩ | ⟨c, hc, -⟩
      · simp [he] at act
      · rw [hc] at act
        cases act
        exact hchain
      · simp [hc] at act
    | read act advanced =>
      rcases hcases with ⟨e, he⟩ | ⟨c, hc, -⟩ | ⟨c, hc, -, hchain⟩
      · simp [he] at act
      · simp [hc] at act
      · have hprecedes := precedes_of_read act advanced
        rw [hc] at act
        cases act
        exact hchain _ hprecedes

theorem exists_ok_of_inChain (hm : m.InChain)
    (hthresholds : CallStack.Thresholds m.calls.threshold m.calls.callers) (h : m.EndsWith r) :
    ∃ e, r = .ok e := by
  have hcases := act_of_inChain hm hthresholds
  cases h with
  | finish act => exact ⟨_, rfl⟩
  | refuse act =>
    rcases hcases with ⟨e, he⟩ | ⟨c, hc, -⟩ | ⟨c, hc, -⟩
    · simp [he] at act
    · simp [hc] at act
    · simp [hc] at act
  | lexical act failed =>
    rcases hcases with ⟨e, he⟩ | ⟨c, hc, -⟩ | ⟨c, -, ⟨tokens, hlists⟩, -⟩
    · simp [he] at act
    · simp [hc] at act
    · have hs := CallStack.ne_eof_of_read act
      exact absurd ((advance_ends hs).of_error failed) (hlists.not_failed hs _)

end Moment

/-! ## What nesting does to a reading -/

namespace Expr

variable {limit limit' : Nat} {source : String} {s s' : ParserState}

theorem inChain_first {tokens : List Token} (h : Spells source tokens) (hchain : IsChain tokens)
    (hs : ParserState.ofSource source = .ok s) : (Moment.first s).InChain :=
  ⟨rfl, tokens, hchain, (ParserState.starts_of_ofSource hs).ahead_eq.trans h⟩

/-- A chain of operators is read with four live calls, however long it is. -/
theorem liveCalls_le_of_chain {tokens : List Token} (h : Spells source tokens)
    (hchain : IsChain tokens) (hs : ParserState.ofSource source = .ok s) {m : Moment}
    (hm : ReflTransGen Moment.Next (.first s) m) : m.liveCalls ≤ 4 := by
  have hlevels : m.openLevels = 0 := (Moment.inChain hm (inChain_first h hchain hs)).1
  simpa [hlevels] using Moment.liveCalls_le hm

theorem exists_ok_of_chain {tokens : List Token} (h : Spells source tokens)
    (hchain : IsChain tokens) (hlimit : 4 ≤ limit) : ∃ e, parseWithin limit source = .ok e := by
  obtain ⟨t, rest, rfl⟩ : ∃ t rest, tokens = t :: rest := by
    cases hchain <;> exact ⟨_, _, rfl⟩
  obtain ⟨s, hs⟩ := ParserState.exists_ofSource h
  have hne : result (whole limit) s ≠ .error .tooDeep := by
    rw [Ne, result_whole_eq_tooDeep_iff]
    rintro ⟨m, hm, hlive⟩
    have hfour := liveCalls_le_of_chain h hchain hs hm
    omega
  obtain ⟨-, m, hm, hend⟩ := leads_of_result rfl hne
  replace hm := Moment.leads_of_within hm
  rw [parseWithin_of_ofSource hs]
  exact Moment.exists_ok_of_inChain (Moment.inChain hm (inChain_first h hchain hs))
    (Moment.thresholds hm) hend

theorem parseWithin_of_le (h : parseWithin limit source ≠ .error .tooDeep) (hle : limit ≤ limit') :
    parseWithin limit' source = parseWithin limit source := by
  cases hs : ParserState.ofSource source with
  | error fault => rw [parseWithin_of_not_ofSource hs, parseWithin_of_not_ofSource hs]
  | ok s =>
    rw [parseWithin_of_ofSource hs] at *
    rw [parseWithin_of_ofSource hs]
    obtain ⟨hlimit, m, hm, hend⟩ := leads_of_result rfl h
    exact result_whole (Nat.lt_of_lt_of_le hlimit hle) (Moment.leads_of_le hle hm) hend

/-- What is too deep before a token that ends inside a source is too deep in every longer one. -/
theorem parseWithin_append_tooDeep (hs : ParserState.ofSource source = .ok s)
    (hdeep : whole limit s = .error .tooDeep s')
    (hend : Cursor.lexemeEnd source.toList s'.current.position < source.length) (more : String) :
    parseWithin limit (source ++ more) = .error .tooDeep := by
  obtain ⟨m, hm, hlive, rfl⟩ := exists_moment_of_tooDeep hdeep
  have hstarts := ParserState.starts_of_ofSource hs
  have hnext := Moment.leads_of_within hm
  have heof : m.state.current.kind ≠ .eof := fun heof => by
    obtain ⟨hplaced, hlength⟩ := Moment.placed hnext fun heof => absurd heof hstarts.current_ne
    rw [hplaced heof, hlength, hstarts.length_eq] at hend
    exact absurd (Nat.le_add_right _ _) (Nat.not_le.2 hend)
  obtain ⟨tokens, hpulls⟩ := Moment.exists_pullAll hs hnext heof
  obtain ⟨pulls', hpulls'⟩ := Cursor.pullAll_append_of_lexemeEnd_lt hpulls
    (by rwa [String.length_toList]) more.toList
  rw [← String.toList_append] at hpulls'
  obtain ⟨s', s₁', hs', hm', -⟩ := Moment.leads_of_pullAll hs hm hpulls hpulls' heof
  rw [parseWithin_of_ofSource hs', result_whole_eq_tooDeep_iff]
  exact ⟨_, Moment.leads_of_within hm', hlive⟩

/-- Only nesting makes calls pile up.  The moments of a reading are those of the parser: within the
limit the rest of the reading gives its result, and it is too deep if at some moment more calls are
live than the limit allows.  At every moment the open levels bound the live calls, and where no
level is ever open four calls are enough.  A result that is within a limit is the result within
every higher one, and what is too deep before a token that ends inside a source stays so if the
source is continued. -/
theorem nesting_bounds_live_calls (limit : Nat) (source : String) :
    (∀ s, ParserState.ofSource source = .ok s →
      (∀ m, 0 < limit → ReflTransGen (Moment.NextWithin limit) (.first s) m →
        whole limit s = m.calls.outcome limit m.state) ∧
      (parseWithin limit source = .error .tooDeep ↔
        ∃ m, ReflTransGen Moment.Next (.first s) m ∧ limit < m.liveCalls) ∧
      ∀ m, ReflTransGen Moment.Next (.first s) m → m.liveCalls ≤ 4 * (m.openLevels + 1)) ∧
    (∀ tokens, Spells source tokens → IsChain tokens →
      (∀ s, ParserState.ofSource source = .ok s →
        ∀ m, ReflTransGen Moment.Next (.first s) m → m.liveCalls ≤ 4) ∧
      (4 ≤ limit → ∃ e, parseWithin limit source = .ok e)) ∧
    (parseWithin limit source ≠ .error .tooDeep →
      ∀ limit', limit ≤ limit' → parseWithin limit' source = parseWithin limit source) ∧
    ∀ s s', ParserState.ofSource source = .ok s → whole limit s = .error .tooDeep s' →
      Cursor.lexemeEnd source.toList s'.current.position < source.length →
      ∀ more, parseWithin limit (source ++ more) = .error .tooDeep := by
  refine ⟨fun s hs => ⟨fun m hlimit hm => ?_, ?_, fun m => Moment.liveCalls_le⟩,
    fun tokens htokens hchain => ⟨fun s hs m => liveCalls_le_of_chain htokens hchain hs,
      exists_ok_of_chain htokens hchain⟩,
    fun h limit' => parseWithin_of_le h, fun s s' => parseWithin_append_tooDeep⟩
  · exact (Moment.outcome_of_leads (m := .first s) hlimit hm).2
  · rw [parseWithin_of_ofSource hs, result_whole_eq_tooDeep_iff]

/-- Two brackets are too deep for two calls, whatever follows the number in them; four calls are
enough for an addition. -/
theorem nesting_bounds_live_calls_two_brackets :
    parseWithin 2 ("((1)" ++ "%") = .error .tooDeep ∧ ∃ e, parseWithin 4 "1+2" = .ok e := by
  have hchain : Spells "1+2" [⟨.num, some (.ofLiteral ['1']), 0⟩, ⟨.add, none, 1⟩,
      ⟨.num, some (.ofLiteral ['2']), 2⟩] := rfl
  refine ⟨(nesting_bounds_live_calls 2 "((1)").2.2.2 _ _ rfl rfl (by decide) "%", ?_⟩
  exact ((nesting_bounds_live_calls 4 "1+2").2.1 _ hchain (.link rfl rfl (.single rfl))).2
    (Nat.le_refl 4)

end Expr

end InfixCalculator
