import InfixCalculator.Proofs.Parser.Climbing

/-!
# Reading whole sources

A source is refused at once if it has no first token; otherwise the reader starts at this token, and
all that it has to read is the list of all pulls at the source.  A limit of nesting that exceeds the
length of a source is never reached in it.
-/

namespace InfixCalculator

/-- Whether a cause is found in characters, before they are a token. -/
def FaultCause.isLexical : FaultCause → Bool
  | unexpectedCharacter _ | malformedNumber _ => true
  | _ => false

namespace Cursor

variable {cursor next : Cursor} {fault : Fault}

theorem isLexical_of_pullFrom {text : List Char} {position : Nat}
    (h : pullFrom text position = (.failed fault, next)) : fault.cause.isLexical = true := by
  fun_induction pullFrom text position with
  | case1 => simp at h
  | case2 c rest position _ ih => exact ih h
  | case3 => simp at h
  | case4 c rest position _ _ _ =>
    simp only [pullNumber] at h
    split at h
    · obtain ⟨rfl, -⟩ := by simpa using h
      rfl
    · simp at h
  | case5 =>
    obtain ⟨rfl, -⟩ := by simpa using h
    rfl

theorem isLexical_of_pullAll (h : cursor.pullAll = [.failed fault]) :
    fault.cause.isLexical = true := by
  rw [pullAll_eq] at h
  split at h
  · simp at h
  · next result next _ hp =>
    obtain rfl : result = .failed fault := by simpa using h
    exact isLexical_of_pullFrom hp

theorem ne_tooDeep_of_pullAll (h : cursor.pullAll = [.failed fault]) : fault ≠ .tooDeep := by
  rintro rfl
  exact absurd (isLexical_of_pullAll h) (by decide)

end Cursor

namespace ParserState

structure Starts (s : ParserState) (source : String) : Prop where
  length_eq : s.length = source.length
  ahead_eq : s.ahead = (Cursor.ofSource source).pullAll
  current_ne : s.current.kind ≠ .eof

variable {s : ParserState} {source : String} {fault : Fault}

theorem starts_of_ofSource (h : ofSource source = .ok s) : s.Starts source := by
  unfold ofSource at h
  split at h
  · next token cursor hpull =>
    cases h
    have htoken := Cursor.kind_ne_eof_of_pullFrom hpull
    exact ⟨rfl, by rw [ahead_of_ne_eof htoken, Cursor.pullAll_of_token hpull], htoken⟩
  · cases h
  · cases h

/-- A source that is refused at once has no token, or begins with a faulty lexeme. -/
theorem pullAll_of_not_ofSource (h : ofSource source = .error fault) :
    ((Cursor.ofSource source).pullAll = [.exhausted] ∧ fault = ⟨.emptyExpression, none⟩) ∨
      (Cursor.ofSource source).pullAll = [.failed fault] := by
  unfold ofSource at h
  split at h
  · cases h
  · next cursor hpull =>
    cases h
    exact .inl ⟨Cursor.pullAll_of_exhausted hpull, rfl⟩
  · next fault' cursor hpull =>
    cases h
    exact .inr (Cursor.pullAll_of_failed hpull)

theorem exists_ofSource {t : Token} {pulls : List Pull}
    (h : (Cursor.ofSource source).pullAll = .token t :: pulls) : ∃ s, ofSource source = .ok s := by
  cases hs : ofSource source with
  | ok s => exact ⟨s, rfl⟩
  | error fault =>
    rcases pullAll_of_not_ofSource hs with ⟨hnone, -⟩ | hfailed
    · simp [hnone] at h
    · simp [hfailed] at h

theorem ofSource_of_failed (h : (Cursor.ofSource source).pullAll = [.failed fault]) :
    ofSource source = .error fault := by
  cases hs : ofSource source with
  | ok s =>
    have hstarts := starts_of_ofSource hs
    rw [← hstarts.ahead_eq, ahead_of_ne_eof hstarts.current_ne] at h
    simp at h
  | error fault' =>
    rcases pullAll_of_not_ofSource hs with ⟨hnone, -⟩ | hfailed
    · simp [hnone] at h
    · rw [hfailed] at h
      simpa using h

end ParserState

namespace Parsing

variable {α : Type} {s : ParserState} {limit : Nat} {n : Int}

theorem result_eq_ok {step : Parsing α} {a : α} :
    result step s = .ok a ↔ ∃ s', step s = .ok a s' := by
  unfold result
  cases step s <;> simp

theorem result_eq_error {step : Parsing α} {fault : Fault} :
    result step s = .error fault ↔ ∃ s', step s = .error fault s' := by
  unfold result
  cases step s <;> simp

theorem expression_ne_tooDeep (h : s.ahead.length ≤ limit) :
    Ends (expression limit n) s (fun _ _ => True) fun fault _ => fault ≠ .tooDeep := by
  -- A call has fewer entries ahead than its caller, so they are used up before the limit is.
  induction limit generalizing n s with
  | zero =>
    have := s.length_ahead_pos
    omega
  | succ limit ih =>
    have hlexical {s : ParserState} (fault : Fault) (s' : ParserState)
        (hf : s.cursor.pullAll = [.failed fault]) : fault ≠ .tooDeep :=
      Cursor.ne_tooDeep_of_pullAll hf
    rw [expression_succ, ends_bind]
    have hoperand : Ends (operand (expression limit)) s
        (fun _ _ => True) fun fault _ => fault ≠ .tooDeep := by
      refine ends_operand ?negative (by simp) ?bracket (fun _ => hlexical) (by simp [Fault.tooDeep])
        (by simp [Fault.tooDeep])
      case negative =>
        intro hk s₁ hs₁
        have := hs₁.length_ahead (by simp [hk])
        exact ih (by omega)
      case bracket =>
        intro hk s₁ hs₁
        have := hs₁.length_ahead (by simp [hk])
        refine ((ih (by omega)).and (expression_shrinks limit _ s₁)).mono ?_ fun _ _ => And.left
        rintro inner s₂ ⟨-, hlt⟩
        refine ends_expect (by simp) (fun hk₂ s₃ hs₃ => ?_) (fun _ => hlexical)
          (by simp [Fault.tooDeep])
        have := hs₃.length_ahead (by simp [hk₂])
        exact ⟨fun _ => ih (by omega), fun _ => trivial⟩
    refine (hoperand.and (operand_shrinks (expression_shrinks limit))).mono ?_ fun _ _ => And.left
    rintro left s₁ ⟨-, hlt⟩
    refine ends_fold (fun _ s' => s'.ahead.length < s.ahead.length) (by simp)
      (by simp [Fault.tooDeep]) (fun _ _ _ _ _ => hlexical) ?go hlt
    intro _ s₂ hs₂ _ op hop s₃ hs₃
    have := hs₃.length_ahead (TokenKind.ne_eof_of_operator? hop)
    refine ((ih (by omega)).and (expression_shrinks limit _ s₃)).mono ?_ fun _ _ => And.left
    rintro right s₄ ⟨-, hlt⟩
    omega

theorem ends_whole {ok : Expr → ParserState → Prop} {bad : Fault → ParserState → Prop} :
    Ends (whole limit) s ok bad ↔ Ends (expression limit Precedence.lowest) s (fun e s' =>
      (s'.current.kind = .eof → ok e s') ∧
      (s'.current.kind ≠ .eof →
        bad ⟨.leftoverToken s'.current, some s'.current.position⟩ s')) bad := by
  simp only [whole, ends_bind, ends_current]
  refine ⟨fun h => h.mono (fun e s' h' => ?_) fun _ _ => id,
    fun h => h.mono (fun e s' h' => ?_) fun _ _ => id⟩
  · split at h' <;> simp_all
  · split <;> simp_all

theorem expression_of_whole {e : Expr} {s' : ParserState} (h : whole limit s = .ok e s') :
    expression limit Precedence.lowest s = .ok e s' ∧ s'.current.kind = .eof := by
  have hends : Ends (whole limit) s (fun e s' => expression limit Precedence.lowest s = .ok e s' ∧
      s'.current.kind = .eof) fun _ _ => True := by
    rw [ends_whole]
    unfold Ends
    cases expression limit Precedence.lowest s <;> simp
  exact hends.of_ok h

end Parsing

namespace Expr

variable {limit : Nat} {source : String}

theorem parseWithin_of_ofSource {s : ParserState} (h : ParserState.ofSource source = .ok s) :
    parseWithin limit source = Parsing.result (Parsing.whole limit) s := by
  rw [parseWithin, h]
  rfl

theorem parseWithin_of_not_ofSource {fault : Fault}
    (h : ParserState.ofSource source = .error fault) :
    parseWithin limit source = .error fault := by
  rw [parseWithin, h]
  rfl

/-- What the reading of a source comes down to. -/
theorem parseWithin_cases (limit : Nat) (source : String) :
    (∃ s : ParserState, s.Starts source ∧
      parseWithin limit source = Parsing.result (Parsing.whole limit) s) ∨
    ((Cursor.ofSource source).pullAll = [.exhausted] ∧
      parseWithin limit source = .error ⟨.emptyExpression, none⟩) ∨
    ∃ fault, (Cursor.ofSource source).pullAll = [.failed fault] ∧
      parseWithin limit source = .error fault := by
  cases hs : ParserState.ofSource source with
  | ok s => exact .inl ⟨s, ParserState.starts_of_ofSource hs, parseWithin_of_ofSource hs⟩
  | error fault =>
    rcases ParserState.pullAll_of_not_ofSource hs with ⟨hnone, rfl⟩ | hfailed
    · exact .inr (.inl ⟨hnone, parseWithin_of_not_ofSource hs⟩)
    · exact .inr (.inr ⟨fault, hfailed, parseWithin_of_not_ofSource hs⟩)

theorem parseWithin_of_no_token (limit : Nat)
    (h : (Cursor.ofSource source).pullAll = [.exhausted]) :
    parseWithin limit source = .error ⟨.emptyExpression, none⟩ := by
  rcases parseWithin_cases limit source with ⟨s, hs, -⟩ | ⟨-, heq⟩ | ⟨fault, hf, -⟩
  · rw [← hs.ahead_eq, ParserState.ahead_of_ne_eof hs.current_ne] at h
    simp at h
  · exact heq
  · simp [hf] at h

/-- A limit that exceeds the length of the source is not reached. -/
theorem parseWithin_ne_tooDeep (h : source.length < limit) :
    parseWithin limit source ≠ .error .tooDeep := by
  rcases parseWithin_cases limit source with ⟨s, hs, heq⟩ | ⟨-, heq⟩ | ⟨fault, hf, heq⟩
  · have hlen : s.ahead.length ≤ limit := by
      rw [hs.ahead_eq]
      have := (Cursor.ofSource source).length_pullAll_le
      simp only [Cursor.ofSource, String.length_toList] at this
      exact Nat.le_trans this h
    rw [heq, Ne, Parsing.result_eq_error]
    rintro ⟨s', hs'⟩
    have hends : Parsing.Ends (Parsing.whole limit) s (fun _ _ => True)
        fun fault _ => fault ≠ .tooDeep := by
      refine Parsing.ends_whole.2 ((Parsing.expression_ne_tooDeep hlen).mono ?_ fun _ _ => id)
      simp [Fault.tooDeep]
    exact hends.of_error hs' rfl
  · simp [heq, Fault.tooDeep]
  · rw [heq]
    simpa using Cursor.ne_tooDeep_of_pullAll hf

end Expr

end InfixCalculator
