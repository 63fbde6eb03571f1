import InfixCalculator.Proofs.Parser.Source

/-!
# Scanning with a counter of brackets

A scan reads the tokens of a source once from left to right.  It knows whether an operand is due, or
whether a number or a group came last, and how many brackets are open, but nothing of precedences.
The parser accepts a source exactly if the scan does, and otherwise reports the fault at which the
scan stops.
-/

namespace InfixCalculator

/-- Where a scan stands between two tokens. -/
inductive ScanPhase where
  | operandDue
  | afterNumber
  | afterGroup
  deriving DecidableEq, Repr

structure Scan where
  phase : ScanPhase
  opened : Nat
  deriving DecidableEq, Repr

namespace Scan

def start : Scan := ⟨.operandDue, 0⟩

/-- The state behind a token of the given kind, if such a token may follow. -/
def next? : Scan → TokenKind → Option Scan
  | ⟨.operandDue, opened⟩, .subtract => some ⟨.operandDue, opened⟩
  | ⟨.operandDue, opened⟩, .num => some ⟨.afterNumber, opened⟩
  | ⟨.operandDue, opened⟩, .leftParen => some ⟨.operandDue, opened + 1⟩
  | ⟨.operandDue, _⟩, _ => none
  | ⟨_, opened + 1⟩, .rightParen => some ⟨.afterGroup, opened⟩
  | ⟨.afterGroup, opened⟩, .leftParen => some ⟨.operandDue, opened + 1⟩
  | ⟨_, opened⟩, kind => if kind.operator?.isSome then some ⟨.operandDue, opened⟩ else none

/-- Why a token that may not follow is refused. -/
def refusal (scan : Scan) (token : Token) : FaultCause :=
  match scan.phase with
  | .operandDue => if token.kind = .eof then .unexpectedEnd else .operandExpected token
  | _ => if 0 < scan.opened then .expected .rightParen token else .leftoverToken token

def accepts (scan : Scan) : Bool := scan.phase != .operandDue && scan.opened == 0

def run (length : Nat) : Scan → List Pull → Except Fault Unit
  | scan, .token token :: pulls =>
    match scan.next? token.kind with
    | some next => next.run length pulls
    | none => .error ⟨scan.refusal token, some token.position⟩
  | _, .failed fault :: _ => .error fault
  | scan, _ =>
    if scan.accepts then .ok () else .error ⟨scan.refusal ⟨.eof, none, length⟩, some length⟩

def judge (scan : Scan) (s : ParserState) : Except Fault Unit := scan.run s.length s.ahead

variable {scan next : Scan} {s s' : ParserState}

theorem next?_eof (scan : Scan) : scan.next? .eof = none := by
  obtain ⟨phase, opened⟩ := scan
  cases phase <;> cases opened <;> rfl

theorem ne_eof_of_next? (h : scan.next? s.current.kind = some next) : s.current.kind ≠ .eof :=
  fun heof => by simp [heof, next?_eof] at h

theorem judge_of_next? (h : scan.next? s.current.kind = some next) (hp : s.Precedes s') :
    scan.judge s = next.judge s' := by
  simp only [judge, ParserState.ahead_of_ne_eof (ne_eof_of_next? h), run, h, hp.length_eq,
    hp.ahead_eq]

theorem judge_of_operandDue {k : Nat} {kind : TokenKind} (hk : s.current.kind = kind)
    (h : (Scan.mk .operandDue k).next? kind = some next) (hp : s.Precedes s') :
    (Scan.mk .operandDue k).judge s = next.judge s' :=
  judge_of_next? (by rwa [hk]) hp

theorem judge_of_failed {fault : Fault} (h : scan.next? s.current.kind = some next)
    (hf : s.cursor.pullAll = [.failed fault]) : scan.judge s = .error fault := by
  simp only [judge, ParserState.ahead_of_ne_eof (ne_eof_of_next? h), run, h, hf]

theorem judge_congr {scan' : Scan} (h : scan.next? s.current.kind = some next)
    (h' : scan'.next? s.current.kind = some next) : scan.judge s = scan'.judge s := by
  simp only [judge, ParserState.ahead_of_ne_eof (ne_eof_of_next? h), run, h, h']

/-- A scan that cannot go on refuses the token ahead, unless it accepts the end of the source. -/
theorem judge_of_refused (hs : s.Placed) (h : scan.next? s.current.kind = none)
    (haccept : s.current.kind = .eof → scan.accepts = false) :
    scan.judge s = .error ⟨scan.refusal s.current, some s.current.position⟩ := by
  by_cases heof : s.current.kind = .eof
  · simp [judge, ParserState.ahead_of_eof heof, run, haccept heof, hs heof]
  · simp [judge, ParserState.ahead_of_ne_eof heof, run, h]

theorem judge_of_accepts (heof : s.current.kind = .eof) (h : scan.accepts = true) :
    scan.judge s = .ok () := by
  simp [judge, ParserState.ahead_of_eof heof, run, h]

theorem next?_eq_none {phase : ScanPhase} {opened : Nat} {kind : TokenKind}
    (hphase : phase ≠ .operandDue) (hop : kind.operator? = none)
    (hclose : kind = .rightParen → opened = 0) (hopen : kind = .leftParen → phase = .afterNumber) :
    next? ⟨phase, opened⟩ kind = none := by
  cases kind <;> cases phase <;> cases opened <;> simp_all [next?, TokenKind.operator?]

theorem next?_of_operator? {phase : ScanPhase} {opened : Nat} {kind : TokenKind} {op : BinaryOp}
    (hphase : phase ≠ .operandDue) (hop : kind.operator? = some op) :
    next? ⟨phase, opened⟩ kind = some ⟨.operandDue, opened⟩ := by
  cases kind <;> cases phase <;> simp_all [next?, TokenKind.operator?]

theorem next?_leftParen (opened : Nat) :
    next? ⟨.afterGroup, opened⟩ .leftParen = some ⟨.operandDue, opened + 1⟩ := by
  cases opened <;> rfl

theorem refusal_of_opened {phase : ScanPhase} {opened : Nat} {token : Token}
    (hphase : phase ≠ .operandDue) :
    refusal ⟨phase, opened + 1⟩ token = .expected .rightParen token := by
  cases phase <;> simp_all [refusal]

theorem refusal_of_not_opened {phase : ScanPhase} {token : Token} (hphase : phase ≠ .operandDue) :
    refusal ⟨phase, 0⟩ token = .leftoverToken token := by
  cases phase <;> simp_all [refusal]

theorem refusal_kind (scan : Scan) (token : Token) :
    (scan.refusal token).kind =
      if scan.phase = .operandDue ∧ token.kind = .eof then .unableToParse
      else .invalidOperator := by
  obtain ⟨phase, opened⟩ := scan
  cases phase with
  | operandDue => by_cases heof : token.kind = .eof <;> simp [refusal, heof, FaultCause.kind]
  | afterNumber | afterGroup =>
    by_cases hopen : 0 < opened <;> simp [refusal, hopen, FaultCause.kind]

theorem refusal_detail (scan : Scan) (token : Token) :
    (scan.refusal token).detail =
      if scan.phase = .operandDue then
        if token.kind = .eof then "Unexpected end of input"
        else "Unexpected " ++ token.display ++ " where an operand was expected"
      else if 0 < scan.opened then "Expected RightParen, got " ++ token.display
      else "Unexpected token after expression: " ++ token.display := by
  have hexpected : (FaultCause.expected .rightParen token).detail
      = "Expected RightParen, got " ++ token.display :=
    have hprefix : "Expected " ++ Token.display ⟨.rightParen, none, 0⟩ ++ ", got "
        = "Expected RightParen, got " := rfl
    congrArg (· ++ token.display) hprefix
  unfold refusal
  by_cases hphase : scan.phase = .operandDue
  · rw [if_pos hphase]
    split
    · split <;> rfl
    · contradiction
  · rw [if_neg hphase]
    split
    · contradiction
    · split
      · exact hexpected
      · rfl

end Scan

namespace Parsing

variable {s s' : ParserState} {limit k : Nat} {n : Int}

/-- From `s` on, a scan to which an operand is due under `k` open brackets comes to `s'` behind an
operand, with as many brackets open. -/
structure ScansTo (k : Nat) (s s' : ParserState) (phase : ScanPhase) : Prop where
  placed : s'.Placed
  phase_ne : phase ≠ .operandDue
  phase_eq : s'.current.kind = .leftParen → phase = .afterNumber
  judge_eq : (Scan.mk .operandDue k).judge s = (Scan.mk phase k).judge s'

/-- How a reading that starts where an operand is due ends: as a scan does, or too deep. -/
def EndsAsScan (step : Parsing Expr) (k : Nat) (s : ParserState) : Prop :=
  Ends step s (fun _ s' => ∃ phase, ScansTo k s s' phase) fun fault _ =>
    fault = .tooDeep ∨ (Scan.mk .operandDue k).judge s = .error fault

theorem EndsAsScan.behind {step : Parsing Expr} (h : EndsAsScan step k s')
    (hgo : (Scan.mk .operandDue k).judge s = (Scan.mk .operandDue k).judge s') :
    Ends step s' (fun _ s₂ => ∃ phase, ScansTo k s s₂ phase) fun fault _ =>
      fault = .tooDeep ∨ (Scan.mk .operandDue k).judge s = .error fault := by
  refine h.mono ?_ fun fault _ hbad => by rwa [hgo]
  rintro e s₂ ⟨phase, hs₂⟩
  exact ⟨phase, hs₂.placed, hs₂.phase_ne, hs₂.phase_eq, hgo.trans hs₂.judge_eq⟩

theorem ScansTo.next?_rightParen {phase : ScanPhase} (h : ScansTo k s s' phase) (opened : Nat) :
    (Scan.mk phase (opened + 1)).next? .rightParen = some ⟨.afterGroup, opened⟩ := by
  have := h.phase_ne
  cases phase <;> first | rfl | contradiction

theorem operator?_eq_none_of_stop
    (h : (s.current.precedence : Int) ≤ Precedence.lowest ∨ s.current.kind = .eof) :
    s.current.kind.operator? = none := by
  have hle := precedence_le_of_stop (by decide) h
  cases hop : s.current.kind.operator? with
  | none => rfl
  | some op =>
    have := TokenKind.precedence_pos hop
    simp only [Token.precedence, Precedence.lowest] at hle
    omega

/-- Behind an opening bracket the parser goes on as the scan, which has one more bracket open, and
behind the closing one as the scan that may take a further group. -/
theorem bracket_endsAsScan {s₁ : ParserState}
    (ih : ∀ {n k s}, 0 ≤ n → s.Placed → EndsAsScan (expression limit n) k s) (hs₁ : s₁.Placed)
    (hgo : (Scan.mk .operandDue k).judge s = (Scan.mk .operandDue (k + 1)).judge s₁) :
    Ends (expression limit Precedence.lowest) s₁
      (fun _ s₂ => Ends (expect .rightParen) s₂
        (fun _ s₃ =>
          (s₃.current.kind = .leftParen → Ends (expression limit Precedence.product) s₃
            (fun _ s₄ => ∃ phase, ScansTo k s s₄ phase) fun fault _ =>
              fault = .tooDeep ∨ (Scan.mk .operandDue k).judge s = .error fault) ∧
          (s₃.current.kind ≠ .leftParen → ∃ phase, ScansTo k s s₃ phase))
        fun fault _ => fault = .tooDeep ∨ (Scan.mk .operandDue k).judge s = .error fault)
      fun fault _ => fault = .tooDeep ∨ (Scan.mk .operandDue k).judge s = .error fault := by
  refine ((ih (k := k + 1) (by decide) hs₁).and (expression_stops _ _ s₁)).mono ?_
    fun fault _ hbad => by rw [hgo]; exact hbad.1
  rintro inner s₂ ⟨⟨phase, h⟩, hstop⟩
  refine ends_expect (by simp) (fun hk₂ s₃ hs₃ => ?_) (fun hk₂ fault s₃ hf => ?_) fun hk₂ => ?_
  · have hright : (Scan.mk phase (k + 1)).next? s₂.current.kind = some ⟨.afterGroup, k⟩ := by
      rw [hk₂, h.next?_rightParen]
    have hclose := hgo.trans (h.judge_eq.trans (Scan.judge_of_next? hright hs₃))
    refine ⟨fun hk₃ => ?_, fun hk₃ => ⟨.afterGroup, hs₃.placed, by decide, ?_, hclose⟩⟩
    · have hopen : (Scan.mk .afterGroup k).judge s₃ = (Scan.mk .operandDue k).judge s₃ :=
        Scan.judge_congr (by rw [hk₃, Scan.next?_leftParen]) (by rw [hk₃]; rfl)
      exact (ih (by decide) hs₃.placed).behind (hclose.trans hopen)
    · exact fun hleft => absurd hleft hk₃
  · exact .inr (hgo.trans (h.judge_eq.trans
      (Scan.judge_of_failed (by rw [hk₂, h.next?_rightParen]) hf)))
  · have hnone : (Scan.mk phase (k + 1)).next? s₂.current.kind = none :=
      Scan.next?_eq_none h.phase_ne (operator?_eq_none_of_stop hstop)
        (fun hright => absurd hright hk₂) h.phase_eq
    have hrefuse := Scan.judge_of_refused h.placed hnone fun _ => by simp [Scan.accepts]
    refine .inr (hgo.trans (h.judge_eq.trans (hrefuse.trans ?_)))
    rw [Scan.refusal_of_opened h.phase_ne]

theorem operand_endsAsScan (hs : s.Placed)
    (ih : ∀ {n k s}, 0 ≤ n → s.Placed → EndsAsScan (expression limit n) k s) :
    EndsAsScan (operand (expression limit)) k s := by
  refine ends_operand ?negative ?number ?bracket ?lexical ?finish ?other
  case negative =>
    intro hk s₁ hs₁
    exact (ih (by decide) hs₁.placed).behind (Scan.judge_of_operandDue hk rfl hs₁)
  case number =>
    intro hk s₁ hs₁
    have hgo := Scan.judge_of_operandDue (k := k) hk rfl hs₁
    exact ⟨.afterNumber, hs₁.placed, by decide, fun _ => rfl, hgo⟩
  case bracket =>
    intro hk s₁ hs₁
    exact bracket_endsAsScan ih hs₁.placed (Scan.judge_of_operandDue hk rfl hs₁)
  case lexical =>
    intro hk fault s' hf
    have hgo : ∃ next, (Scan.mk .operandDue k).next? s.current.kind = some next := by
      rcases hk with hk | hk | hk <;> rw [hk] <;> exact ⟨_, rfl⟩
    obtain ⟨next, hnext⟩ := hgo
    exact .inr (Scan.judge_of_failed hnext hf)
  case finish =>
    intro hk
    refine .inr ((Scan.judge_of_refused hs (by rw [hk]; rfl) fun _ => rfl).trans ?_)
    simp [Scan.refusal, hk]
  case other =>
    intro hsub hnum hleft heof
    have hnone : (Scan.mk .operandDue k).next? s.current.kind = none := by
      cases hkind : s.current.kind <;> simp_all [Scan.next?]
    refine .inr ((Scan.judge_of_refused hs hnone fun _ => rfl).trans ?_)
    simp [Scan.refusal, heof]

/-- Whatever the threshold, reading an expression ends as a scan does. -/
theorem expression_endsAsScan (limit : Nat) (hn : 0 ≤ n) (hs : s.Placed) :
    EndsAsScan (expression limit n) k s := by
  induction limit generalizing n k s with
  | zero => exact .inl rfl
  | succ limit ih =>
    rw [EndsAsScan, expression_succ, ends_bind]
    refine (operand_endsAsScan hs ih).mono (fun left s₁ hs₁ => ?_) fun _ _ => id
    refine ends_fold (fun _ s' => ∃ phase, ScansTo k s s' phase) (fun _ _ h _ => h) ?refuse ?lexical
      ?go hs₁
    case refuse =>
      intro _ s₂ _ hlt _ hop
      have := TokenKind.precedence_eq_zero hop
      simp only [Token.precedence] at hlt
      omega
    case lexical =>
      rintro _ s₂ ⟨phase, h⟩ op hop fault s' hf
      exact .inr (h.judge_eq.trans
        (Scan.judge_of_failed (Scan.next?_of_operator? h.phase_ne hop) hf))
    case go =>
      rintro _ s₂ ⟨phase, h⟩ _ op hop s₃ hs₃
      have hgo := h.judge_eq.trans
        (Scan.judge_of_next? (Scan.next?_of_operator? h.phase_ne hop) hs₃)
      exact (ih (by omega) hs₃.placed).behind hgo

theorem whole_judge (limit : Nat) (hs : s.Placed) :
    Ends (whole limit) s (fun _ _ => Scan.start.judge s = .ok ())
      fun fault _ => fault = .tooDeep ∨ Scan.start.judge s = .error fault := by
  refine ends_whole.2 (((expression_endsAsScan (k := 0) limit (by decide) hs).and
    (expression_stops _ _ s)).mono ?_ fun _ _ => And.left)
  rintro e s' ⟨⟨phase, h⟩, hstop⟩
  refine ⟨fun heof => h.judge_eq.trans (Scan.judge_of_accepts heof ?_), fun heof => ?_⟩
  · simp [Scan.accepts, h.phase_ne]
  · have hnone : (Scan.mk phase 0).next? s'.current.kind = none :=
      Scan.next?_eq_none h.phase_ne (operator?_eq_none_of_stop hstop) (fun _ => rfl) h.phase_eq
    have hrefuse := Scan.judge_of_refused h.placed hnone fun h => absurd h heof
    refine .inr (h.judge_eq.trans (hrefuse.trans ?_))
    rw [Scan.refusal_of_not_opened h.phase_ne]

end Parsing

def Scan.verdict (source : String) : Except Fault Unit :=
  Scan.start.run source.length (Cursor.ofSource source).pullAll

namespace Expr

variable {limit : Nat} {source : String}

theorem parseWithin_eq_verdict (hlimit : parseWithin limit source ≠ .error .tooDeep)
    (hsome : (Cursor.ofSource source).pullAll ≠ [.exhausted]) :
    (parseWithin limit source).map (fun _ => ()) = Scan.verdict source := by
  rcases parseWithin_cases limit source with ⟨s, hs, heq⟩ | ⟨hnone, -⟩ | ⟨fault, hf, heq⟩
  · have hjudge : Scan.start.judge s = Scan.verdict source := by
      rw [Scan.judge, Scan.verdict, hs.length_eq, hs.ahead_eq]
    have hwhole := Parsing.whole_judge limit fun heof => absurd heof hs.current_ne
    rw [heq] at hlimit ⊢
    cases hw : Parsing.whole limit s with
    | ok e s' =>
      rw [Parsing.result_eq_ok.2 ⟨s', hw⟩, ← hjudge, hwhole.of_ok hw]
      rfl
    | error fault s' =>
      have hresult := Parsing.result_eq_error.2 ⟨s', hw⟩
      rw [hresult] at hlimit ⊢
      rcases hwhole.of_error hw with rfl | hfault
      · exact absurd rfl hlimit
      · rw [← hjudge, hfault]
        rfl
  · exact absurd hnone hsome
  · rw [heq, Scan.verdict, hf]
    rfl

/-- The parser accepts and rejects as the scan does, with the fault at which the scan stops,
wherever the limit of nesting is not reached.  A source without any token is rejected by itself.
What is said of a token that the scan refuses depends on what is due and on whether a bracket is
open. -/
theorem parseWithin_agrees_with_scan (hlimit : parseWithin limit source ≠ .error .tooDeep) :
    ((Cursor.ofSource source).pullAll = [.exhausted] →
      parseWithin limit source = .error ⟨.emptyExpression, none⟩) ∧
    ((Cursor.ofSource source).pullAll ≠ [.exhausted] →
      (parseWithin limit source).map (fun _ => ()) = Scan.verdict source) ∧
    ∀ (scan : Scan) (token : Token),
      (scan.refusal token).kind =
        (if scan.phase = .operandDue ∧ token.kind = .eof then .unableToParse
          else .invalidOperator) ∧
      (scan.refusal token).detail =
        (if scan.phase = .operandDue then
          if token.kind = .eof then "Unexpected end of input"
          else "Unexpected " ++ token.display ++ " where an operand was expected"
        else if 0 < scan.opened then "Expected RightParen, got " ++ token.display
        else "Unexpected token after expression: " ++ token.display) := by
  refine ⟨parseWithin_of_no_token limit, parseWithin_eq_verdict hlimit, ?_⟩
  exact fun scan token => ⟨scan.refusal_kind token, scan.refusal_detail token⟩

/-- In `(2)(3 4` the scan stops at the second number inside the second bracket. -/
theorem parseWithin_agrees_at_open_bracket :
    (parseWithin 20 "(2)(3 4").map (fun _ => ()) = Scan.verdict "(2)(3 4" ∧
      Scan.verdict "(2)(3 4" =
        .error ⟨.expected .rightParen ⟨.num, some (.ofLiteral ['4']), 6⟩, some 6⟩ :=
  ⟨(parseWithin_agrees_with_scan (parseWithin_ne_tooDeep (by decide))).2.1 (by decide +kernel),
    rfl⟩

/-- A source without any token is not said to end where an operand is due. -/
theorem verdict_ne_of_no_token :
    ¬∀ (limit : Nat) (source : String), parseWithin limit source ≠ .error .tooDeep →
      (parseWithin limit source).map (fun _ => ()) = Scan.verdict source := by
  intro h
  have hempty := h 1 "" (parseWithin_ne_tooDeep (by decide))
  rw [parseWithin_of_no_token 1 rfl] at hempty
  have hverdict : Scan.verdict "" = .error ⟨.unexpectedEnd, some 0⟩ := rfl
  rw [hverdict] at hempty
  simp [Except.map] at hempty

end Expr

end InfixCalculator
