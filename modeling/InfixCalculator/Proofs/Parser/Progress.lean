import InfixCalculator.Proofs.Parser.CallSequence
import InfixCalculator.Proofs.Parser.Moments

/-!
# Readings go on to their end

A reading takes a token at least, or fails, whatever its threshold is and wherever the parser
stands.  So a limit as large as what lies ahead is not reached, the moments of a reading are no more
than twice the tokens, and no more operands are begun than there are tokens, and one.  Below the
threshold zero a reading differs from one at zero only in that the end has to be ahead behind it.
-/

namespace InfixCalculator

open Relation Parsing

namespace Parsing

variable {α : Type} {s s' : ParserState} {n : Int} {limit limit' : Nat}
  {nested nested' : Int → Parsing Expr} {left : Expr} {fault : Fault}

/-! ## Limits that are not reached -/

theorem bind_congr_of_eq {β : Type} {step step' : Parsing β} {next next' : β → Parsing α}
    (hstep : step s = step' s)
    (hnext : Ends step s (fun b s' => next b s' = next' b s') fun _ _ => True) :
    (step >>= next) s = (step' >>= next') s := by
  rw [bind_congr_of_ends hnext]
  simp only [bind, EStateM.bind, hstep]

theorem operand_congr (hshrinks : Shrinks nested)
    (h : ∀ m s₁, s₁.ahead.length < s.ahead.length → nested m s₁ = nested' m s₁) :
    operand nested s = operand nested' s := by
  unfold operand
  refine bind_congr_of_ends (ends_current.2 ?_)
  cases hk : s.current.kind with
  | subtract =>
    refine bind_congr_of_ends (ends_advance (by simp [hk]) (fun s₁ hs₁ => ?_) fun _ _ _ => trivial)
    have hlen := hs₁.length_ahead (by simp [hk])
    exact bind_congr_of_eq (h _ s₁ (by omega))
      ((hshrinks _ s₁).mono (fun _ _ _ => rfl) fun _ _ => id)
  | leftParen =>
    refine bind_congr_of_ends (ends_advance (by simp [hk]) (fun s₁ hs₁ => ?_) fun _ _ _ => trivial)
    have hlen := hs₁.length_ahead (by simp [hk])
    refine bind_congr_of_eq (h _ s₁ (by omega)) ((hshrinks _ s₁).mono (fun inner s₂ hs₂ => ?_)
      fun _ _ => id)
    refine bind_congr_of_ends (ends_expect (by simp) (fun hk₂ s₃ hs₃ => ?_) (fun _ _ _ _ => trivial)
      fun _ => trivial)
    have hlen₃ := hs₃.length_ahead (by simp [hk₂])
    refine bind_congr_of_ends (ends_current.2 ?_)
    by_cases hleft : s₃.current.kind = .leftParen
    · rw [if_pos hleft, if_pos hleft]
      exact bind_congr_of_eq (h _ s₃ (by omega))
        ((hshrinks _ s₃).mono (fun _ _ _ => rfl) fun _ _ => id)
    · rw [if_neg hleft, if_neg hleft]
  | _ => rfl

theorem fold_congr (h : ∀ m s₁, s₁.ahead.length < s.ahead.length →
      expression limit m s₁ = expression limit' m s₁) (left : Expr) :
    fold limit n left s = fold limit' n left s := by
  generalize hk : s.ahead.length = k at h
  induction k using Nat.strongRecOn generalizing left s with
  | ind k ih =>
    rw [fold_eq limit, fold_eq limit']
    unfold turn
    refine bind_congr_of_ends (ends_current.2 ?_)
    by_cases hstop : (s.current.precedence : Int) ≤ n ∨ s.current.kind = .eof
    · rw [if_pos hstop, if_pos hstop]
    · rw [if_neg hstop, if_neg hstop]
      cases s.current.kind.operator? with
      | none => rfl
      | some op =>
        have heof := (not_or.1 hstop).2
        refine bind_congr_of_ends (ends_advance heof (fun s₁ hs₁ => ?_) fun _ _ _ => trivial)
        have hlen := hs₁.length_ahead heof
        refine bind_congr_of_eq (h _ s₁ (by omega)) ((expression_shrinks limit _ s₁).mono
          (fun right s₂ hs₂ => ?_) fun _ _ => id)
        exact ih s₂.ahead.length (by omega) _ rfl fun m s₃ hs₃ => h m s₃ (by omega)

/-- A limit as large as what lies ahead gives what every larger one gives. -/
theorem expression_congr (h : s.ahead.length ≤ limit) (h' : s.ahead.length ≤ limit') :
    expression limit n s = expression limit' n s := by
  generalize hk : s.ahead.length = k at h h'
  induction k using Nat.strongRecOn generalizing n s limit limit' with
  | ind k ih =>
    have hpos := s.length_ahead_pos
    obtain ⟨limit, rfl⟩ : ∃ l, limit = l + 1 := ⟨limit - 1, by omega⟩
    obtain ⟨limit', rfl⟩ : ∃ l, limit' = l + 1 := ⟨limit' - 1, by omega⟩
    have hnested (m : Int) (s₁ : ParserState) (hs₁ : s₁.ahead.length < s.ahead.length) :
        expression limit m s₁ = expression limit' m s₁ :=
      ih _ (by omega) rfl (by omega) (by omega)
    have hshrinks := expression_shrinks limit
    rw [expression_succ, expression_succ]
    refine bind_congr_of_eq (operand_congr hshrinks hnested) ((operand_shrinks hshrinks).mono
      (fun left s₁ hs₁ => ?_) fun _ _ => id)
    exact fold_congr (fun m s₂ hs₂ => hnested m s₂ (by omega)) left

/-! ## Negative thresholds -/

theorem operator?_eq_none (h : (s.current.precedence : Int) ≤ Precedence.lowest) :
    s.current.kind.operator? = none := by
  cases hop : s.current.kind.operator? with
  | none => rfl
  | some op =>
    have hpos := TokenKind.precedence_pos hop
    change ((s.current.kind.precedence : Nat) : Int) ≤ 0 at h
    omega

/-- Below the threshold zero the end has to be ahead behind an expression. -/
theorem expression_of_neg (hn : n < 0) (limit : Nat) :
    expression limit n = (do
      let e ← expression limit Precedence.lowest
      let token ← current
      if token.kind = .eof then return e else fail (.operatorExpected token)) := by
  cases limit with
  | zero => rfl
  | succ limit =>
    have hlowest : n ≤ (Precedence.lowest : Int) := by
      change n ≤ 0
      omega
    rw [expression_split hlowest]
    funext s
    refine bind_congr_of_ends ((expression_stops _ _ s).mono (fun left s₁ hs₁ => ?_) fun _ _ => id)
    rw [fold_eq, turn, CallStack.current_bind, CallStack.current_bind]
    by_cases heof : s₁.current.kind = .eof
    · rw [if_pos (.inr heof), if_pos heof]
    · have hnone := operator?_eq_none (hs₁.resolve_right heof)
      have hgoes : ¬((s₁.current.precedence : Int) ≤ n ∨ s₁.current.kind = .eof) := by
        rw [not_or]
        exact ⟨by omega, heof⟩
      rw [if_neg hgoes, if_neg heof, hnone]

theorem expression_of_neg_of_error (hn : n < 0)
    (h : expression limit Precedence.lowest s = .error fault s') :
    expression limit n s = .error fault s' := by
  rw [expression_of_neg hn]
  simp only [bind, EStateM.bind, h]

theorem expression_of_neg_of_ok (hn : n < 0)
    (h : expression limit Precedence.lowest s = .ok left s') :
    expression limit n s = (if s'.current.kind = .eof then pure left else
      fail (.operatorExpected s'.current) : Parsing Expr) s' := by
  rw [expression_of_neg hn]
  simp only [bind, EStateM.bind, h, current]

end Parsing

/-! ## Runs -/

namespace Moment

variable {s : ParserState} {n : Int} {m m' : Moment} {moments : List Moment}

def calling (n : Int) (s : ParserState) : Moment := ⟨⟨n, .operand, []⟩, s⟩

def beginsOperand (m : Moment) : Bool := m.calls.stage = .operand

/-- The moments that are visited from one moment to another, both included. -/
inductive Visits (m : Moment) : List Moment → Moment → Prop
  | start : Visits m [m] m
  | next {moments : List Moment} {m₁ m₂ : Moment} (before : Visits m moments m₁)
      (step : Next m₁ m₂) : Visits m (moments ++ [m₂]) m₂

theorem exists_visits (h : ReflTransGen Next m m') : ∃ moments, Visits m moments m' := by
  induction h with
  | refl => exact ⟨_, .start⟩
  | tail _ hnext ih =>
    obtain ⟨moments, hmoments⟩ := ih
    exact ⟨_, hmoments.next hnext⟩

theorem Visits.length_add_remaining_le (h : Visits m moments m') :
    moments.length + m'.remaining ≤ m.remaining + 1 := by
  induction h with
  | start => simp [Nat.add_comm]
  | next before step ih =>
    have hless := remaining_lt step
    rw [List.length_append, List.length_singleton]
    omega

/-- A closing bracket allows to begin an operand before the next token. -/
def allowance (m : Moment) : Nat :=
  match m.calls.stage with
  | .behindBracket _ => 1
  | _ => 0

/-- An operand is begun behind a token that has just been taken, or by the allowance. -/
theorem exists_reaches_of_next (h : Next m m') : ∃ tokens, m.state.Reaches tokens m'.state ∧
    m'.beginsOperand.toNat + m'.allowance ≤ tokens.length + m.allowance := by
  cases h with
  | read act advanced =>
    refine ⟨_, .step (CallStack.ne_eof_of_read act) (precedes_of_read act advanced) (.refl _), ?_⟩
    unfold CallStack.act CallStack.returned at act
    grind [beginsOperand, allowance]
  | turn act =>
    refine ⟨[], .refl _, ?_⟩
    unfold CallStack.act CallStack.returned at act
    grind [beginsOperand, allowance]

theorem Visits.countP_beginsOperand_le (h : Visits (calling n s) moments m) :
    ∃ tokens, s.Reaches tokens m.state ∧
      moments.countP beginsOperand + m.allowance ≤ tokens.length + 1 := by
  induction h with
  | start => exact ⟨[], .refl s, by simp [calling, beginsOperand, allowance]⟩
  | @next moments m₁ m₂ before step ih =>
    obtain ⟨tokens, hreaches, hcount⟩ := ih
    obtain ⟨tokens', hreaches', hcount'⟩ := exists_reaches_of_next step
    refine ⟨tokens ++ tokens', hreaches.trans hreaches', ?_⟩
    rw [List.countP_append, List.countP_singleton, List.length_append]
    cases hbegins : m₂.beginsOperand <;> simp [hbegins] at hcount' ⊢ <;> omega

theorem Visits.length_lt (h : Visits (calling n s) moments m) :
    moments.length < 2 * s.ahead.length := by
  have hlength := h.length_add_remaining_le
  have hpos := m.state.length_ahead_pos
  simp only [remaining, calling, liveCalls, CallStack.liveCalls, List.length_nil] at hlength
  omega

end Moment

namespace Parsing

open Moment

variable {s s' : ParserState} {n : Int} {limit : Nat} {call : ParserCall} {e : Option Expr}
  {r : Except Fault Expr}

def upToEnd (limit : Nat) (n : Int) : Parsing Expr := do
  let e ← expression limit n
  let token ← current
  if token.kind = .eof then return e else fail (.leftoverToken token)

theorem exists_run (h : result (upToEnd limit n) s = r) (hr : r ≠ .error .tooDeep) :
    ∃ moments m, Visits (calling n s) moments m ∧ m.EndsWith r := by
  have hlive : (calling n s).liveCalls ≤ limit := by
    cases limit with
    | zero => exact absurd h.symm hr
    | succ limit => exact Nat.succ_pos limit
  obtain ⟨m, hm, hend⟩ := leads_of_outcome hlive h hr
  obtain ⟨moments, hmoments⟩ := exists_visits (leads_of_within hm)
  exact ⟨moments, m, hmoments, hend⟩

/-- A call that succeeds takes a token at least, if it does not just move on. -/
theorem exists_reaches_of_step (hcall : call ∈ [.operand, .expression n, .whole])
    (h : call.step limit s = .ok e s') : ∃ tokens, tokens ≠ [] ∧ s.Reaches tokens s' := by
  have hexpression := expression_reaches limit
  have hends : Ends (call.step limit) s (fun _ s' => ∃ tokens, tokens ≠ [] ∧ s.Reaches tokens s')
      fun _ _ => True := by
    simp only [List.mem_cons, List.not_mem_nil, or_false] at hcall
    rcases hcall with rfl | rfl | rfl
    · simpa only [ParserCall.step, ends_bind, ends_pure] using operand_reaches hexpression s
    · simpa only [ParserCall.step, ends_bind, ends_pure] using hexpression n s
    · simp only [ParserCall.step, ends_bind, ends_pure, ends_whole]
      exact (hexpression _ s).mono (fun _ _ hreaches => ⟨fun _ => hreaches, fun _ => trivial⟩)
        fun _ _ => id
  exact hends.of_ok h

/-- Whatever state the parser is in and whatever the threshold is, a call that succeeds has taken a
token.  A limit as large as what lies ahead is not reached, and the loop over operators ends before
its bound.  Behind an expression the end is ahead, or what does not bind tighter than the threshold;
below the threshold zero nothing but the end is accepted there.  A run has fewer moments than twice
the entries ahead and begins no more operands than it takes tokens, and one; a reading up to the end
of the source is a run. -/
theorem calls_make_progress (s : ParserState) (n : Int) (limit : Nat) :
    (∀ call e s', call ∈ [.operand, .expression n, .whole] →
      ParserCall.step limit call s = .ok e s' → ∃ tokens, tokens ≠ [] ∧ s.Reaches tokens s') ∧
    (s.ahead.length ≤ limit → (∀ s', expression limit n s ≠ .error .tooDeep s') ∧
      ∀ limit', limit ≤ limit' → expression limit' n s = expression limit n s) ∧
    (∀ left bound, s.cursor.rest.length ≤ bound.length →
      operators (expression limit) n bound left s =
        operators (expression limit) n s.cursor.rest left s) ∧
    (∀ e s', expression limit n s = .ok e s' →
      s'.current.kind = .eof ∨ 0 ≤ n ∧ (s'.current.precedence : Int) ≤ n) ∧
    (n < 0 →
      (∀ fault s', expression limit 0 s = .error fault s' →
        expression limit n s = .error fault s') ∧
      ∀ e s', expression limit 0 s = .ok e s' →
        (s'.current.kind = .eof → expression limit n s = .ok e s') ∧
        (s'.current.kind ≠ .eof → s'.current.kind.operator? = none ∧
          ∃ fault, expression limit n s = .error fault s' ∧
            fault.column = some s'.current.position ∧
            fault.detail = "Please enter valid operator " ++ s'.current.display)) ∧
    (∀ moments m, Visits (calling n s) moments m → moments.length < 2 * s.ahead.length ∧
      ∃ tokens, s.Reaches tokens m.state ∧ tokens.length < s.ahead.length ∧
        moments.countP beginsOperand ≤ tokens.length + 1) ∧
    (∀ r, result (upToEnd limit n) s = r → r ≠ .error .tooDeep →
      ∃ moments m, Visits (calling n s) moments m ∧ m.EndsWith r) ∧
    whole limit = upToEnd limit Precedence.lowest := by
  refine ⟨fun call e s' => exists_reaches_of_step, fun hlimit => ⟨?depth, ?larger⟩,
    fun left bound hbound => ?bound, fun e s' h => ?stops, fun hn => ⟨?fails, ?negative⟩,
    fun moments m h => ⟨h.length_lt, ?operands⟩, fun r => exists_run, rfl⟩
  case depth =>
    intro s' h
    exact (expression_ne_tooDeep hlimit).of_error h rfl
  case larger => exact fun limit' hle => expression_congr (hlimit.trans hle) hlimit
  case bound =>
    have hlen := s.length_ahead_le
    exact operators_congr_bound (expression_shrinks limit) left (by omega) hlen
  case stops =>
    rcases (expression_stops limit n s).of_ok h with hle | heof
    · by_cases hn : 0 ≤ n
      · exact .inr ⟨hn, hle⟩
      · omega
    · exact .inl heof
  case fails => exact fun fault s' => expression_of_neg_of_error hn
  case negative =>
    intro e s' h
    have hstops := (expression_stops limit 0 s).of_ok h
    have hneg := expression_of_neg_of_ok hn h
    refine ⟨fun heof => ?_, fun heof => ⟨operator?_eq_none (hstops.resolve_right heof), ?_⟩⟩
    · rw [hneg, if_pos heof]
      rfl
    · rw [hneg, if_neg heof]
      exact ⟨_, rfl, rfl, rfl⟩
  case operands =>
    obtain ⟨tokens, hreaches, hcount⟩ := h.countP_beginsOperand_le
    refine ⟨tokens, hreaches, ?_, by omega⟩
    have hpos := m.state.length_ahead_pos
    rw [hreaches.ahead_eq, List.length_append, List.length_map]
    omega

end Parsing

end InfixCalculator
