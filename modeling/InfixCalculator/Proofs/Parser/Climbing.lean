import InfixCalculator.Proofs.Parser.Ahead

/-!
# Precedence climbing

Rules for the readers of expressions.  `ends_operand` lists everything that reading an operand can
do.  `fold` is the loop over the operators behind an operand, freed of its bound, and `ends_fold`
is the rule for its invariants.  By `expression_split` the loop of a low threshold is the loop of a
higher one followed by a loop of the low one, so an expression of one layer begins with an
expression of the next tighter layer.
-/

namespace InfixCalculator

namespace TokenKind

theorem precedence_pos {kind : TokenKind} {op : BinaryOp} (h : kind.operator? = some op) :
    0 < kind.precedence := by
  cases kind <;> simp_all [operator?, precedence, Precedence.sum, Precedence.product,
    Precedence.power]

theorem precedence_eq_zero {kind : TokenKind} (h : kind.operator? = none) :
    kind.precedence = 0 := by
  cases kind <;> simp_all [operator?, precedence, Precedence.lowest]

theorem ne_eof_of_operator? {kind : TokenKind} {op : BinaryOp} (h : kind.operator? = some op) :
    kind ≠ .eof := by
  rintro rfl
  simp [operator?] at h

end TokenKind

namespace Parsing

variable {α β : Type} {s s' : ParserState} {n m : Int} {limit : Nat}
  {nested : Int → Parsing Expr} {bad : Fault → ParserState → Prop}

theorem bind_congr_of_ends {step : Parsing β} {next next' : β → Parsing α}
    (h : Ends step s (fun b s' => next b s' = next' b s') fun _ _ => True) :
    (step >>= next) s = (step >>= next') s := by
  simp only [bind, EStateM.bind]
  cases hs : step s with
  | ok b s' => exact h.of_ok hs
  | error fault s' => rfl

theorem Ends.and {step : Parsing α} {ok ok' : α → ParserState → Prop}
    {bad bad' : Fault → ParserState → Prop} (h : Ends step s ok bad) (h' : Ends step s ok' bad') :
    Ends step s (fun a s' => ok a s' ∧ ok' a s') fun fault s' => bad fault s' ∧ bad' fault s' := by
  unfold Ends at *
  cases hs : step s with
  | ok a s' => simp_all only [and_self]
  | error fault s' => simp_all only [and_self]

theorem ends_expect {kind : TokenKind} {ok : Unit → ParserState → Prop} (hkind : kind ≠ .eof)
    (hok : s.current.kind = kind → ∀ s', s.Precedes s' → ok () s')
    (hfault : s.current.kind = kind → ∀ fault s', s.cursor.pullAll = [.failed fault] →
      bad fault s')
    (hother : s.current.kind ≠ kind →
      bad ⟨.expected kind s.current, some s.current.position⟩ s) :
    Ends (expect kind) s ok bad := by
  simp only [expect, ends_bind, ends_current]
  split
  · next h => exact ends_advance (by rwa [h]) (hok h) (hfault h)
  · next h => exact hother h

theorem ends_operand {ok : Expr → ParserState → Prop}
    (negative : s.current.kind = .subtract → ∀ s₁, s.Precedes s₁ →
      Ends (nested Precedence.negation) s₁ (fun inner s₂ => ok (.negative inner) s₂) bad)
    (number : s.current.kind = .num → ∀ s₁, s.Precedes s₁ → ok (.leaf s.current.number) s₁)
    (bracket : s.current.kind = .leftParen → ∀ s₁, s.Precedes s₁ →
      Ends (nested Precedence.lowest) s₁ (fun inner s₂ => Ends (expect .rightParen) s₂ (fun _ s₃ =>
        (s₃.current.kind = .leftParen → Ends (nested Precedence.product) s₃
          (fun right s₄ => ok (.binary .multiply inner right) s₄) bad) ∧
        (s₃.current.kind ≠ .leftParen → ok inner s₃)) bad) bad)
    (lexical : s.current.kind = .subtract ∨ s.current.kind = .num ∨ s.current.kind = .leftParen →
      ∀ fault s', s.cursor.pullAll = [.failed fault] → bad fault s')
    (finish : s.current.kind = .eof → bad ⟨.unexpectedEnd, some s.current.position⟩ s)
    (other : s.current.kind ≠ .subtract → s.current.kind ≠ .num → s.current.kind ≠ .leftParen →
      s.current.kind ≠ .eof → bad ⟨.operandExpected s.current, some s.current.position⟩ s) :
    Ends (operand nested) s ok bad := by
  simp only [operand, ends_bind, ends_current]
  split
  · next h =>
    simp only [ends_bind, ends_pure]
    exact ends_advance (by simp [h]) (negative h) (lexical (.inl h))
  · next h =>
    simp only [ends_bind, ends_pure]
    exact ends_advance (by simp [h]) (number h) (lexical (.inr (.inl h)))
  · next h =>
    simp only [ends_bind, ends_current]
    refine ends_advance (by simp [h]) (fun s₁ hs₁ => ?_) (lexical (.inr (.inr h)))
    refine (bracket h s₁ hs₁).mono (fun inner s₂ hs₂ => ?_) fun _ _ => id
    refine hs₂.mono (fun _ s₃ hs₃ => ?_) fun _ _ => id
    split
    · next hleft => simpa only [ends_bind, ends_pure] using hs₃.1 hleft
    · next hleft => exact hs₃.2 hleft
  · next h => exact finish h
  · next hsub hnum hleft heof => exact other hsub hnum hleft heof

/-! ## Turns of the loop over operators -/

/-- One turn of the loop: stops, or takes an operator with its right operand and goes on as `next`
says. -/
def turn (nested : Int → Parsing Expr) (n : Int) (next : Expr → Parsing Expr) (left : Expr) :
    Parsing Expr := do
  let token ← current
  if token.precedence ≤ n ∨ token.kind = .eof then return left
  else
    match token.kind.operator? with
    | none => fail (.operatorExpected token)
    | some op =>
      advance
      let right ← nested token.precedence
      next (.binary op left right)

theorem ends_turn {next : Expr → Parsing Expr} {left : Expr} {ok : Expr → ParserState → Prop}
    (stop : (s.current.precedence : Int) ≤ n ∨ s.current.kind = .eof → ok left s)
    (refuse : n < s.current.precedence → s.current.kind ≠ .eof →
      s.current.kind.operator? = none →
      bad ⟨.operatorExpected s.current, some s.current.position⟩ s)
    (lexical : n < s.current.precedence → ∀ op, s.current.kind.operator? = some op →
      ∀ fault s', s.cursor.pullAll = [.failed fault] → bad fault s')
    (go : n < s.current.precedence → ∀ op, s.current.kind.operator? = some op →
      ∀ s₁, s.Precedes s₁ → Ends (nested s.current.precedence) s₁
        (fun right s₂ => Ends (next (.binary op left right)) s₂ ok bad) bad) :
    Ends (turn nested n next left) s ok bad := by
  simp only [turn, ends_bind, ends_current]
  split
  · next h => exact stop h
  · next h =>
    rw [not_or, Int.not_le] at h
    split
    · next hop => exact refuse h.1 h.2 hop
    · next op hop =>
      simp only [ends_bind]
      exact ends_advance h.2 (go h.1 op hop) (lexical h.1 op hop)

theorem turn_congr {next next' : Expr → Parsing Expr} {left : Expr}
    (h : ∀ op, s.current.kind.operator? = some op → ∀ s₁, s.Precedes s₁ →
      Ends (nested s.current.precedence) s₁
        (fun right s₂ => next (.binary op left right) s₂ = next' (.binary op left right) s₂)
        fun _ _ => True) :
    turn nested n next left s = turn nested n next' left s := by
  unfold turn
  refine bind_congr_of_ends (ends_current.2 ?_)
  by_cases hstop : (s.current.precedence : Int) ≤ n ∨ s.current.kind = .eof
  · rw [if_pos hstop, if_pos hstop]
  · rw [if_neg hstop, if_neg hstop]
    cases hop : s.current.kind.operator? with
    | none => rfl
    | some op =>
      refine bind_congr_of_ends (ends_advance (not_or.1 hstop).2 (fun s₁ hs₁ => ?_) ?_)
      · exact bind_congr_of_ends (h op hop s₁ hs₁)
      · exact fun _ _ _ => trivial

theorem turn_of_stop {next : Expr → Parsing Expr} {left : Expr}
    (h : (s.current.precedence : Int) ≤ n ∨ s.current.kind = .eof) :
    turn nested n next left s = .ok left s := by
  change (if _ then _ else _ : Parsing Expr) s = _
  rw [if_pos h]
  rfl

theorem turn_of_le {next : Expr → Parsing Expr} {left : Expr} (hnm : n ≤ m)
    (h : ¬((s.current.precedence : Int) ≤ m ∨ s.current.kind = .eof)) :
    turn nested n next left s = turn nested m next left s := by
  have hn : ¬((s.current.precedence : Int) ≤ n ∨ s.current.kind = .eof) := by
    rw [not_or] at *
    exact ⟨by omega, h.2⟩
  change (if _ then _ else _ : Parsing Expr) s = (if _ then _ else _ : Parsing Expr) s
  rw [if_neg h, if_neg hn]

theorem turn_bind {next : Expr → Parsing Expr} {more : Expr → Parsing Expr} {left : Expr}
    (h : ¬((s.current.precedence : Int) ≤ n ∨ s.current.kind = .eof)) :
    (turn nested n next left >>= more) s = turn nested n (fun e => next e >>= more) left s := by
  change ((if _ then _ else _ : Parsing Expr) >>= more) s = (if _ then _ else _ : Parsing Expr) s
  rw [if_neg h, if_neg h]
  cases s.current.kind.operator? with
  | none => rfl
  | some op => simp only [bind_assoc]

theorem operators_nil (nested : Int → Parsing Expr) (n : Int) (left : Expr) :
    operators nested n [] left = turn nested n pure left := by
  rw [operators]
  rfl

theorem operators_cons (nested : Int → Parsing Expr) (n : Int) (c : Char) (bound : List Char)
    (left : Expr) :
    operators nested n (c :: bound) left = turn nested n (operators nested n bound) left := by
  rw [operators]
  rfl

/-! ## The bound of the loop -/

/-- Every successful reading uses up at least one entry of what lies ahead. -/
def Shrinks (nested : Int → Parsing Expr) : Prop :=
  ∀ n s, Ends (nested n) s (fun _ s' => s'.ahead.length < s.ahead.length) fun _ _ => True

theorem operand_shrinks (h : Shrinks nested) :
    Ends (operand nested) s (fun _ s' => s'.ahead.length < s.ahead.length) fun _ _ => True := by
  apply ends_operand
  · intro hk s₁ hs₁
    have := hs₁.length_ahead (by simp [hk])
    exact (h _ s₁).mono (fun _ s₂ hs₂ => by omega) fun _ _ => id
  · intro hk s₁ hs₁
    have := hs₁.length_ahead (by simp [hk])
    omega
  · intro hk s₁ hs₁
    have := hs₁.length_ahead (by simp [hk])
    refine (h _ s₁).mono (fun inner s₂ hs₂ => ?_) fun _ _ => id
    refine ends_expect (by simp) (fun hk₂ s₃ hs₃ => ?_) (fun _ _ _ _ => trivial) fun _ => trivial
    have := hs₃.length_ahead (by simp [hk₂])
    exact ⟨fun _ => (h _ s₃).mono (fun _ s₄ hs₄ => by omega) fun _ _ => id, fun _ => by omega⟩
  all_goals simp

theorem operators_shrinks (h : Shrinks nested) (bound : List Char) (left : Expr) :
    Ends (operators nested n bound left) s (fun _ s' => s'.ahead.length ≤ s.ahead.length)
      fun _ _ => True := by
  induction bound generalizing left s with
  | nil =>
    rw [operators_nil]
    refine ends_turn (by simp) (by simp) (by simp) fun _ op hop s₁ hs₁ => ?_
    have := hs₁.length_ahead (TokenKind.ne_eof_of_operator? hop)
    exact (h _ s₁).mono (fun right s₂ hs₂ => (ends_pure _).2 (by omega)) fun _ _ => id
  | cons c bound ih =>
    rw [operators_cons]
    refine ends_turn (by simp) (by simp) (by simp) fun _ op hop s₁ hs₁ => ?_
    have := hs₁.length_ahead (TokenKind.ne_eof_of_operator? hop)
    refine (h _ s₁).mono (fun right s₂ hs₂ => ?_) fun _ _ => id
    exact (ih _).mono (fun _ s₃ hs₃ => by omega) fun _ _ => id

theorem expression_shrinks (limit : Nat) : Shrinks (expression limit) := by
  induction limit with
  | zero => exact fun n s => trivial
  | succ limit ih =>
    intro n s
    simp only [expression, ends_bind]
    refine (operand_shrinks ih).mono (fun left s₁ hs₁ => ?_) fun _ _ => id
    exact (operators_shrinks ih _ _).mono (fun _ s₂ hs₂ => by omega) fun _ _ => id

/-- A bound that is as long as the rest of the source is never reached. -/
theorem operators_congr_bound (h : Shrinks nested) {bound bound' : List Char} (left : Expr)
    (hb : s.ahead.length ≤ bound.length + 2) (hb' : s.ahead.length ≤ bound'.length + 2) :
    operators nested n bound left s = operators nested n bound' left s := by
  induction bound generalizing bound' left s with
  | nil =>
    cases bound' with
    | nil => rfl
    | cons c' bound' =>
      rw [operators_nil, operators_cons]
      refine turn_congr fun op hop s₁ hs₁ => (h _ s₁).mono (fun right s₂ hs₂ => ?_) fun _ _ => id
      have := hs₁.length_ahead (TokenKind.ne_eof_of_operator? hop)
      have := s₂.length_ahead_pos
      simp only [List.length_nil] at hb
      omega
  | cons c bound ih =>
    cases bound' with
    | nil =>
      rw [operators_nil, operators_cons]
      refine turn_congr fun op hop s₁ hs₁ => (h _ s₁).mono (fun right s₂ hs₂ => ?_) fun _ _ => id
      have := hs₁.length_ahead (TokenKind.ne_eof_of_operator? hop)
      have := s₂.length_ahead_pos
      simp only [List.length_nil] at hb'
      omega
    | cons c' bound' =>
      rw [operators_cons, operators_cons]
      refine turn_congr fun op hop s₁ hs₁ => (h _ s₁).mono (fun right s₂ hs₂ => ?_) fun _ _ => id
      have := hs₁.length_ahead (TokenKind.ne_eof_of_operator? hop)
      simp only [List.length_cons] at hb hb'
      exact ih _ (by omega) (by omega)

/-! ## The loop without its bound -/

/-- Folds the operators ahead that bind tighter than the threshold into `left`. -/
def fold (limit : Nat) (n : Int) (left : Expr) : Parsing Expr := fun s =>
  operators (expression limit) n s.cursor.rest left s

theorem expression_succ (limit : Nat) (n : Int) :
    expression (limit + 1) n = operand (expression limit) >>= fold limit n := rfl

theorem fold_eq (limit : Nat) (n : Int) (left : Expr) :
    fold limit n left = turn (expression limit) n (fold limit n) left := by
  funext s
  have hlen := ParserState.length_ahead_le
  have hlonger : s.ahead.length ≤ ('0' :: s.cursor.rest).length + 2 :=
    Nat.le_trans (hlen s) (by simp)
  have hshrinks := expression_shrinks limit
  rw [fold, operators_congr_bound hshrinks left (hlen s) hlonger, operators_cons]
  refine turn_congr fun op hop s₁ hs₁ => (hshrinks _ s₁).mono (fun right s₂ hs₂ => ?_) fun _ _ => id
  have := hs₁.length_ahead (TokenKind.ne_eof_of_operator? hop)
  have := hlen s
  exact operators_congr_bound hshrinks _ (by omega) (hlen s₂)

/-- The loop ends in `ok` if some invariant holds at its beginning, is kept by every turn, and
gives `ok` where the loop stops. -/
theorem ends_fold {ok : Expr → ParserState → Prop} (inv : Expr → ParserState → Prop)
    (stop : ∀ left s, inv left s → (s.current.precedence : Int) ≤ n ∨ s.current.kind = .eof →
      ok left s)
    (refuse : ∀ left s, inv left s → n < s.current.precedence → s.current.kind ≠ .eof →
      s.current.kind.operator? = none →
      bad ⟨.operatorExpected s.current, some s.current.position⟩ s)
    (lexical : ∀ left s, inv left s → ∀ op, s.current.kind.operator? = some op →
      ∀ fault s', s.cursor.pullAll = [.failed fault] → bad fault s')
    (go : ∀ left s, inv left s → n < s.current.precedence →
      ∀ op, s.current.kind.operator? = some op → ∀ s₁, s.Precedes s₁ →
      Ends (expression limit s.current.precedence) s₁
        (fun right s₂ => inv (.binary op left right) s₂) bad)
    {left : Expr} (h : inv left s) : Ends (fold limit n left) s ok bad := by
  generalize hk : s.ahead.length = k
  induction k using Nat.strongRecOn generalizing left s with
  | ind k ih =>
    rw [fold_eq]
    refine ends_turn (stop left s h) (refuse left s h) (fun _ => lexical left s h) ?_
    intro hn op hop s₁ hs₁
    have hlen := hs₁.length_ahead (TokenKind.ne_eof_of_operator? hop)
    refine ((go left s h hn op hop s₁ hs₁).and (expression_shrinks limit _ s₁)).mono ?_
      fun _ _ => And.left
    exact fun right s₂ hs₂ => ih _ (by omega) hs₂.1 rfl

theorem operand_reaches (h : ∀ n s, Ends (nested n) s
      (fun _ s' => ∃ tokens, tokens ≠ [] ∧ s.Reaches tokens s') fun _ _ => True)
    (s : ParserState) :
    Ends (operand nested) s (fun _ s' => ∃ tokens, tokens ≠ [] ∧ s.Reaches tokens s')
      fun _ _ => True := by
  refine ends_operand ?negative ?number ?bracket (by simp) (by simp) (by simp)
  case negative =>
    intro hk s₁ hs₁
    refine (h _ s₁).mono (fun inner s₂ hs₂ => ?_) fun _ _ => id
    obtain ⟨tokens, -, hr⟩ := hs₂
    exact ⟨_, by simp, .step (by simp [hk]) hs₁ hr⟩
  case number =>
    intro hk s₁ hs₁
    exact ⟨_, by simp, .step (by simp [hk]) hs₁ (.refl s₁)⟩
  case bracket =>
    intro hk s₁ hs₁
    refine (h _ s₁).mono (fun inner s₂ hs₂ => ?_) fun _ _ => id
    obtain ⟨tokens, -, hr⟩ := hs₂
    refine ends_expect (by simp) (fun hk₂ s₃ hs₃ => ?_) (by simp) (by simp)
    have hr₃ := hr.trans (.step (by simp [hk₂]) hs₃ (.refl s₃))
    refine ⟨fun _ => (h _ s₃).mono (fun right s₄ hs₄ => ?_) fun _ _ => id, fun _ => ?_⟩
    · obtain ⟨tokens', -, hr'⟩ := hs₄
      exact ⟨_, by simp, .step (by simp [hk]) hs₁ (hr₃.trans hr')⟩
    · exact ⟨_, by simp, .step (by simp [hk]) hs₁ hr₃⟩

/-- A reading moves on over at least one token, and over nothing but tokens. -/
theorem expression_reaches (limit : Nat) (n : Int) (s : ParserState) :
    Ends (expression limit n) s (fun _ s' => ∃ tokens, tokens ≠ [] ∧ s.Reaches tokens s')
      fun _ _ => True := by
  induction limit generalizing n s with
  | zero => trivial
  | succ limit ih =>
    rw [expression_succ, ends_bind]
    refine (operand_reaches ih s).mono (fun left s₁ hs₁ => ?_) fun _ _ => id
    refine ends_fold (fun _ s' => ∃ tokens, tokens ≠ [] ∧ s.Reaches tokens s') (fun _ _ h _ => h)
      (by simp) (by simp) ?_ hs₁
    rintro _ s₂ ⟨tokens, hne, hr⟩ _ op hop s₃ hs₃
    refine (ih _ s₃).mono (fun right s₄ hs₄ => ?_) fun _ _ => id
    obtain ⟨tokens', -, hr'⟩ := hs₄
    exact ⟨_, by simp [hne], hr.trans (.step (TokenKind.ne_eof_of_operator? hop) hs₃ hr')⟩

/-! ## Layers of the loop -/

theorem fold_split (hnm : n ≤ m) (left : Expr) :
    fold limit n left = fold limit m left >>= fold limit n := by
  funext s
  generalize hk : s.ahead.length = k
  induction k using Nat.strongRecOn generalizing left s with
  | ind k ih =>
    by_cases hstop : (s.current.precedence : Int) ≤ m ∨ s.current.kind = .eof
    · have hm : fold limit m left s = .ok left s := by
        rw [fold_eq]
        exact turn_of_stop hstop
      simp only [bind, EStateM.bind, hm]
    · rw [fold_eq limit m left, turn_bind hstop, fold_eq, turn_of_le hnm hstop]
      refine turn_congr fun op hop s₁ hs₁ => ?_
      have hlen := hs₁.length_ahead (TokenKind.ne_eof_of_operator? hop)
      refine (expression_shrinks limit _ s₁).mono (fun right s₂ hs₂ => ?_) fun _ _ => id
      exact ih _ (by omega) _ s₂ rfl

/-- An expression of a loose layer begins with an expression of a tighter one. -/
theorem expression_split (hnm : n ≤ m) :
    expression (limit + 1) n = expression (limit + 1) m >>= fold limit n := by
  rw [expression_succ, expression_succ, bind_assoc]
  congr 1
  funext left
  exact fold_split hnm left

theorem precedence_le_of_stop (hn : 0 ≤ n)
    (h : (s.current.precedence : Int) ≤ n ∨ s.current.kind = .eof) :
    (s.current.precedence : Int) ≤ n := by
  rcases h with h | h
  · exact h
  · simpa [Token.precedence, h, TokenKind.precedence, Precedence.lowest] using hn

/-- Behind an expression stands no operator that binds tighter than its threshold. -/
theorem expression_stops (limit : Nat) (n : Int) (s : ParserState) :
    Ends (expression limit n) s
      (fun _ s' => (s'.current.precedence : Int) ≤ n ∨ s'.current.kind = .eof)
      fun _ _ => True := by
  cases limit with
  | zero => trivial
  | succ limit =>
    rw [expression_succ, ends_bind]
    refine (operand_shrinks (expression_shrinks limit)).mono (fun left s₁ _ => ?_) fun _ _ => id
    refine ends_fold (fun _ _ => True) (fun _ _ _ => id) ?_ ?_ ?_ trivial
    · simp
    · simp
    · intro _ s₂ _ _ op _ s₃ _
      exact (expression_shrinks limit _ s₃).mono (fun _ _ _ => trivial) fun _ _ => id

end Parsing

end InfixCalculator
