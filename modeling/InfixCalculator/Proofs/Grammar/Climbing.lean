import Mathlib.Control.Monad.Basic
import InfixCalculator.Proofs.Grammar.Layered
import InfixCalculator.Proofs.Parser.Source

/-!
# Climbing reads the layered grammar

The reader of expressions with a threshold reads one layer of the grammar, which the threshold
selects, and leaves the tokens that the layer leaves.
-/

namespace InfixCalculator

open Grammar

/-- The tokens ahead are the given ones, and behind them the source ends without a fault. -/
def ParserState.Lists (s : ParserState) (tokens : List Token) : Prop :=
  s.ahead = tokens.map .token ++ [.exhausted]

namespace ParserState.Lists

variable {s s' : ParserState} {token : Token} {tokens : List Token}

theorem eq_nil (h : s.Lists tokens) (hs : s.current.kind = .eof) : tokens = [] := by
  unfold Lists at h
  rw [ahead_of_eof hs] at h
  cases tokens <;> simp_all

theorem exists_cons (h : s.Lists tokens) (hs : s.current.kind ≠ .eof) :
    ∃ rest, tokens = s.current :: rest ∧ s.cursor.pullAll = rest.map .token ++ [.exhausted] := by
  unfold Lists at h
  rw [ahead_of_ne_eof hs] at h
  cases tokens with
  | nil => simp at h
  | cons token rest =>
    simp only [List.map_cons, List.cons_append, List.cons.injEq, Pull.token.injEq] at h
    exact ⟨rest, by rw [h.1], h.2⟩

theorem not_failed (h : s.Lists tokens) (hs : s.current.kind ≠ .eof) (fault : Fault) :
    s.cursor.pullAll ≠ [.failed fault] := by
  obtain ⟨rest, -, hrest⟩ := h.exists_cons hs
  rw [hrest]
  cases rest <;> simp

theorem of_precedes {rest : List Token} (hp : s.Precedes s')
    (h : s.cursor.pullAll = rest.map .token ++ [.exhausted]) : s'.Lists rest :=
  hp.ahead_eq.trans h

theorem current_of_cons (h : s.Lists (token :: tokens)) :
    s.current = token ∧ s.current.kind ≠ .eof := by
  have hs : s.current.kind ≠ .eof := fun hs => by simpa using h.eq_nil hs
  obtain ⟨rest, hrest, -⟩ := h.exists_cons hs
  exact ⟨(List.cons.inj hrest).1.symm, hs⟩

theorem current_of_nil (h : s.Lists []) : s.current.kind = .eof := by
  by_cases hs : s.current.kind = .eof
  · exact hs
  · obtain ⟨rest, hrest, -⟩ := h.exists_cons hs
    simp at hrest

theorem tail (h : s.Lists (token :: tokens)) (hp : s.Precedes s') : s'.Lists tokens := by
  obtain ⟨rest, heq, hrest⟩ := h.exists_cons h.current_of_cons.2
  obtain rfl := (List.cons.inj heq).2
  exact .of_precedes hp hrest

theorem eq_current (h : s.Lists tokens) (ht : token ∈ tokens.head?) : token = s.current := by
  cases tokens with
  | nil => simp at ht
  | cons first rest =>
    obtain rfl : first = token := by simpa using ht
    exact h.current_of_cons.1.symm

theorem notAhead {kind : TokenKind} (h : s.Lists tokens) (hk : s.current.kind ≠ kind) :
    NotAhead kind tokens := fun _ ht => by rwa [h.eq_current ht]

end ParserState.Lists

namespace Grammar

def Rule.tighterThan (n : Int) : Rule :=
  if n ≤ 0 then .chain .sum
  else if n = 1 then .chain .product
  else if n = 2 then .chain .power
  else .unary

end Grammar

namespace Parsing

variable {s : ParserState} {tokens : List Token} {limit : Nat} {n : Int}

def Sound (rule : Rule) (step : Parsing Expr) : Prop :=
  ∀ s tokens, s.Lists tokens →
    Ends step s (fun e s' => ∃ rest, s'.Lists rest ∧ Reads rule tokens e rest) fun _ _ => True

theorem operand_sound (ih : ∀ n, 0 ≤ n → Sound (.tighterThan n) (expression limit n)) :
    Sound .unary (operand (expression limit)) := by
  intro s tokens h
  refine ends_operand ?negative ?number ?bracket (by simp) (by simp) (by simp)
  case negative =>
    intro hk s₁ hs₁
    obtain ⟨rest, rfl, hrest⟩ := h.exists_cons (by simp [hk])
    refine (ih _ (by decide) s₁ rest (.of_precedes hs₁ hrest)).mono ?_ fun _ _ => id
    rintro e s₂ ⟨rest₂, h₂, hr⟩
    exact ⟨rest₂, h₂, .negative hk hr⟩
  case number =>
    intro hk s₁ hs₁
    obtain ⟨rest, rfl, hrest⟩ := h.exists_cons (by simp [hk])
    exact ⟨rest, .of_precedes hs₁ hrest, .number hk⟩
  case bracket =>
    intro hk s₁ hs₁
    obtain ⟨rest, rfl, hrest⟩ := h.exists_cons (by simp [hk])
    refine (ih _ (by decide) s₁ rest (.of_precedes hs₁ hrest)).mono ?_ fun _ _ => id
    rintro inner s₂ ⟨rest₂, h₂, hr⟩
    refine ends_expect (by simp) (fun hk₂ s₃ hs₃ => ⟨fun hk₃ => ?_, fun hk₃ => ?_⟩) (by simp)
      (by simp)
    · obtain ⟨rest₃, rfl, hrest₃⟩ := h₂.exists_cons (by simp [hk₂])
      have h₃ : s₃.Lists rest₃ := .of_precedes hs₃ hrest₃
      obtain ⟨mid, rfl, -⟩ := h₃.exists_cons (by simp [hk₃])
      refine (ih _ (by decide) s₃ _ h₃).mono ?_ fun _ _ => id
      rintro right s₄ ⟨rest₄, h₄, hr'⟩
      exact ⟨rest₄, h₄, .group (.implied hk hr hk₂ hk₃ hr')⟩
    · obtain ⟨rest₃, rfl, hrest₃⟩ := h₂.exists_cons (by simp [hk₂])
      have h₃ : s₃.Lists rest₃ := .of_precedes hs₃ hrest₃
      exact ⟨rest₃, h₃, .group (.single hk hr hk₂ (h₃.notAhead hk₃))⟩

theorem chain_sound (layer : Layer)
    (hoperand : Sound layer.operand (expression limit layer.precedence))
    (hfirst : Sound layer.operand (expression (limit + 1) layer.precedence)) :
    Sound (.chain layer) (expression (limit + 1) (layer.precedence - 1)) := by
  intro s tokens h
  rw [expression_split (by omega : (layer.precedence : Int) - 1 ≤ layer.precedence), ends_bind]
  refine ((hfirst s tokens h).and (expression_stops _ _ s)).mono ?_ fun _ _ => And.left
  rintro left s₁ ⟨⟨mid, h₁, hr⟩, hstop⟩
  -- What has been read so far turns a reading of the repetition into one of the whole chain.
  refine ends_fold (fun left s' => ∃ mid, s'.Lists mid ∧
      (s'.current.precedence : Int) ≤ layer.precedence ∧
      ∀ e rest, Reads (.repetition layer left) mid e rest → Reads (.chain layer) tokens e rest)
    ?stop (by simp) (by simp) ?go ⟨mid, h₁, precedence_le_of_stop (by omega) hstop, ?_⟩
  case stop =>
    rintro left s' ⟨mid, h', -, hmore⟩ hs'
    have hlt := precedence_le_of_stop (by cases layer <;> decide) hs'
    refine ⟨mid, h', hmore left mid (.stop fun token ht => ?_)⟩
    refine Layer.operator?_eq_none fun heq => ?_
    rw [h'.eq_current ht] at heq
    simp only [Token.precedence] at hlt
    omega
  case go =>
    rintro left s' ⟨mid, h', hle, hmore⟩ hlt op hop s₂ hs₂
    simp only [Token.precedence] at hle hlt
    have heq : s'.current.kind.precedence = layer.precedence := by omega
    obtain ⟨rest, rfl, hrest⟩ := h'.exists_cons (TokenKind.ne_eof_of_operator? hop)
    have hright := hoperand s₂ rest (.of_precedes hs₂ hrest)
    simp only [Token.precedence, heq]
    refine (hright.and (expression_stops _ _ s₂)).mono ?_ fun _ _ => And.left
    rintro right s₃ ⟨⟨rest₃, h₃, hr₃⟩, hstop₃⟩
    refine ⟨rest₃, h₃, precedence_le_of_stop (by omega) hstop₃, fun e rest hrest => ?_⟩
    exact hmore e rest (.fold (Layer.operator?_of_precedence hop heq) hr₃ hrest)
  · exact fun e rest hmore => .chain hr hmore

theorem precedence_le (token : Token) : token.precedence ≤ Precedence.power := by
  unfold Token.precedence
  cases token.kind <;> decide

theorem fold_of_power_le (hn : (Precedence.power : Int) ≤ n) : fold limit n = pure := by
  funext left s
  rw [fold_eq]
  refine turn_of_stop (.inl ?_)
  have := precedence_le s.current
  omega

theorem expression_of_power_le (hn : (Precedence.power : Int) ≤ n) :
    expression (limit + 1) n = operand (expression limit) := by
  rw [expression_succ, fold_of_power_le hn, bind_pure]

/-- What is read with a threshold is read by the layer that the threshold selects. -/
theorem expression_sound (limit : Nat) (hn : 0 ≤ n) :
    Sound (.tighterThan n) (expression limit n) := by
  induction limit generalizing n with
  | zero => exact fun s tokens _ => trivial
  | succ limit ih =>
    have hunary {n : Int} (hn : (Precedence.power : Int) ≤ n) :
        Sound .unary (expression (limit + 1) n) := by
      rw [expression_of_power_le hn]
      exact operand_sound fun n hn => ih hn
    have hpower : Sound (.chain .power) (expression (limit + 1) Precedence.product) :=
      chain_sound .power (ih (by decide)) (hunary (by decide))
    have hproduct : Sound (.chain .product) (expression (limit + 1) Precedence.sum) :=
      chain_sound .product (ih (by decide)) hpower
    have hsum : Sound (.chain .sum) (expression (limit + 1) Precedence.lowest) :=
      chain_sound .sum (ih (by decide)) hproduct
    obtain rfl | rfl | rfl | hle : n = 0 ∨ n = 1 ∨ n = 2 ∨ 3 ≤ n := by omega
    · exact hsum
    · exact hproduct
    · exact hpower
    · have hrule : Rule.tighterThan n = .unary := by grind [Rule.tighterThan]
      exact hrule ▸ hunary hle

/-! ## Every reading is found -/

theorem expression_congr_of_power_le {m : Int} (hn : (Precedence.power : Int) ≤ n)
    (hm : (Precedence.power : Int) ≤ m) : expression limit n = expression limit m := by
  cases limit with
  | zero => rfl
  | succ limit => rw [expression_of_power_le hn, expression_of_power_le hm]

def reader (limit : Nat) : Rule → Parsing Expr
  | .chain layer => expression limit (layer.precedence - 1)
  | .repetition layer left => fold limit (layer.precedence - 1) left
  | .unary | .group => expression limit Precedence.power

theorem reader_operand (layer : Layer) :
    reader limit layer.operand = expression limit layer.precedence := by
  cases layer <;> rfl

/-- The step ends with `e` before the tokens `rest`, unless the source is too deep. -/
def Yields (step : Parsing Expr) (s : ParserState) (e : Expr) (rest : List Token) : Prop :=
  Ends step s (fun e' s' => e' = e ∧ s'.Lists rest) fun fault _ => fault = .tooDeep

theorem fold_yields_of_stop {layer : Layer} {left : Expr} (h : s.Lists tokens)
    (hle : s.current.precedence ≤ layer.precedence)
    (hstop : ∀ token ∈ tokens.head?, layer.operator? token.kind = none) :
    Yields (fold limit (layer.precedence - 1) left) s left tokens := by
  rw [Yields, fold_eq]
  refine ends_of_eq_ok (turn_of_stop ?_) ⟨rfl, h⟩
  by_cases hs : s.current.kind = .eof
  · exact .inr hs
  · obtain ⟨rest, rfl, -⟩ := h.exists_cons hs
    have hnone := hstop s.current rfl
    have hne : s.current.precedence ≠ layer.precedence := fun heq => by
      cases hop : s.current.kind.operator? with
      | none =>
        have := TokenKind.precedence_eq_zero hop
        cases layer <;> simp_all [Token.precedence, Layer.precedence, Precedence.sum,
          Precedence.product, Precedence.power]
      | some op => simp [Layer.operator?_of_precedence hop heq] at hnone
    exact .inl (by omega)

theorem reader_tighterThan (hn : 0 ≤ n) :
    reader limit (.tighterThan n) = expression limit n := by
  obtain rfl | rfl | rfl | hle : n = 0 ∨ n = 1 ∨ n = 2 ∨ 3 ≤ n := by omega
  · rfl
  · rfl
  · rfl
  · have hrule : Rule.tighterThan n = .unary := by grind [Rule.tighterThan]
    rw [hrule]
    exact expression_congr_of_power_le (by decide) hle

theorem fold_yields {layer : Layer} {token : Token} {op : BinaryOp} {left right e : Expr}
    {mid rest : List Token} (h : s.Lists (token :: tokens))
    (operator : layer.operator? token.kind = some op)
    (hright : ∀ s₁, s₁.Lists tokens → Yields (expression limit layer.precedence) s₁ right mid)
    (hmore : ∀ s₂, s₂.Lists mid → s₂.current.precedence ≤ layer.precedence →
      Yields (fold limit (layer.precedence - 1) (.binary op left right)) s₂ e rest) :
    Yields (fold limit (layer.precedence - 1) left) s e rest := by
  obtain ⟨rfl, hs⟩ := h.current_of_cons
  obtain ⟨hop, hprec⟩ := Layer.precedence_of_operator? operator
  have hpos := TokenKind.precedence_pos hop
  rw [Yields, fold_eq]
  refine ends_turn ?halt (by simp [hop]) ?lexical ?go
  case halt =>
    rintro (hlow | heof)
    · simp only [Token.precedence] at hlow
      omega
    · exact absurd heof hs
  case lexical => exact fun _ op _ fault _ hfault => absurd hfault (h.not_failed hs fault)
  case go =>
    intro _ op' hop' s₁ hs₁
    obtain rfl : op = op' := by simpa [hop] using hop'
    simp only [Token.precedence, hprec]
    refine ((hright s₁ (h.tail hs₁)).and (expression_stops _ _ s₁)).mono ?_ fun _ _ => And.left
    rintro _ s₂ ⟨⟨rfl, h₂⟩, hstop⟩
    have hle := precedence_le_of_stop (by omega) hstop
    exact hmore s₂ h₂ (by omega)

theorem chain_yields {layer : Layer} {left e : Expr} {mid rest : List Token}
    (hleft : Yields (expression (limit + 1) layer.precedence) s left mid)
    (hmore : ∀ s₁, s₁.Lists mid → s₁.current.precedence ≤ layer.precedence →
      Yields (fold limit (layer.precedence - 1) left) s₁ e rest) :
    Yields (expression (limit + 1) (layer.precedence - 1)) s e rest := by
  rw [Yields, expression_split (by omega : (_ : Int) - 1 ≤ layer.precedence), ends_bind]
  refine (hleft.and (expression_stops _ _ s)).mono ?_ fun _ _ => And.left
  rintro _ s₁ ⟨⟨rfl, h₁⟩, hstop⟩
  have hle := precedence_le_of_stop (by omega) hstop
  exact hmore s₁ h₁ (by omega)

theorem yields_negative {sign : Token} {e : Expr} {rest : List Token}
    (h : s.Lists (sign :: tokens)) (minus : sign.kind = .subtract)
    (hinner : ∀ s₁, s₁.Lists tokens → Yields (expression limit Precedence.negation) s₁ e rest) :
    Yields (operand (expression limit)) s (.negative e) rest := by
  obtain ⟨rfl, hs⟩ := h.current_of_cons
  refine ends_operand (fun _ s₁ hs₁ => ?_) (by simp [minus]) (by simp [minus])
    (fun _ fault _ hfault => absurd hfault (h.not_failed hs fault)) (by simp [minus])
    (by simp [minus])
  refine (hinner s₁ (h.tail hs₁)).mono ?_ fun _ _ => id
  rintro _ s₂ ⟨rfl, h₂⟩
  exact ⟨rfl, h₂⟩

theorem yields_number {token : Token} (h : s.Lists (token :: tokens))
    (literal : token.kind = .num) :
    Yields (operand (expression limit)) s (.leaf token.number) tokens := by
  obtain ⟨rfl, hs⟩ := h.current_of_cons
  exact ends_operand (by simp [literal]) (fun _ s₁ hs₁ => ⟨rfl, h.tail hs₁⟩) (by simp [literal])
    (fun _ fault _ hfault => absurd hfault (h.not_failed hs fault)) (by simp [literal])
    (by simp [literal])

/-- What a bracket yields is decided behind its end, by whether another bracket opens there. -/
theorem yields_bracket {opening closing : Token} {left e : Expr} {mid rest : List Token}
    (h : s.Lists (opening :: tokens)) (opens : opening.kind = .leftParen)
    (hinner : ∀ s₁, s₁.Lists tokens →
      Yields (expression limit Precedence.lowest) s₁ left (closing :: mid))
    (closes : closing.kind = .rightParen)
    (behind : ∀ s₃, s₃.Lists mid →
      (s₃.current.kind = .leftParen → ∃ right, e = .binary .multiply left right ∧
        Yields (expression limit Precedence.product) s₃ right rest) ∧
      (s₃.current.kind ≠ .leftParen → e = left ∧ s₃.Lists rest)) :
    Yields (operand (expression limit)) s e rest := by
  obtain ⟨rfl, hs⟩ := h.current_of_cons
  refine ends_operand (by simp [opens]) (by simp [opens]) (fun _ s₁ hs₁ => ?_)
    (fun _ fault _ hfault => absurd hfault (h.not_failed hs fault)) (by simp [opens])
    (by simp [opens])
  refine (hinner s₁ (h.tail hs₁)).mono ?_ fun _ _ => id
  rintro _ s₂ ⟨rfl, h₂⟩
  obtain ⟨rfl, hs₂⟩ := h₂.current_of_cons
  refine ends_expect (by simp) (fun _ s₃ hs₃ => ⟨fun hopen => ?_, fun hother => ?_⟩)
    (fun _ fault _ hfault => absurd hfault (h₂.not_failed hs₂ fault)) (by simp [closes])
  · obtain ⟨right, rfl, hright⟩ := (behind s₃ (h₂.tail hs₃)).1 hopen
    refine hright.mono ?_ fun _ _ => id
    rintro _ s₄ ⟨rfl, h₄⟩
    exact ⟨rfl, h₄⟩
  · obtain ⟨rfl, hrest⟩ := (behind s₃ (h₂.tail hs₃)).2 hother
    exact ⟨rfl, hrest⟩

/-- Where only operands are read, there is nothing but the operand, unless the limit is reached. -/
theorem yields_of_operand {e : Expr} {rest : List Token}
    (h : ∀ inner, Yields (operand (expression inner)) s e rest) :
    Yields (expression limit Precedence.power) s e rest := by
  cases limit with
  | zero => exact rfl
  | succ limit =>
    rw [expression_of_power_le (Int.le_refl _)]
    exact h limit

theorem reader_yields (limit : Nat) {rule : Rule} {rest : List Token} {e : Expr}
    (hr : Reads rule tokens e rest) (h : s.Lists tokens)
    (hle : ∀ layer left, rule = .repetition layer left →
      s.current.precedence ≤ layer.precedence) :
    Yields (reader limit rule) s e rest := by
  -- The loop of a layer would take what binds tighter; behind an operand nothing does.
  induction hr generalizing limit s with
  | @chain layer _ mid _ left e first more ihfirst ihmore =>
    cases limit with
    | zero => exact rfl
    | succ limit =>
      have hfirst := ihfirst (limit + 1) h (by cases layer <;> simp [Layer.operand])
      rw [reader_operand] at hfirst
      exact chain_yields hfirst fun s₁ h₁ hle₁ => ihmore limit h₁ (by simpa using hle₁)
  | stop ahead => exact fold_yields_of_stop h (hle _ _ rfl) ahead
  | @fold layer token op tokens mid rest left right e operator operand more ihoperand ihmore =>
    refine fold_yields h operator (fun s₁ h₁ => ?_) fun s₂ h₂ hle₂ =>
      ihmore limit h₂ (by simpa using hle₂)
    rw [← reader_operand]
    exact ihoperand limit h₁ (by cases layer <;> simp [Layer.operand])
  | negative minus operand ih =>
    refine yields_of_operand fun inner => yields_negative h minus fun s₁ h₁ => ?_
    rw [expression_congr_of_power_le (m := Precedence.power) (by decide) (by decide)]
    exact ih inner h₁ (by simp)
  | number literal => exact yields_of_operand fun inner => yields_number h literal
  | group brackets ih => exact ih limit h (by simp)
  | single opens inner closes ahead ih =>
    refine yields_of_operand fun limit => yields_bracket h opens
      (fun s₁ h₁ => ih limit h₁ (by simp)) closes fun s₃ h₃ => ⟨fun hopen => ?_, fun _ => ⟨rfl, h₃⟩⟩
    obtain ⟨rest, rfl, -⟩ := h₃.exists_cons (by simp [hopen])
    exact absurd hopen (ahead _ rfl)
  | implied opens inner closes ahead factor ihinner ihfactor =>
    refine yields_of_operand fun limit => yields_bracket h opens
      (fun s₁ h₁ => ihinner limit h₁ (by simp)) closes fun s₃ h₃ =>
        ⟨fun _ => ⟨_, rfl, ihfactor limit h₃ (by simp)⟩, fun hother => ?_⟩
    exact absurd (h₃.current_of_cons.1 ▸ ahead) hother

theorem expression_yields (limit : Nat) {rest : List Token} {e : Expr} (hn : 0 ≤ n)
    (h : s.Lists tokens) (hr : Reads (.tighterThan n) tokens e rest) :
    Yields (expression limit n) s e rest := by
  rw [← reader_tighterThan hn]
  refine reader_yields limit hr h fun layer left heq => ?_
  grind [Rule.tighterThan]

end Parsing

namespace Expr

variable {limit : Nat} {source : String} {e : Expr}

/-- The tokens of a source that has no faulty lexeme. -/
def Spells (source : String) (tokens : List Token) : Prop :=
  (Cursor.ofSource source).pullAll = tokens.map .token ++ [.exhausted]

theorem reads_of_parseWithin (h : parseWithin limit source = .ok e) :
    ∃ tokens, Spells source tokens ∧ Reads (.chain .sum) tokens e [] := by
  rcases parseWithin_cases limit source with ⟨s, hs, heq⟩ | ⟨-, heq⟩ | ⟨fault, hf, heq⟩
  · obtain ⟨s', hs'⟩ := Parsing.result_eq_ok.1 (heq.symm.trans h)
    obtain ⟨hexpr, heof⟩ := Parsing.expression_of_whole hs'
    obtain ⟨tokens, -, hreach⟩ := (Parsing.expression_reaches limit _ s).of_ok hexpr
    have hlists : s.Lists tokens := by
      rw [ParserState.Lists, hreach.ahead_eq, ParserState.ahead_of_eof heof]
    obtain ⟨rest, hrest, hr⟩ :=
      (Parsing.expression_sound limit (by decide) s tokens hlists).of_ok hexpr
    obtain rfl := hrest.eq_nil heof
    exact ⟨tokens, hs.ahead_eq.symm.trans hlists, hr⟩
  · simp [heq] at h
  · simp [heq] at h

theorem parseWithin_of_reads {tokens : List Token} (ht : Spells source tokens)
    (hr : Reads (.chain .sum) tokens e []) (hlimit : parseWithin limit source ≠ .error .tooDeep) :
    parseWithin limit source = .ok e := by
  rcases parseWithin_cases limit source with ⟨s, hs, heq⟩ | ⟨hnone, -⟩ | ⟨fault, hf, -⟩
  · have hlists : s.Lists tokens := hs.ahead_eq.trans ht
    have hwhole : Parsing.Ends (Parsing.whole limit) s (fun e' _ => e' = e)
        fun fault _ => fault = .tooDeep := by
      refine Parsing.ends_whole.2 ?_
      refine (Parsing.expression_yields (n := 0) limit (by decide) hlists hr).mono ?_ fun _ _ => id
      rintro _ s' ⟨rfl, h'⟩
      exact ⟨fun _ => rfl, fun hne => absurd h'.current_of_nil hne⟩
    rw [heq] at hlimit ⊢
    cases hw : Parsing.whole limit s with
    | ok e' s' => exact Parsing.result_eq_ok.2 ⟨s', by rw [hw, hwhole.of_ok hw]⟩
    | error fault s' =>
      exact absurd (Parsing.result_eq_error.2 ⟨s', by rw [hw, hwhole.of_error hw]⟩) hlimit
  · obtain ⟨token, rest, rfl⟩ := List.exists_cons_of_ne_nil (hr.tokens_ne_nil (by simp))
    simp [Spells, hnone] at ht
  · rw [Spells, hf] at ht
    cases tokens <;> simp at ht

end Expr

namespace Grammar

/-- Climbing reads the layers of the grammar.  A source is accepted as `e` exactly if it is free of
lexical faults and a sum reads all of its tokens as `e`.  From any state with no lexical fault ahead
the reader with a threshold finds what the layer of the threshold reads, nothing else, and leaves
the same tokens.  Both hold wherever the limit of nesting is not reached. -/
theorem climbing_reads_layers (limit : Nat) :
    (∀ source e, Expr.parseWithin limit source ≠ .error .tooDeep →
      (Expr.parseWithin limit source = .ok e ↔
        ∃ tokens, Expr.Spells source tokens ∧ Reads (.chain .sum) tokens e [])) ∧
    ∀ (s : ParserState) tokens n, s.Lists tokens → 0 ≤ n →
      (∀ s', Parsing.expression limit n s ≠ .error .tooDeep s') →
      (∀ e s', Parsing.expression limit n s = .ok e s' →
        ∃ rest, s'.Lists rest ∧ Reads (.tighterThan n) tokens e rest) ∧
      ∀ e rest, Reads (.tighterThan n) tokens e rest →
        ∃ s', Parsing.expression limit n s = .ok e s' ∧ s'.Lists rest := by
  refine ⟨fun source e hlimit => ⟨Expr.reads_of_parseWithin, ?_⟩, ?_⟩
  · rintro ⟨tokens, ht, hr⟩
    exact Expr.parseWithin_of_reads ht hr hlimit
  · intro s tokens n h hn hlimit
    refine ⟨fun e s' he => (Parsing.expression_sound limit hn s tokens h).of_ok he, ?_⟩
    intro e rest hr
    have hyields := Parsing.expression_yields limit hn h hr
    cases he : Parsing.expression limit n s with
    | ok e' s' =>
      obtain ⟨rfl, hrest⟩ := hyields.of_ok he
      exact ⟨s', rfl, hrest⟩
    | error fault s' =>
      obtain rfl := hyields.of_error he
      exact absurd he (hlimit s')

/-- The product implied behind `(3)` takes the power that begins there, whatever stands before, and
a product leaves a plus sign. -/
theorem climbing_reads_implied_power :
    (∃ tokens, Expr.Spells "2^(3)(4)^5" tokens ∧ Reads (.chain .sum) tokens
      (.binary .power (.leaf (.ofLiteral ['2'])) (.binary .multiply (.leaf (.ofLiteral ['3']))
        (.binary .power (.leaf (.ofLiteral ['4'])) (.leaf (.ofLiteral ['5']))))) []) ∧
    ∃ rest, Reads (.chain .product)
      [⟨.num, some .one, 0⟩, ⟨.multiply, none, 1⟩, ⟨.num, some (.ofLiteral ['4']), 2⟩,
        ⟨.add, none, 3⟩]
      (.binary .multiply (.leaf .one) (.leaf (.ofLiteral ['4']))) rest := by
  refine ⟨((climbing_reads_layers 20).1 _ _ ?_).1 (by decide +kernel), ?_⟩
  · exact Expr.parseWithin_ne_tooDeep (by decide)
  · let s : ParserState := ⟨4, ⟨.num, some .one, 0⟩, ⟨['*', '4', '+'], 1⟩⟩
    have hs : s.ahead.length ≤ 9 := by decide
    have hlayer := (climbing_reads_layers 9).2 s [⟨.num, some .one, 0⟩, ⟨.multiply, none, 1⟩,
      ⟨.num, some (.ofLiteral ['4']), 2⟩, ⟨.add, none, 3⟩] 1 (by unfold ParserState.Lists; rfl)
      (by decide) fun s' h => (Parsing.expression_ne_tooDeep hs).of_error h rfl
    obtain ⟨rest, -, hr⟩ := hlayer.1
      (.binary .multiply (.leaf .one) (.leaf (.ofLiteral ['4']))) ⟨4, ⟨.add, none, 3⟩, ⟨[], 4⟩⟩
      (by decide +kernel)
    exact ⟨rest, hr⟩

end Grammar

end InfixCalculator
