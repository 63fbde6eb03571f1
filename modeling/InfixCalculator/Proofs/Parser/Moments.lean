import Mathlib.Logic.Relation
import InfixCalculator.Proofs.Parser.CallStack
import InfixCalculator.Proofs.Parser.Source

/-!
# Moments of a reading

The reading of a source is a sequence of moments, from the first one, at which a single call is
live, to the one at which the reading ends.  The moments do not depend on the limit of nesting: a
limit only stops the reading before the first moment with more live calls than it allows.
-/

namespace InfixCalculator

open Relation Parsing

/-- The live calls at one moment, and the state of the parser. -/
structure Moment where
  calls : CallStack
  state : ParserState
  deriving DecidableEq, Repr

namespace Moment

def first (s : ParserState) : Moment := ⟨.start, s⟩

def liveCalls (m : Moment) : Nat := m.calls.liveCalls

def openLevels (m : Moment) : Nat := m.calls.openLevels

/-- One moment comes right after another. -/
inductive Next : Moment → Moment → Prop
  | read {c c' : CallStack} {s s' : ParserState} (act : c.act s.current = .read c')
      (advanced : advance s = .ok () s') : Next ⟨c, s⟩ ⟨c', s'⟩
  | turn {c c' : CallStack} {s : ParserState} (act : c.act s.current = .turn c') :
      Next ⟨c, s⟩ ⟨c', s⟩

def NextWithin (limit : Nat) (m m' : Moment) : Prop := Next m m' ∧ m'.liveCalls ≤ limit

/-- The reading ends at a moment with a result: it finishes, or the token ahead is refused, or no
token can be taken behind it. -/
inductive EndsWith : Moment → Except Fault Expr → Prop
  | finish {c : CallStack} {s : ParserState} {e : Expr} (act : c.act s.current = .finish e) :
      EndsWith ⟨c, s⟩ (.ok e)
  | refuse {c : CallStack} {s : ParserState} {cause : FaultCause}
      (act : c.act s.current = .refuse cause) :
      EndsWith ⟨c, s⟩ (.error ⟨cause, some s.current.position⟩)
  | lexical {c c' : CallStack} {s s' : ParserState} {fault : Fault}
      (act : c.act s.current = .read c') (failed : advance s = .error fault s') :
      EndsWith ⟨c, s⟩ (.error fault)

variable {m m' : Moment} {s s' : ParserState} {limit : Nat} {r : Except Fault Expr}

theorem outcome_next (h : Next m m') (hm : m.liveCalls ≤ limit) :
    m.calls.outcome limit m.state = m'.calls.outcome limit m'.state := by
  cases h with
  | read act advanced =>
    rw [CallStack.outcome_act hm, act, ReadingAction.outcome]
    simp only [bind, EStateM.bind, advanced]
  | turn act => rw [CallStack.outcome_act hm, act, ReadingAction.outcome]

theorem operand_of_liveCalls_lt (h : Next m m') (hlt : m.liveCalls < m'.liveCalls) :
    m'.calls.stage = .operand ∧ m'.liveCalls = m.liveCalls + 1 := by
  have hact {c c' : CallStack} {t : Token} (hc : c.act t = .read c' ∨ c.act t = .turn c')
      (hlt : c.liveCalls < c'.liveCalls) :
      c'.stage = .operand ∧ c'.liveCalls = c.liveCalls + 1 := by
    unfold CallStack.act CallStack.returned at hc
    grind [CallStack.liveCalls]
  cases h with
  | read act advanced => exact hact (.inl act) hlt
  | turn act => exact hact (.inr act) hlt

theorem liveCalls_le_of_next (h : Next m m') : m'.liveCalls ≤ m.liveCalls + 1 := by
  by_cases hlt : m.liveCalls < m'.liveCalls
  · exact Nat.le_of_eq (operand_of_liveCalls_lt h hlt).2
  · exact Nat.le_succ_of_le (Nat.le_of_not_lt hlt)

theorem leads_of_le {limit' : Nat} (hle : limit ≤ limit')
    (h : ReflTransGen (NextWithin limit) m m') : ReflTransGen (NextWithin limit') m m' :=
  ReflTransGen.mono (fun _ _ h => ⟨h.1, Nat.le_trans h.2 hle⟩) _ _ h

theorem leads_of_within (h : ReflTransGen (NextWithin limit) m m') : ReflTransGen Next m m' :=
  ReflTransGen.mono (fun _ _ h => h.1) _ _ h

/-- The calls of the first moment that the limit does not allow are too deep, whatever is ahead. -/
theorem outcome_of_next_of_lt (h : Next m m') (hm : m.liveCalls ≤ limit)
    (hm' : limit < m'.liveCalls) (s : ParserState) :
    m'.calls.outcome limit s = .error .tooDeep s := by
  obtain ⟨hstage, -⟩ := operand_of_liveCalls_lt h (by omega)
  obtain ⟨⟨n, stage, callers⟩, s'⟩ := m'
  obtain rfl : stage = .operand := hstage
  exact CallStack.outcome_of_le (Nat.le_of_lt_succ hm')

theorem outcome_eq_tooDeep (h : Next m m') (hm : m.liveCalls ≤ limit) (hm' : limit < m'.liveCalls) :
    m.calls.outcome limit m.state = .error .tooDeep m'.state :=
  (outcome_next h hm).trans (outcome_of_next_of_lt h hm hm' m'.state)

theorem result_outcome (h : m.EndsWith r) (hm : m.liveCalls ≤ limit) :
    result (m.calls.outcome limit) m.state = r := by
  cases h with
  | finish act =>
    rw [result, CallStack.outcome_act hm, act]
    rfl
  | refuse act =>
    rw [result, CallStack.outcome_act hm, act]
    rfl
  | lexical act failed =>
    rw [result, CallStack.outcome_act hm, act, ReadingAction.outcome]
    simp only [bind, EStateM.bind, failed]

theorem advance_ends (hs : s.current.kind ≠ .eof) :
    Ends advance s (fun _ s' => s.Precedes s') fun fault _ => s.cursor.pullAll = [.failed fault] :=
  ends_advance hs (fun _ => id) fun _ _ => id

theorem precedes_of_read {c c' : CallStack} (act : c.act s.current = .read c')
    (advanced : advance s = .ok () s') : s.Precedes s' :=
  (advance_ends (CallStack.ne_eof_of_read act)).of_ok advanced

theorem placed (h : ReflTransGen Next (first s) m) (hs : s.Placed) :
    m.state.Placed ∧ m.state.length = s.length := by
  induction h with
  | refl => exact ⟨hs, rfl⟩
  | tail _ hnext ih =>
    cases hnext with
    | turn => exact ih
    | read act advanced =>
      have hprecedes := precedes_of_read act advanced
      exact ⟨hprecedes.placed, hprecedes.length_eq.trans ih.2⟩

theorem next_or_endsWith (m : Moment) : (∃ m', Next m m') ∨ ∃ r, m.EndsWith r := by
  obtain ⟨c, s⟩ := m
  cases hact : c.act s.current with
  | read c' =>
    cases hadvance : advance s with
    | ok a s' => exact .inl ⟨_, .read hact hadvance⟩
    | error fault s' => exact .inr ⟨_, .lexical hact hadvance⟩
  | turn c' => exact .inl ⟨_, .turn hact⟩
  | finish e => exact .inr ⟨_, .finish hact⟩
  | refuse cause => exact .inr ⟨_, .refuse hact⟩

/-- What is left to do at a moment: a token counts twice, since taking it makes a call at most, and
behind a bracket a call may be made before the next token. -/
def remaining (m : Moment) : Nat :=
  2 * m.state.ahead.length + m.liveCalls +
    match m.calls.stage with
    | .behindBracket _ => 2
    | _ => 0

theorem remaining_lt (h : Next m m') : m'.remaining < m.remaining := by
  cases h with
  | read act advanced =>
    have hs := CallStack.ne_eof_of_read act
    have hlen := (precedes_of_read act advanced).length_ahead hs
    unfold CallStack.act CallStack.returned at act
    grind [remaining, liveCalls, CallStack.liveCalls]
  | turn act =>
    unfold CallStack.act CallStack.returned at act
    grind [remaining, liveCalls, CallStack.liveCalls]

/-- From a moment that the limit allows the reading goes on to its end, or to a moment that the
limit does not allow. -/
theorem runs (limit : Nat) (m : Moment) :
    ∃ m₁, ReflTransGen (NextWithin limit) m m₁ ∧
      ((∃ r, m₁.EndsWith r) ∨ ∃ m₂, Next m₁ m₂ ∧ limit < m₂.liveCalls) := by
  -- A call is made before a token is taken, so the tokens ahead alone do not decrease.
  generalize hk : m.remaining = k
  induction k using Nat.strongRecOn generalizing m with
  | ind k ih =>
    rcases m.next_or_endsWith with ⟨m', h⟩ | hends
    · by_cases hlive : m'.liveCalls ≤ limit
      · obtain ⟨m₁, hm₁, hend⟩ := ih _ (hk ▸ remaining_lt h) m' rfl
        exact ⟨m₁, .head ⟨h, hlive⟩ hm₁, hend⟩
      · exact ⟨m, .refl, .inr ⟨m', h, Nat.lt_of_not_le hlive⟩⟩
    · exact ⟨m, .refl, .inl hends⟩

theorem outcome_of_leads (hm : m.liveCalls ≤ limit) (h : ReflTransGen (NextWithin limit) m m') :
    m'.liveCalls ≤ limit ∧
      m.calls.outcome limit m.state = m'.calls.outcome limit m'.state := by
  induction h with
  | refl => exact ⟨hm, rfl⟩
  | tail _ hnext ih => exact ⟨hnext.2, ih.2.trans (outcome_next hnext.1 ih.1)⟩

theorem ne_tooDeep_of_endsWith (h : m.EndsWith r) : r ≠ .error .tooDeep := by
  cases h with
  | finish => simp
  | refuse => simp [Fault.tooDeep]
  | lexical act failed =>
    have hfault := (advance_ends (CallStack.ne_eof_of_read act)).of_error failed
    simpa using Cursor.ne_tooDeep_of_pullAll hfault

end Moment

namespace Parsing

open Moment

variable {limit : Nat} {s s' : ParserState} {m : Moment} {r : Except Fault Expr}

theorem result_whole (hlimit : 0 < limit) (h : ReflTransGen (NextWithin limit) (first s) m)
    (hend : m.EndsWith r) : result (whole limit) s = r := by
  obtain ⟨hm, heq⟩ := outcome_of_leads (m := first s) hlimit h
  rw [← result_outcome hend hm, result, result, ← heq, CallStack.whole_eq_outcome]
  rfl

theorem whole_eq_tooDeep (hlimit : 0 < limit) (h : ReflTransGen (NextWithin limit) (first s) m)
    {m' : Moment} (hnext : Next m m') (hlive : limit < m'.liveCalls) :
    whole limit s = .error .tooDeep m'.state := by
  obtain ⟨hm, heq⟩ := outcome_of_leads (m := first s) hlimit h
  exact heq.trans (outcome_eq_tooDeep hnext hm hlive)

theorem whole_zero (s : ParserState) : whole 0 s = .error .tooDeep s := rfl

/-- The parser is too deep exactly if more calls than the limit allows are live at some moment. -/
theorem result_whole_eq_tooDeep_iff :
    result (whole limit) s = .error .tooDeep ↔
      ∃ m, ReflTransGen Next (first s) m ∧ limit < m.liveCalls := by
  rcases Nat.eq_zero_or_pos limit with rfl | hlimit
  · exact ⟨fun _ => ⟨first s, .refl, Nat.succ_pos 0⟩, fun _ => rfl⟩
  constructor
  · intro hdeep
    obtain ⟨m₁, hm₁, ⟨r, hend⟩ | ⟨m₂, hnext, hlive⟩⟩ := runs limit (first s)
    · exact absurd ((result_whole hlimit hm₁ hend).symm.trans hdeep) (ne_tooDeep_of_endsWith hend)
    · exact ⟨m₂, (leads_of_within hm₁).tail hnext, hlive⟩
  · rintro ⟨m, hm, hlive⟩
    have hwithin : ReflTransGen (NextWithin limit) (first s) m ∨
        result (whole limit) s = .error .tooDeep := by
      clear hlive
      induction hm with
      | refl => exact .inl .refl
      | @tail m₁ m₂ _ hnext ih =>
        rcases ih with ih | ih
        · by_cases hm₂ : m₂.liveCalls ≤ limit
          · exact .inl (ih.tail ⟨hnext, hm₂⟩)
          · have hwhole := whole_eq_tooDeep hlimit ih hnext (Nat.lt_of_not_le hm₂)
            exact .inr (result_eq_error.2 ⟨_, hwhole⟩)
        · exact .inr ih
    rcases hwithin with hwithin | hdeep
    · exact absurd (outcome_of_leads (m := first s) hlimit hwithin).1 (Nat.not_le.2 hlive)
    · exact hdeep

theorem leads_of_outcome (hm : m.liveCalls ≤ limit)
    (h : result (m.calls.outcome limit) m.state = r) (hr : r ≠ .error .tooDeep) :
    ∃ m', ReflTransGen (NextWithin limit) m m' ∧ m'.EndsWith r := by
  obtain ⟨m₁, hm₁, ⟨r', hend⟩ | ⟨m₂, hnext, hlive⟩⟩ := runs limit m
  all_goals
    obtain ⟨hlive₁, heq⟩ := outcome_of_leads hm hm₁
    rw [result, heq] at h
  · have hresult : r' = r := (result_outcome hend hlive₁).symm.trans h
    exact ⟨m₁, hm₁, hresult ▸ hend⟩
  · rw [outcome_eq_tooDeep hnext hlive₁ hlive] at h
    exact absurd h.symm hr

theorem leads_of_result (h : result (whole limit) s = r) (hr : r ≠ .error .tooDeep) :
    0 < limit ∧ ∃ m, ReflTransGen (NextWithin limit) (first s) m ∧ m.EndsWith r := by
  rcases Nat.eq_zero_or_pos limit with rfl | hlimit
  · exact absurd h.symm hr
  · have hstart : (first s).liveCalls ≤ limit := hlimit
    exact ⟨hlimit, leads_of_outcome hstart h hr⟩

theorem exists_moment_of_tooDeep (h : whole limit s = .error .tooDeep s') :
    ∃ m, ReflTransGen (NextWithin (limit + 1)) (first s) m ∧ limit < m.liveCalls ∧
      m.state = s' := by
  rcases Nat.eq_zero_or_pos limit with rfl | hlimit
  · rw [whole_zero] at h
    cases h
    exact ⟨first s, .refl, Nat.succ_pos 0, rfl⟩
  obtain ⟨m₁, hm₁, ⟨r, hend⟩ | ⟨m₂, hnext, hlive⟩⟩ := runs limit (first s)
  · have hresult := result_whole hlimit hm₁ hend
    exact absurd (hresult.symm.trans (result_eq_error.2 ⟨s', h⟩)) (ne_tooDeep_of_endsWith hend)
  · have hlive₁ := (outcome_of_leads (m := first s) hlimit hm₁).1
    have hlive₂ := Nat.le_trans (liveCalls_le_of_next hnext) (Nat.succ_le_succ hlive₁)
    rw [whole_eq_tooDeep hlimit hm₁ hnext hlive] at h
    cases h
    exact ⟨m₂, (leads_of_le limit.le_succ hm₁).tail ⟨hnext, hlive₂⟩, hlive, rfl⟩

end Parsing

end InfixCalculator
