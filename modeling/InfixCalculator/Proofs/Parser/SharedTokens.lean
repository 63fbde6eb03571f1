import InfixCalculator.Proofs.Parser.Moments

/-!
# Readings that share tokens

At every moment a reading has seen nothing behind the token ahead.  So two readings whose sources
begin with the same tokens go through the same moments, as long as a shared token is ahead.
-/

namespace InfixCalculator

open Relation Parsing

namespace ParserState

variable {s s' : ParserState} {t : Token} {pulls pulls' : List Pull}

theorem current_of_ahead (h : s.ahead = .token t :: pulls) :
    s.current = t ∧ s.current.kind ≠ .eof ∧ s.cursor.pullAll = pulls := by
  by_cases heof : s.current.kind = .eof
  · simp [ahead_of_eof heof] at h
  · rw [ahead_of_ne_eof heof] at h
    obtain ⟨hcurrent, hpulls⟩ := List.cons.inj h
    exact ⟨Pull.token.inj hcurrent, heof, hpulls⟩

/-- Two states have the same tokens ahead, and behind them the given entries. -/
def Shares (pulls pulls' : List Pull) (s s' : ParserState) : Prop :=
  ∃ tokens : List Token, s.ahead = tokens.map .token ++ pulls ∧
    s'.ahead = tokens.map .token ++ pulls'

theorem Shares.exists_cons (h : Shares pulls pulls' s s') (hlen : pulls.length < s.ahead.length) :
    s.current = s'.current ∧ s.current.kind ≠ .eof ∧ ∃ tokens : List Token,
      s.cursor.pullAll = tokens.map .token ++ pulls ∧
        s'.cursor.pullAll = tokens.map .token ++ pulls' := by
  obtain ⟨tokens, hs, hs'⟩ := h
  cases tokens with
  | nil =>
    rw [hs] at hlen
    exact absurd hlen (Nat.lt_irrefl _)
  | cons t tokens =>
    obtain ⟨rfl, heof, hpulls⟩ := current_of_ahead hs
    obtain ⟨hcurrent, -, hpulls'⟩ := current_of_ahead hs'
    exact ⟨hcurrent.symm, heof, tokens, hpulls, hpulls'⟩

end ParserState

open ParserState

namespace Moment

variable {m m' : Moment} {s s' : ParserState} {limit : Nat} {pulls pulls' : List Pull}

theorem length_ahead_le (h : Next m m') : m'.state.ahead.length ≤ m.state.ahead.length := by
  cases h with
  | @read c c' s s' act advanced =>
    have hs := CallStack.ne_eof_of_read act
    have hlen := (precedes_of_read act advanced).length_ahead hs
    exact Nat.le_of_lt (hlen ▸ Nat.lt_succ_self s'.ahead.length)
  | turn act => exact Nat.le_refl _

theorem exists_advance (hs : s.current.kind ≠ .eof)
    (hpulls : ∀ fault, s.cursor.pullAll ≠ [.failed fault]) :
    ∃ s', advance s = .ok () s' ∧ s'.ahead = s.cursor.pullAll := by
  cases hadvance : advance s with
  | ok a s' => exact ⟨s', rfl, ((advance_ends hs).of_ok hadvance).ahead_eq⟩
  | error fault s' => exact absurd ((advance_ends hs).of_error hadvance) (hpulls fault)

theorem exists_advance_error {fault : Fault} (hs : s.current.kind ≠ .eof)
    (hpulls : s.cursor.pullAll = [.failed fault]) : ∃ s', advance s = .error fault s' := by
  cases hadvance : advance s with
  | ok a s' =>
    have hahead := ((advance_ends hs).of_ok hadvance).ahead_eq.trans hpulls
    unfold ahead at hahead
    split at hahead <;> simp at hahead
  | error fault' s' =>
    have hfault := ((advance_ends hs).of_error hadvance).symm.trans hpulls
    obtain rfl : fault' = fault := by simpa using hfault
    exact ⟨s', rfl⟩

theorem next_of_shares (h : Next m m') (hshares : Shares pulls pulls' m.state s')
    (hlen : pulls.length < m'.state.ahead.length) :
    ∃ s₁', Next ⟨m.calls, s'⟩ ⟨m'.calls, s₁'⟩ ∧ Shares pulls pulls' m'.state s₁' := by
  have hlonger := Nat.lt_of_lt_of_le hlen (length_ahead_le h)
  obtain ⟨hcurrent, heof, tokens, htokens, htokens'⟩ := hshares.exists_cons hlonger
  cases h with
  | turn act => exact ⟨s', .turn (hcurrent ▸ act), hshares⟩
  | @read c c' s s₁ act advanced =>
    have hahead := (precedes_of_read act advanced).ahead_eq.trans htokens
    have hsome : ∀ fault, s'.cursor.pullAll ≠ [.failed fault] := by
      rw [htokens']
      cases tokens with
      | nil =>
        rw [hahead] at hlen
        exact absurd hlen (Nat.lt_irrefl _)
      | cons t tokens => simp
    obtain ⟨s₁', hadvanced, hahead'⟩ := exists_advance (hcurrent ▸ heof) hsome
    exact ⟨s₁', .read (hcurrent ▸ act) hadvanced, tokens, hahead, hahead'.trans htokens'⟩

/-- Readings of sources that share tokens go through the same moments. -/
theorem leads_of_shares (h : ReflTransGen (NextWithin limit) (first s) m)
    (hshares : Shares pulls pulls' s s') (hlen : pulls.length < m.state.ahead.length) :
    ∃ s₁', ReflTransGen (NextWithin limit) (first s') ⟨m.calls, s₁'⟩ ∧
      Shares pulls pulls' m.state s₁' := by
  induction h with
  | refl => exact ⟨s', .refl, hshares⟩
  | tail _ hnext ih =>
    obtain ⟨s₁', hs₁', hshares₁⟩ := ih (Nat.lt_of_lt_of_le hlen (length_ahead_le hnext.1))
    obtain ⟨s₂', hs₂', hshares₂⟩ := next_of_shares hnext.1 hshares₁ hlen
    exact ⟨s₂', hs₁'.tail ⟨hs₂', hnext.2⟩, hshares₂⟩

theorem exists_tokens (h : ReflTransGen Next (first s) m) :
    ∃ tokens : List Token, s.ahead = tokens.map .token ++ m.state.ahead := by
  induction h with
  | refl => exact ⟨[], rfl⟩
  | tail _ hnext ih =>
    obtain ⟨tokens, htokens⟩ := ih
    cases hnext with
    | turn => exact ⟨tokens, htokens⟩
    | @read c c' s₁ s₂ act advanced =>
      have heof := CallStack.ne_eof_of_read act
      have hahead := (precedes_of_read act advanced).ahead_eq
      exact ⟨tokens ++ [s₁.current], by rw [htokens, ahead_of_ne_eof heof, hahead]; simp⟩

/-! ## Sources that share tokens -/

variable {source source' : String}

theorem exists_pullAll (hs : ofSource source = .ok s) (h : ReflTransGen Next (first s) m)
    (heof : m.state.current.kind ≠ .eof) :
    ∃ tokens : List Token, (Cursor.ofSource source).pullAll =
      tokens.map .token ++ .token m.state.current :: m.state.cursor.pullAll := by
  obtain ⟨tokens, htokens⟩ := exists_tokens h
  rw [ahead_of_ne_eof heof, (starts_of_ofSource hs).ahead_eq] at htokens
  exact ⟨tokens, htokens⟩

/-- A source with the same tokens up to the one that is ahead at a moment has this moment too. -/
theorem leads_of_pullAll {tokens : List Token} (hs : ofSource source = .ok s)
    (h : ReflTransGen (NextWithin limit) (first s) m)
    (hpulls : (Cursor.ofSource source).pullAll =
      tokens.map .token ++ .token m.state.current :: m.state.cursor.pullAll)
    (hpulls' : (Cursor.ofSource source').pullAll =
      tokens.map .token ++ .token m.state.current :: pulls')
    (heof : m.state.current.kind ≠ .eof) :
    ∃ s' s₁', ofSource source' = .ok s' ∧
      ReflTransGen (NextWithin limit) (first s') ⟨m.calls, s₁'⟩ ∧
      s₁'.current = m.state.current ∧ s₁'.cursor.pullAll = pulls' := by
  obtain ⟨s', hs'⟩ : ∃ s', ofSource source' = .ok s' := by
    cases tokens with
    | nil => exact exists_ofSource hpulls'
    | cons t tokens => exact exists_ofSource hpulls'
  have hahead := ahead_of_ne_eof heof
  have hshares : Shares m.state.cursor.pullAll pulls' s s' := by
    refine ⟨tokens ++ [m.state.current], ?_, ?_⟩
    · simpa [(starts_of_ofSource hs).ahead_eq] using hpulls
    · simpa [(starts_of_ofSource hs').ahead_eq] using hpulls'
  obtain ⟨s₁', hs₁', tokens₁, htokens₁, htokens₁'⟩ :=
    leads_of_shares h hshares (by simp [hahead])
  rw [hahead, ← List.singleton_append] at htokens₁
  rw [← List.append_cancel_right htokens₁] at htokens₁'
  obtain ⟨hcurrent, -, hcursor⟩ := current_of_ahead htokens₁'
  exact ⟨s', s₁', hs', hs₁', hcurrent, hcursor⟩

end Moment

end InfixCalculator
