import InfixCalculator.Proofs.Parser.Outcome

/-!
# What lies ahead

The rest of a source, as a parser sees it, is the list of the results of all further pulls: tokens,
and at the end exhaustion or a fault.  `ParserState.ahead` is this list with the token ahead in
front.  Moving on drops the first entry, and this is all that a step can do to the list.
-/

namespace InfixCalculator

namespace Cursor

theorem throughEnd_pulls_congr {cursor : Cursor} {n m : Nat} (hn : cursor.rest.length < n)
    (hm : cursor.rest.length < m) :
    pullAll.throughEnd (cursor.pulls n) = pullAll.throughEnd (cursor.pulls m) := by
  induction n generalizing cursor m with
  | zero => omega
  | succ n ih =>
    obtain ⟨m, rfl⟩ : ∃ k, m = k + 1 := ⟨m - 1, by omega⟩
    rcases hp : cursor.pull with ⟨result, next⟩
    simp only [pulls, hp]
    cases result with
    | token t =>
      have hlt := length_lt_of_pullFrom hp
      simp only [pullAll.throughEnd]
      rw [ih (by omega) (by omega : next.rest.length < m)]
    | exhausted => rfl
    | failed fault => rfl

theorem pullAll_eq (cursor : Cursor) :
    cursor.pullAll = match cursor.pull with
      | (.token t, next) => .token t :: next.pullAll
      | (result, _) => [result] := by
  rcases hp : cursor.pull with ⟨result, next⟩
  change pullAll.throughEnd (cursor.pulls (cursor.rest.length + 1)) = _
  simp only [pulls, hp]
  cases result with
  | token t =>
    have hlt := length_lt_of_pullFrom hp
    simp only [pullAll.throughEnd]
    exact congrArg _ (throughEnd_pulls_congr hlt (Nat.lt_succ_self _))
  | exhausted => rfl
  | failed fault => rfl

theorem pullAll_of_token {cursor next : Cursor} {t : Token} (h : cursor.pull = (.token t, next)) :
    cursor.pullAll = .token t :: next.pullAll := by rw [pullAll_eq, h]

theorem pullAll_of_exhausted {cursor next : Cursor} (h : cursor.pull = (.exhausted, next)) :
    cursor.pullAll = [.exhausted] := by rw [pullAll_eq, h]

theorem pullAll_of_failed {cursor next : Cursor} {fault : Fault}
    (h : cursor.pull = (.failed fault, next)) : cursor.pullAll = [.failed fault] := by
  rw [pullAll_eq, h]

theorem length_pullAll_le (cursor : Cursor) : cursor.pullAll.length ≤ cursor.rest.length + 1 := by
  generalize hn : cursor.rest.length = n
  induction n using Nat.strongRecOn generalizing cursor with
  | ind n ih =>
    rw [pullAll_eq]
    split
    · next t next hp =>
      have hlt := length_lt_of_pullFrom hp
      have hle := ih next.rest.length (by omega) next rfl
      simp only [List.length_cons]
      omega
    · simp

theorem kind_ne_eof_of_pullFrom {text : List Char} {position : Nat} {token : Token} {next : Cursor}
    (h : pullFrom text position = (.token token, next)) : token.kind ≠ .eof := by
  fun_induction pullFrom text position with
  | case1 => simp at h
  | case2 c rest position _ ih => exact ih h
  | case3 c rest position _ kind hkind =>
    obtain ⟨rfl, -⟩ := by simpa using h
    rintro rfl
    unfold TokenKind.ofChar? at hkind
    split at hkind <;> simp at hkind
  | case4 c rest position _ _ _ =>
    simp only [pullNumber] at h
    split at h
    · simp at h
    · obtain ⟨rfl, -⟩ := by simpa using h
      simp
  | case5 => simp at h

end Cursor

namespace ParserState

variable {s s' : ParserState}

/-- The results of all further pulls, with the token ahead in front of them. -/
def ahead (s : ParserState) : List Pull :=
  if s.current.kind = .eof then [.exhausted] else .token s.current :: s.cursor.pullAll

theorem ahead_of_eof (h : s.current.kind = .eof) : s.ahead = [.exhausted] := if_pos h

theorem ahead_of_ne_eof (h : s.current.kind ≠ .eof) :
    s.ahead = .token s.current :: s.cursor.pullAll := if_neg h

theorem length_ahead_pos (s : ParserState) : 0 < s.ahead.length := by
  unfold ahead
  split <;> simp

theorem length_ahead_le (s : ParserState) : s.ahead.length ≤ s.cursor.rest.length + 2 := by
  unfold ahead
  split
  · simp
  · exact Nat.succ_le_succ s.cursor.length_pullAll_le

/-- The state `s'` is reached from `s` by moving on once. -/
structure Precedes (s s' : ParserState) : Prop where
  length_eq : s'.length = s.length
  ahead_eq : s'.ahead = s.cursor.pullAll
  current_eq : s'.current.kind = .eof → s'.current = ⟨.eof, none, s.length⟩

/-- If the end of the source is ahead then it stands at the length of the source. -/
def Placed (s : ParserState) : Prop :=
  s.current.kind = .eof → s.current = ⟨.eof, none, s.length⟩

theorem Precedes.placed (h : s.Precedes s') : s'.Placed := fun heof => by
  rw [h.current_eq heof, h.length_eq]

theorem Precedes.length_ahead (h : s.Precedes s') (hs : s.current.kind ≠ .eof) :
    s.ahead.length = s'.ahead.length + 1 := by
  rw [ahead_of_ne_eof hs, List.length_cons, h.ahead_eq]

/-- The state `s'` is reached from `s` by moving on over the given tokens. -/
inductive Reaches : ParserState → List Token → ParserState → Prop
  | refl (s : ParserState) : Reaches s [] s
  | step {s s₁ s' : ParserState} {tokens : List Token} (hs : s.current.kind ≠ .eof)
      (h : s.Precedes s₁) (more : Reaches s₁ tokens s') : Reaches s (s.current :: tokens) s'

namespace Reaches

variable {s₁ : ParserState} {tokens tokens' : List Token}

theorem trans (h : s.Reaches tokens s₁) (h' : s₁.Reaches tokens' s') :
    s.Reaches (tokens ++ tokens') s' := by
  induction h with
  | refl => exact h'
  | step hs hp _ ih => exact .step hs hp (ih h')

theorem ahead_eq (h : s.Reaches tokens s') : s.ahead = tokens.map .token ++ s'.ahead := by
  induction h with
  | refl => rfl
  | step hs hp _ ih =>
    rw [ahead_of_ne_eof hs, ← hp.ahead_eq, ih, List.map_cons, List.cons_append]

end Reaches

end ParserState

namespace Parsing

variable {s : ParserState} {ok : Unit → ParserState → Prop} {bad : Fault → ParserState → Prop}

theorem ends_advance (hs : s.current.kind ≠ .eof) (hok : ∀ s', s.Precedes s' → ok () s')
    (hbad : ∀ fault s', s.cursor.pullAll = [.failed fault] → bad fault s') :
    Ends advance s ok bad := by
  unfold Ends advance
  rw [if_neg hs]
  rcases hp : s.cursor.pull with ⟨result, next⟩
  cases result with
  | token t =>
    have ht : t.kind ≠ .eof := Cursor.kind_ne_eof_of_pullFrom hp
    refine hok _ ⟨rfl, ?_, fun h => absurd h ht⟩
    rw [ParserState.ahead_of_ne_eof ht, Cursor.pullAll_of_token hp]
  | exhausted =>
    refine hok _ ⟨rfl, ?_, fun _ => rfl⟩
    rw [ParserState.ahead_of_eof rfl, Cursor.pullAll_of_exhausted hp]
  | failed fault => exact hbad fault _ (Cursor.pullAll_of_failed hp)

end Parsing

end InfixCalculator
