import InfixCalculator.Parser.Expression

/-!
# Outcomes of parsing steps

`Parsing.Ends` says how a step ends from a given state: with a result, or with a fault, and in
which state.  The statements below take composed steps apart, so that a property of a reading rule
follows from properties of the steps it is composed of.  Outcomes can be compared, so that readings
of given tokens are computed.
-/

namespace InfixCalculator

instance Parsing.decidableEqResult {ε σ α : Type} [DecidableEq ε] [DecidableEq σ] [DecidableEq α] :
    DecidableEq (EStateM.Result ε σ α)
  | .ok a s, .ok b t => decidable_of_iff (a = b ∧ s = t) (by simp)
  | .error e s, .error f t => decidable_of_iff (e = f ∧ s = t) (by simp)
  | .ok _ _, .error _ _ => isFalse nofun
  | .error _ _, .ok _ _ => isFalse nofun

/-- The fault of a source in which more levels are open at once than the parser allows. -/
def Fault.tooDeep : Fault := ⟨.nestedTooDeeply, none⟩

namespace Parsing

variable {α β : Type} {s s' : ParserState} {ok ok' : α → ParserState → Prop}
  {bad bad' : Fault → ParserState → Prop}

/-- From `s` the step ends with a result and a state that satisfy `ok`, or with a fault and a state
that satisfy `bad`. -/
def Ends (step : Parsing α) (s : ParserState) (ok : α → ParserState → Prop)
    (bad : Fault → ParserState → Prop) : Prop :=
  match step s with
  | .ok a s' => ok a s'
  | .error fault s' => bad fault s'

theorem ends_of_eq_ok {step : Parsing α} {a : α} (hs : step s = .ok a s') (h : ok a s') :
    Ends step s ok bad := by
  simpa only [Ends, hs] using h

theorem Ends.of_ok {step : Parsing α} {a : α} (h : Ends step s ok bad) (hs : step s = .ok a s') :
    ok a s' := by
  simpa only [Ends, hs] using h

theorem Ends.of_error {step : Parsing α} {fault : Fault} (h : Ends step s ok bad)
    (hs : step s = .error fault s') : bad fault s' := by
  simpa only [Ends, hs] using h

theorem Ends.mono {step : Parsing α} (h : Ends step s ok bad) (hok : ∀ a s', ok a s' → ok' a s')
    (hbad : ∀ fault s', bad fault s' → bad' fault s') : Ends step s ok' bad' := by
  unfold Ends at *
  cases hs : step s with
  | ok a s' => exact hok a s' (by simpa only [hs] using h)
  | error fault s' => exact hbad fault s' (by simpa only [hs] using h)

@[simp] theorem ends_pure (a : α) : Ends (pure a) s ok bad ↔ ok a s := Iff.rfl

@[simp] theorem ends_bind (step : Parsing β) (next : β → Parsing α) :
    Ends (step >>= next) s ok bad ↔ Ends step s (fun b s' => Ends (next b) s' ok bad) bad := by
  unfold Ends
  simp only [bind, EStateM.bind]
  cases step s <;> rfl

@[simp] theorem ends_current {ok : Token → ParserState → Prop} :
    Ends current s ok bad ↔ ok s.current s := Iff.rfl

@[simp] theorem ends_fail (cause : FaultCause) :
    Ends (fail cause : Parsing α) s ok bad ↔ bad ⟨cause, some s.current.position⟩ s := Iff.rfl

end Parsing

end InfixCalculator
