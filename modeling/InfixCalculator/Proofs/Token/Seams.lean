import InfixCalculator.Proofs.Token.Tiling
import InfixCalculator.Proofs.Parser.Relocation

/-!
# Tokens over a seam

Where a text stands matters only for the positions of its tokens.  So the tokens of two texts, one
behind the other, are those of the first text and those of the second one, moved by the length of
the first.  There is one exception: a number with which the first text ends takes all the digits and
points with which the second one begins.  Then there is one number instead, or one malformed
literal, and nothing before it is changed.
-/

namespace InfixCalculator

open Tile

/-- The faults that pulls meet name no token, so moving them changes their columns only. -/
theorem Fault.relocate_of_stopsAt {column : Nat} {rest : List Char} {fault : Fault}
    (f : Nat → Nat) (h : StopsAt column rest (.failed fault)) :
    fault.column = some column ∧ fault.relocate f = { fault with column := some (f column) } := by
  cases h <;> exact ⟨rfl, rfl⟩

theorem Tile.IsRun.alone {run rest : List Char} (h : IsRun run rest) : IsRun run [] :=
  ⟨h.first, h.all, by simp⟩

theorem Tile.IsRun.append_takeWhile {run : List Char} (h : IsRun run []) (more : List Char) :
    IsRun (run ++ more.takeWhile Cursor.continuesNumber)
      (more.dropWhile Cursor.continuesNumber) := by
  obtain ⟨c, hc, hdigit⟩ := h.first
  obtain ⟨tail, rfl⟩ := List.head?_eq_some_iff.1 hc
  have hall : ∀ c' ∈ tail, Cursor.continuesNumber c' = true := fun c' hc' =>
    continuesNumber_iff.2 (h.all c' (List.mem_cons_of_mem c hc'))
  have hrun := isRun_of_isDigit hdigit (tail ++ more)
  rwa [List.takeWhile_append_of_pos hall, List.dropWhile_append_of_pos hall,
    ← List.cons_append] at hrun

namespace Cursor

variable {text more : List Char} {position : Nat} {tokens : List Token}

theorem pullAll_add (text : List Char) (position n : Nat) :
    pullAll ⟨text, position + n⟩ = (pullAll ⟨text, position⟩).map (Pull.relocate (· + n)) := by
  induction text using lexeme_induction generalizing position with
  | nil => rfl
  | skipped c text hskip ih =>
    rw [pullAll_of_skipped hskip, pullAll_of_skipped hskip, ← ih, Nat.add_right_comm]
  | symbol c kind text hkind ih =>
    rw [pullAll_of_symbol hkind, pullAll_of_symbol hkind, List.map_cons, ← ih, Nat.add_right_comm]
    rfl
  | digit c text hdigit ih =>
    by_cases hpoints : (c :: text.takeWhile continuesNumber).count '.' ≤ 1
    · rw [pullAll_of_number hdigit hpoints, pullAll_of_number hdigit hpoints, List.map_cons, ← ih,
        Nat.add_right_comm]
      rfl
    · rw [Nat.not_le] at hpoints
      rw [pullAll_of_malformed hdigit hpoints, pullAll_of_malformed hdigit hpoints]
      rfl
  | unexpected c text hskip hkind hdigit =>
    rw [pullAll_of_unexpected hskip hkind hdigit, pullAll_of_unexpected hskip hkind hdigit]
    rfl

theorem pullAll_run {run rest : List Char} (h : IsRun run rest) (position : Nat) :
    pullAll ⟨run ++ rest, position⟩ =
      if run.count '.' ≤ 1 then
        .token ⟨.num, some (.ofLiteral run), position⟩ :: pullAll ⟨rest, position + run.length⟩
      else [.failed ⟨.malformedNumber run, some position⟩] := by
  split
  · next hpoints =>
    have hfits : (Tile.number run).Fits rest := ⟨h, hpoints⟩
    exact pullAll_of_fits hfits position
  · next hpoints => exact pullAll_of_stopsAt (.malformed h (Nat.not_le.1 hpoints))

theorem pullAll_run_alone {run : List Char} (h : IsRun run []) (hpoints : run.count '.' ≤ 1)
    (position : Nat) : pullAll ⟨run, position⟩ =
      [⟨.num, some (.ofLiteral run), position⟩].map Pull.token ++ [.exhausted] := by
  have hpulls := pullAll_run h position
  rwa [if_pos hpoints, List.append_nil, pullAll_nil] at hpulls

/-- A text with its tokens ends in a number: the characters before the number, its run, and the
tokens before it. -/
structure EndsInNumber (text : List Char) (position : Nat) (tokens : List Token)
    (front run : List Char) (earlier : List Token) : Prop where
  text_eq : text = front ++ run
  isRun : IsRun run []
  points : run.count '.' ≤ 1
  not_joins : ¬Joins front run
  pullAll_front : pullAll ⟨front, position⟩ = earlier.map .token ++ [.exhausted]
  tokens_eq : tokens = earlier ++ [⟨.num, some (.ofLiteral run), position + front.length⟩]

theorem EndsInNumber.of_isRun {run : List Char} (h : IsRun run []) (hpoints : run.count '.' ≤ 1)
    (position : Nat) :
    EndsInNumber run position [⟨.num, some (.ofLiteral run), position⟩] [] run [] :=
  ⟨rfl, h, hpoints, not_joins_nil, rfl, rfl⟩

theorem EndsInNumber.prepend {first front run : List Char} {firsts earlier : List Token}
    (h : EndsInNumber text (position + first.length) tokens front run earlier)
    (hfirst : pullAll ⟨first, position⟩ = firsts.map .token ++ [.exhausted])
    (hseam : ¬Joins first text) :
    EndsInNumber (first ++ text) position (firsts ++ tokens) (first ++ front) run
      (firsts ++ earlier) := by
  refine ⟨by rw [h.text_eq, List.append_assoc], h.isRun, h.points, ?seam, ?front, ?tokens⟩
  case seam =>
    intro hj
    by_cases hfront : front = []
    · rw [hfront, List.append_nil] at hj
      rw [h.text_eq, hfront, List.nil_append] at hseam
      exact hseam hj
    · exact h.not_joins (hj.of_append hfront)
  case front =>
    have hseam' : ¬Joins first front := by
      intro hj
      apply hseam
      obtain ⟨c, hc, c', hc', hcont⟩ := hj
      exact ⟨c, hc, c', by simp_all [h.text_eq], hcont⟩
    rw [pullAll_append hseam', hfirst, thenPulls_tokens, h.pullAll_front, List.map_append,
      List.append_assoc]
  case tokens => rw [h.tokens_eq, List.append_assoc, List.length_append, Nat.add_assoc]

theorem Joins.of_cons {c : Char} (h : Joins (c :: text) more) (hc : continuesNumber c = false) :
    Joins text more := by
  by_cases hne : text = []
  · exact absurd (hne ▸ h) (not_joins_of_last [] hc)
  · replace h : Joins ([c] ++ text) more := h
    exact h.of_append hne

theorem exists_cons_of_token {t : Token} {pulls : List Pull}
    (h : .token t :: pulls = tokens.map .token ++ [.exhausted]) :
    ∃ tokens', tokens = t :: tokens' ∧ pulls = tokens'.map .token ++ [.exhausted] := by
  cases tokens <;> simp_all

theorem exists_endsInNumber (h : pullAll ⟨text, position⟩ = tokens.map .token ++ [.exhausted])
    (hjoins : Joins text more) :
    ∃ front run earlier, EndsInNumber text position tokens front run earlier := by
  induction text using lexeme_induction generalizing position tokens with
  | nil => exact absurd hjoins not_joins_nil
  | skipped c text hskip ih =>
    have hcont := continuesNumber_of_isSkipped hskip
    rw [pullAll_of_skipped hskip] at h
    obtain ⟨front, run, earlier, hends⟩ := ih h (hjoins.of_cons hcont)
    have hfirst : pullAll ⟨[c], position⟩ = ([] : List Token).map .token ++ [.exhausted] :=
      pullAll_of_skipped hskip
    exact ⟨_, _, _, hends.prepend hfirst (not_joins_of_last [] hcont)⟩
  | symbol c kind text hkind ih =>
    have hcont := continuesNumber_of_ofChar? hkind
    rw [pullAll_of_symbol hkind] at h
    obtain ⟨tokens, rfl, hrest⟩ := exists_cons_of_token h
    obtain ⟨front, run, earlier, hends⟩ := ih hrest (hjoins.of_cons hcont)
    have hfirst : pullAll ⟨[c], position⟩ =
        [⟨kind, none, position⟩].map Pull.token ++ [.exhausted] := pullAll_of_symbol hkind
    exact ⟨_, _, _, hends.prepend hfirst (not_joins_of_last [] hcont)⟩
  | digit c text hdigit ih =>
    have hrun := isRun_of_isDigit hdigit text
    have hseam := not_joins_dropWhile text (c :: text.takeWhile continuesNumber)
    have htext : c :: text.takeWhile continuesNumber ++ text.dropWhile continuesNumber =
        c :: text := by simp
    rw [← htext] at h hjoins ⊢
    generalize c :: text.takeWhile continuesNumber = run at h hjoins hrun hseam ⊢
    generalize text.dropWhile continuesNumber = rest at h hjoins hrun hseam ih ⊢
    rw [pullAll_run hrun] at h
    split at h
    case isFalse => cases tokens <;> simp at h
    case isTrue hpoints =>
      obtain ⟨tokens, rfl, hrest⟩ := exists_cons_of_token h
      -- This run is the number at the end, or the number is behind it.
      by_cases hnil : rest = []
      · subst hnil
        obtain rfl : tokens = [] := by cases tokens <;> simp [pullAll_nil] at hrest ⊢
        rw [List.append_nil]
        exact ⟨_, _, _, .of_isRun hrun.alone hpoints position⟩
      · obtain ⟨front, last, earlier, hlast⟩ := ih hrest (hjoins.of_append hnil)
        exact ⟨_, _, _, hlast.prepend (pullAll_run_alone hrun.alone hpoints position) hseam⟩
  | unexpected c text hskip hkind hdigit =>
    rw [pullAll_of_unexpected hskip hkind hdigit] at h
    cases tokens <;> simp at h

/-- Where no number runs over the seam, the pulls at the second text are moved by the length of the
first one. -/
theorem pullAll_append_relocate (h : pullAll ⟨text, 0⟩ = tokens.map .token ++ [.exhausted])
    (hseam : ¬Joins text more) :
    pullAll ⟨text ++ more, 0⟩ =
      tokens.map .token ++ (pullAll ⟨more, 0⟩).map (Pull.relocate (· + text.length)) := by
  rw [pullAll_append hseam, h, thenPulls_tokens, pullAll_add]

theorem relocate_of_pullAll {fault : Fault} (f : Nat → Nat)
    (h : pullAll ⟨text, 0⟩ = tokens.map .token ++ [.failed fault]) :
    ∃ column, fault.column = some column ∧
      fault.relocate f = { fault with column := some (f column) } := by
  obtain ⟨tiles, rest, htiled, hstop⟩ := exists_tiled text
  obtain ⟨ending, hstops⟩ := hstop (0 + (tiles.flatMap Tile.text).length)
  rw [pullAll_of_tiled htiled, pullAll_of_stopsAt hstops] at h
  obtain ⟨-, hending⟩ := List.append_inj' h rfl
  obtain rfl := List.singleton_inj.1 hending
  exact ⟨_, Fault.relocate_of_stopsAt f hstops⟩

/-- The tokens of two texts, one behind the other, are the tokens of the first text and those of the
second one, moved by the length of the first; if the second text has a fault, it is the fault of
both, moved likewise.  But if the first text ends in a digit or point and the second one begins with
one, then the number in which the first text ends goes on in the second text.  The earlier tokens
are unchanged, and behind them is the number of the longer run, with the moved tokens of the rest,
or the longer run is malformed. -/
theorem pullAll_over_seam (s t : String) (tokens : List Token)
    (hs : (ofSource s).pullAll = tokens.map .token ++ [.exhausted]) :
    (¬Joins s.toList t.toList →
      (∀ tokens' : List Token, (ofSource t).pullAll = tokens'.map .token ++ [.exhausted] →
        (ofSource (s ++ t)).pullAll =
          (tokens ++ tokens'.map (Token.relocate (· + s.length))).map .token ++ [.exhausted]) ∧
      ∀ (tokens' : List Token) fault,
        (ofSource t).pullAll = tokens'.map .token ++ [.failed fault] →
          ∃ column, fault.column = some column ∧
            (ofSource (s ++ t)).pullAll =
              (tokens ++ tokens'.map (Token.relocate (· + s.length))).map .token ++
                [.failed { fault with column := some (column + s.length) }]) ∧
    (Joins s.toList t.toList →
      ∃ front run lead rest earlier, s.toList = front ++ run ∧ t.toList = lead ++ rest ∧
        lead ≠ [] ∧ IsRun run [] ∧ IsRun (run ++ lead) rest ∧
        tokens = earlier ++ [⟨.num, some (.ofLiteral run), front.length⟩] ∧
        (ofSource (s ++ t)).pullAll = earlier.map .token ++
          if (run ++ lead).count '.' ≤ 1 then
            .token ⟨.num, some (.ofLiteral (run ++ lead)), front.length⟩ ::
              (ofSource (String.ofList rest)).pullAll.map
                (Pull.relocate (· + (s.length + lead.length)))
          else [.failed ⟨.malformedNumber (run ++ lead), some front.length⟩]) := by
  simp only [ofSource, String.toList_append, String.toList_ofList] at hs ⊢
  rw [← String.length_toList]
  generalize s.toList = text at hs ⊢
  generalize t.toList = more
  refine ⟨fun hseam => ⟨fun tokens' ht => ?moved, fun tokens' fault ht => ?failed⟩,
    fun hjoins => ?joined⟩
  case moved =>
    rw [pullAll_append_relocate hs hseam, ht]
    simp [Pull.relocate, Function.comp_def]
  case failed =>
    obtain ⟨column, hcolumn, hfault⟩ := relocate_of_pullAll (· + text.length) ht
    refine ⟨column, hcolumn, ?_⟩
    rw [pullAll_append_relocate hs hseam, ht, ← hfault]
    simp [Pull.relocate, Function.comp_def]
  case joined =>
    obtain ⟨front, run, earlier, hends⟩ := exists_endsInNumber hs hjoins
    have hrun := hends.isRun.append_takeWhile more
    have hmore := more.takeWhile_append_dropWhile (p := continuesNumber)
    have hlead : more.takeWhile continuesNumber ≠ [] := by
      obtain ⟨-, -, c, hc, -, hcont⟩ := hjoins
      obtain ⟨tail, rfl⟩ := List.head?_eq_some_iff.1 hc
      simp [hcont]
    generalize more.takeWhile continuesNumber = lead at hrun hmore hlead
    generalize more.dropWhile continuesNumber = rest at hrun hmore
    have hseam : ¬Joins front (run ++ lead ++ rest) := by
      obtain ⟨c, hc, -⟩ := hends.isRun.first
      exact fun hj => hends.not_joins (hj.congr_head? (by simp_all))
    refine ⟨front, run, lead, rest, earlier, hends.text_eq, hmore.symm, hlead, hends.isRun, hrun,
      by rw [hends.tokens_eq, Nat.zero_add], ?_⟩
    rw [hends.text_eq, ← hmore, List.append_assoc, ← List.append_assoc run, pullAll_append hseam,
      hends.pullAll_front, thenPulls_tokens, pullAll_run hrun, Nat.zero_add]
    split
    · rw [← pullAll_add, Nat.zero_add, List.length_append, List.length_append, Nat.add_assoc]
    · rfl

/-- Behind an operator a malformed literal is found where it stands, and a literal behind a number
becomes part of it. -/
theorem pullAll_over_seam_literal :
    (ofSource ("1+" ++ "2..3")).pullAll =
      [.token ⟨.num, some (.ofLiteral ['1']), 0⟩, .token ⟨.add, none, 1⟩,
        .failed ⟨.malformedNumber ['2', '.', '.', '3'], some 2⟩] ∧
    ∃ front run lead rest, "1+2".toList = front ++ run ∧ ".5)".toList = lead ++ rest ∧
      lead ≠ [] ∧ IsRun run [] ∧ IsRun (run ++ lead) rest := by
  constructor
  · have hs : (ofSource "1+").pullAll = List.map .token
        [⟨.num, some (.ofLiteral ['1']), 0⟩, ⟨.add, none, 1⟩] ++ [.exhausted] := rfl
    have hapart : ¬Joins "1+".toList "2..3".toList := not_joins_of_last ['1'] rfl
    obtain ⟨column, hcolumn, hpulls⟩ := ((pullAll_over_seam "1+" "2..3" _ hs).1 hapart).2 []
      ⟨.malformedNumber ['2', '.', '.', '3'], some 0⟩ rfl
    obtain rfl := Option.some.inj hcolumn
    exact hpulls
  · have hs : (ofSource "1+2").pullAll = List.map .token
        [⟨.num, some (.ofLiteral ['1']), 0⟩, ⟨.add, none, 1⟩,
          ⟨.num, some (.ofLiteral ['2']), 2⟩] ++ [.exhausted] := rfl
    have hjoins : Joins "1+2".toList ".5)".toList := ⟨'2', rfl, '.', rfl, rfl, rfl⟩
    obtain ⟨front, run, lead, rest, -, htext, hmore, hlead, hrun, hlonger, -⟩ :=
      (pullAll_over_seam "1+2" ".5)" _ hs).2 hjoins
    exact ⟨front, run, lead, rest, htext, hmore, hlead, hrun, hlonger⟩

end Cursor

end InfixCalculator
