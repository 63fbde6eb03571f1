import InfixCalculator.Proofs.Token.Lexeme

/-!
# Texts divided into tiles

From the left on a text is divided into tiles: blanks, symbols, and number literals, each of which
takes all the digits and points that it can get.  The division is unique.  It goes on to the end of
the text, or stops before a run of digits and points with more than one point or before a character
that begins no tile.  The tokens of a text are those of its tiles, each at the column where its tile
begins, and what is found behind them says where and why the division stops.
-/

namespace InfixCalculator

/-- A tile of a text. -/
inductive Tile where
  | blank (c : Char)
  | symbol (c : Char) (kind : TokenKind)
  | number (run : List Char)
  deriving DecidableEq, Repr

namespace Tile

def text : Tile → List Char
  | blank c => [c]
  | symbol c _ => [c]
  | number run => run

def token? (column : Nat) : Tile → Option Token
  | blank _ => none
  | symbol _ kind => some ⟨kind, none, column⟩
  | number run => some ⟨.num, some (.ofLiteral run), column⟩

def blankChars : List Char := [' ', '\t', '\n', '\r']

def symbolKinds : List (Char × TokenKind) :=
  [('+', .add), ('-', .subtract), ('*', .multiply), ('/', .divide), ('^', .caret),
    ('(', .leftParen), (')', .rightParen)]

/-- A run of digits and points that begins with a digit and does not go on in `rest`. -/
structure IsRun (run rest : List Char) : Prop where
  first : ∃ c ∈ run.head?, c.isDigit = true
  all : ∀ c ∈ run, c.isDigit = true ∨ c = '.'
  longest : ∀ c ∈ rest.head?, ¬(c.isDigit = true ∨ c = '.')

def Fits (rest : List Char) : Tile → Prop
  | blank c => c ∈ blankChars
  | symbol c kind => (c, kind) ∈ symbolKinds
  | number run => IsRun run rest ∧ run.count '.' ≤ 1

def tokens : Nat → List Tile → List Token
  | _, [] => []
  | column, tile :: tiles =>
    (tile.token? column).toList ++ tokens (column + tile.text.length) tiles

end Tile

open Tile

/-- The text begins with the tiles, and `rest` is behind them. -/
inductive Tiled : List Char → List Tile → List Char → Prop
  | nil (rest : List Char) : Tiled rest [] rest
  | cons {tile : Tile} {text rest : List Char} {tiles : List Tile} (fits : tile.Fits text)
      (more : Tiled text tiles rest) : Tiled (tile.text ++ text) (tile :: tiles) rest

/-- What is found at a column where a division into tiles stops before `rest`: the end, a run with
more than one point, or a character that begins no tile. -/
inductive StopsAt (column : Nat) : List Char → Pull → Prop
  | finished : StopsAt column [] .exhausted
  | malformed {run rest : List Char} (isRun : IsRun run rest) (points : 1 < run.count '.') :
      StopsAt column (run ++ rest) (.failed ⟨.malformedNumber run, some column⟩)
  | unexpected {c : Char} {rest : List Char} (blank : c ∉ blankChars)
      (symbol : ∀ kind, (c, kind) ∉ symbolKinds) (digit : c.isDigit = false) :
      StopsAt column (c :: rest) (.failed ⟨.unexpectedCharacter c, some column⟩)

/-- The text is divided into tiles as far as possible. -/
structure Divides (text : List Char) (tiles : List Tile) (rest : List Char) (ending : Pull) :
    Prop where
  tiled : Tiled text tiles rest
  stops : StopsAt (tiles.flatMap Tile.text).length rest ending

namespace Tile

variable {text rest run : List Char} {c : Char} {kind : TokenKind} {tile : Tile}

theorem mem_blankChars : c ∈ blankChars ↔ Cursor.isSkipped c = true := by
  simp [blankChars, Cursor.isSkipped, or_assoc]

theorem mem_symbolKinds : (c, kind) ∈ symbolKinds ↔ TokenKind.ofChar? c = some kind := by
  constructor
  · intro h
    simp only [symbolKinds, List.mem_cons, Prod.mk.injEq, List.not_mem_nil, or_false] at h
    rcases h with ⟨rfl, rfl⟩ | ⟨rfl, rfl⟩ | ⟨rfl, rfl⟩ | ⟨rfl, rfl⟩ | ⟨rfl, rfl⟩ | ⟨rfl, rfl⟩ |
      ⟨rfl, rfl⟩ <;> rfl
  · intro h
    unfold TokenKind.ofChar? at h
    split at h <;> simp_all [symbolKinds]

theorem continuesNumber_iff : Cursor.continuesNumber c = true ↔ c.isDigit = true ∨ c = '.' := by
  simp [Cursor.continuesNumber]

theorem IsRun.exists_cons (h : IsRun run rest) :
    ∃ c text, run ++ rest = c :: text ∧ c.isDigit = true ∧
      run = c :: text.takeWhile Cursor.continuesNumber ∧
      rest = text.dropWhile Cursor.continuesNumber := by
  obtain ⟨c, hc, hdigit⟩ := h.first
  obtain ⟨run, rfl⟩ := List.head?_eq_some_iff.1 hc
  have hinside : ∀ c' ∈ run, Cursor.continuesNumber c' = true := fun c' hc' =>
    continuesNumber_iff.2 (h.all c' (List.mem_cons_of_mem c hc'))
  have hboundary : rest.takeWhile Cursor.continuesNumber = [] ∧
      rest.dropWhile Cursor.continuesNumber = rest := by
    cases rest with
    | nil => exact ⟨rfl, rfl⟩
    | cons c' rest =>
      have hc' : Cursor.continuesNumber c' = false := eq_false_of_ne_true fun hcont =>
        h.longest c' rfl (continuesNumber_iff.1 hcont)
      simp [hc']
  refine ⟨c, run ++ rest, rfl, hdigit, ?_, ?_⟩
  · rw [List.takeWhile_append_of_pos hinside, hboundary.1, List.append_nil]
  · rw [List.dropWhile_append_of_pos hinside, hboundary.2]

theorem isRun_of_isDigit (h : c.isDigit = true) (text : List Char) :
    IsRun (c :: text.takeWhile Cursor.continuesNumber)
      (text.dropWhile Cursor.continuesNumber) := by
  refine ⟨⟨c, rfl, h⟩, fun c' hc' => ?_, fun c' hc' => ?_⟩
  · rcases List.mem_cons.1 hc' with rfl | hc'
    · exact .inl h
    · exact continuesNumber_iff.1 (List.all_eq_true.1 List.all_takeWhile c' hc')
  · have hhead := List.head?_dropWhile_not Cursor.continuesNumber text
    rw [Option.mem_def] at hc'
    rw [← continuesNumber_iff]
    simpa [hc'] using hhead

theorem Fits.text_ne_nil (h : tile.Fits rest) : tile.text ≠ [] := by
  cases tile with
  | blank c => simp [text]
  | symbol c kind => simp [text]
  | number run =>
    rintro rfl
    simpa using h.1.first

def first? : List Char → Option Tile
  | [] => none
  | c :: text =>
    if Cursor.isSkipped c then some (blank c)
    else
      match TokenKind.ofChar? c with
      | some kind => some (symbol c kind)
      | none =>
        let run := c :: text.takeWhile Cursor.continuesNumber
        if c.isDigit ∧ run.count '.' ≤ 1 then some (number run) else none

theorem Fits.first?_eq (h : tile.Fits rest) : first? (tile.text ++ rest) = some tile := by
  cases tile with
  | blank c => simp [first?, text, mem_blankChars.1 h]
  | symbol c kind =>
    have hkind := mem_symbolKinds.1 h
    simp [first?, text, Cursor.isSkipped_of_ofChar? hkind, hkind]
  | number run =>
    obtain ⟨hrun, hpoints⟩ := h
    obtain ⟨c, tail, htext, hdigit, hrun, -⟩ := hrun.exists_cons
    rw [hrun] at hpoints
    rw [Tile.text, htext, first?, hrun]
    simp [Cursor.isSkipped_of_isDigit hdigit, Cursor.ofChar?_of_isDigit hdigit, hdigit, hpoints]

end Tile

theorem StopsAt.first?_eq {column : Nat} {rest : List Char} {ending : Pull}
    (h : StopsAt column rest ending) : first? rest = none := by
  cases h with
  | finished => rfl
  | malformed isRun points =>
    obtain ⟨c, tail, htext, hdigit, hrun, -⟩ := isRun.exists_cons
    rw [hrun] at points
    rw [htext, first?]
    simp [Cursor.isSkipped_of_isDigit hdigit, Cursor.ofChar?_of_isDigit hdigit,
      Nat.not_le.2 points]
  | @unexpected c rest blank symbol digit =>
    have hskip : Cursor.isSkipped c = false :=
      eq_false_of_ne_true fun h => blank (mem_blankChars.2 h)
    have hkind : TokenKind.ofChar? c = none :=
      Option.eq_none_iff_forall_ne_some.2 fun kind h => symbol kind (mem_symbolKinds.2 h)
    simp [first?, hskip, hkind, digit]

/-- There is only one way to divide a text. -/
theorem Tiled.unique {text rest rest' : List Char} {tiles tiles' : List Tile}
    (h : Tiled text tiles rest) (h' : Tiled text tiles' rest') (hstop : first? rest = none)
    (hstop' : first? rest' = none) : tiles' = tiles ∧ rest' = rest := by
  -- The first tile of a text is a function of the text, so the divisions begin with the same tile.
  induction h generalizing tiles' with
  | nil rest =>
    cases h' with
    | nil => exact ⟨rfl, rfl⟩
    | cons fits more => rw [fits.first?_eq] at hstop; cases hstop
  | @cons tile text rest tiles fits more ih =>
    generalize hwhole : tile.text ++ text = whole at h'
    cases h' with
    | nil =>
      rw [← hwhole, fits.first?_eq] at hstop'
      cases hstop'
    | @cons tile' text' _ tiles' fits' more' =>
      have htile := fits'.first?_eq
      rw [← hwhole, fits.first?_eq] at htile
      cases htile
      obtain rfl := List.append_cancel_left hwhole
      obtain ⟨rfl, rfl⟩ := ih more' hstop
      exact ⟨rfl, rfl⟩

theorem Tiled.text_eq {text rest : List Char} {tiles : List Tile} (h : Tiled text tiles rest) :
    text = tiles.flatMap Tile.text ++ rest := by
  induction h with
  | nil rest => rfl
  | cons fits more ih => rw [List.flatMap_cons, List.append_assoc, ← ih]

namespace Cursor

variable {text rest : List Char} {column : Nat} {tile : Tile} {tiles : List Tile} {ending : Pull}

theorem pullAll_of_fits (h : tile.Fits rest) (column : Nat) :
    pullAll ⟨tile.text ++ rest, column⟩ =
      (tile.token? column).toList.map .token ++ pullAll ⟨rest, column + tile.text.length⟩ := by
  cases tile with
  | blank c => exact pullAll_of_skipped (mem_blankChars.1 h)
  | symbol c kind => exact pullAll_of_symbol (mem_symbolKinds.1 h)
  | number run =>
    obtain ⟨hrun, hpoints⟩ := h
    obtain ⟨c, tail, htext, hdigit, rfl, rfl⟩ := hrun.exists_cons
    rw [Tile.text, htext, pullAll_of_number hdigit hpoints]
    rfl

/-- The pulls at a text are the tokens of its tiles, and behind them the pulls at what is left. -/
theorem pullAll_of_tiled (h : Tiled text tiles rest) (column : Nat) :
    pullAll ⟨text, column⟩ = (Tile.tokens column tiles).map .token ++
      pullAll ⟨rest, column + (tiles.flatMap Tile.text).length⟩ := by
  induction h generalizing column with
  | nil rest => rfl
  | @cons tile text rest tiles fits more ih =>
    rw [pullAll_of_fits fits, ih, Tile.tokens, List.map_append, List.flatMap_cons,
      List.length_append, List.append_assoc, Nat.add_assoc]

theorem pullAll_of_stopsAt (h : StopsAt column rest ending) :
    pullAll ⟨rest, column⟩ = [ending] := by
  cases h with
  | finished => rfl
  | malformed isRun points =>
    obtain ⟨c, tail, htext, hdigit, rfl, rfl⟩ := isRun.exists_cons
    rw [htext, pullAll_of_malformed hdigit points]
  | unexpected blank symbol digit =>
    refine pullAll_of_unexpected (eq_false_of_ne_true fun h => blank (mem_blankChars.2 h)) ?_ digit
    exact Option.eq_none_iff_forall_ne_some.2 fun kind h => symbol kind (mem_symbolKinds.2 h)

theorem exists_tiled (text : List Char) :
    ∃ tiles rest, Tiled text tiles rest ∧ ∀ column, ∃ ending, StopsAt column rest ending := by
  induction text using lexeme_induction with
  | nil => exact ⟨[], [], .nil [], fun _ => ⟨_, .finished⟩⟩
  | skipped c text hskip ih =>
    obtain ⟨tiles, rest, htiled, hstop⟩ := ih
    have hfits : (Tile.blank c).Fits text := mem_blankChars.2 hskip
    exact ⟨_, rest, .cons hfits htiled, hstop⟩
  | symbol c kind text hkind ih =>
    obtain ⟨tiles, rest, htiled, hstop⟩ := ih
    have hfits : (Tile.symbol c kind).Fits text := mem_symbolKinds.2 hkind
    exact ⟨_, rest, .cons hfits htiled, hstop⟩
  | digit c text hdigit ih =>
    have hrun := isRun_of_isDigit hdigit text
    have htext : c :: text.takeWhile continuesNumber ++ text.dropWhile continuesNumber =
        c :: text := by simp
    rw [← htext]
    by_cases hpoints : (c :: text.takeWhile continuesNumber).count '.' ≤ 1
    · obtain ⟨tiles, rest, htiled, hstop⟩ := ih
      have hfits : (Tile.number (c :: text.takeWhile continuesNumber)).Fits
          (text.dropWhile continuesNumber) := ⟨hrun, hpoints⟩
      exact ⟨_, rest, .cons hfits htiled, hstop⟩
    · exact ⟨[], _, .nil _, fun _ => ⟨_, .malformed hrun (Nat.not_le.1 hpoints)⟩⟩
  | unexpected c text hskip hkind hdigit =>
    refine ⟨[], _, .nil _, fun _ => ⟨_, .unexpected (fun h => ?_) (fun kind h => ?_) hdigit⟩⟩
    · rw [mem_blankChars.1 h] at hskip
      cases hskip
    · rw [mem_symbolKinds.1 h] at hkind
      cases hkind

theorem pairwise_tokens (h : Tiled text tiles rest) (column : Nat) :
    (∀ t ∈ Tile.tokens column tiles, column ≤ t.position) ∧
      (Tile.tokens column tiles).Pairwise fun t t' => t.position < t'.position := by
  induction h generalizing column with
  | nil rest => exact ⟨by simp [Tile.tokens], .nil⟩
  | @cons tile text rest tiles fits more ih =>
    obtain ⟨hle, hpairwise⟩ := ih (column + tile.text.length)
    have hpos : 0 < tile.text.length := List.length_pos_iff.2 fits.text_ne_nil
    have hfirst : ∀ t ∈ tile.token? column, t.position = column := by
      cases tile <;> simp [Tile.token?]
    rw [Tile.tokens]
    refine ⟨fun t ht => ?_, List.pairwise_append.2 ⟨?_, hpairwise, fun t ht t' ht' => ?_⟩⟩
    · rcases List.mem_append.1 ht with ht | ht
      · exact Nat.le_of_eq (hfirst t (by simpa using ht)).symm
      · exact Nat.le_trans (Nat.le_add_right _ _) (hle t ht)
    · cases tile.token? column <;> simp
    · have hposition := hfirst t (by simpa using ht)
      have hbehind := hle t' ht'
      omega

theorem pulls_nil (column n : Nat) : pulls ⟨[], column⟩ n = List.replicate n .exhausted := by
  induction n with
  | zero => rfl
  | succ n ih =>
    rw [List.replicate_succ, ← ih]
    rfl

/-- A number of pulls yields the first results of all pulls, and behind the last one nothing. -/
theorem pulls_eq_take (cursor : Cursor) (n : Nat) :
    cursor.pulls n = (cursor.pullAll ++ List.replicate n Pull.exhausted).take n := by
  induction n generalizing cursor with
  | zero => rfl
  | succ n ih =>
    rcases hpull : cursor.pull with ⟨result, next⟩
    have hsucc : cursor.pulls (n + 1) = result :: next.pulls n := by rw [pulls, hpull]
    rw [hsucc]
    cases result with
    | token t =>
      have hlong : n ≤ (next.pullAll ++ List.replicate n Pull.exhausted).length := by simp
      rw [pullAll_of_token hpull, List.cons_append, List.take_succ_cons, List.replicate_succ',
        ← List.append_assoc, List.take_append_of_le_length hlong, ih]
    | exhausted | failed fault =>
      have hrest := rest_of_pull hpull (by simp)
      obtain ⟨rest, column⟩ := next
      obtain rfl : rest = [] := hrest
      have htake : (Pull.exhausted :: List.replicate n Pull.exhausted).take n =
          List.replicate n Pull.exhausted := by
        rw [← List.replicate_succ, List.take_replicate, Nat.min_eq_left n.le_succ]
      rw [pulls_nil, pullAll_eq, hpull]
      exact congrArg _ htake.symm

/-- The tokens of a text are those of its tiles.  Every text is divided into tiles from the left on
in exactly one way, and no character is lost: what is left is empty, or it begins with a run with
more than one point or with a character that begins no tile.  The tokens stand in order, each at the
column where its tile begins; behind them the pulls are exhausted, or fail at the column and with
the kind of what is left.  Any number of pulls yields that many of these results, and behind the
last one nothing. -/
theorem pulls_are_tiles (source : String) : ∃ tiles rest ending,
    Divides source.toList tiles rest ending ∧
    (∀ tiles' rest' ending', Divides source.toList tiles' rest' ending' →
      tiles' = tiles ∧ rest' = rest ∧ ending' = ending) ∧
    source.toList = tiles.flatMap Tile.text ++ rest ∧
    (ending = .exhausted ↔ rest = []) ∧
    (∀ fault, ending = .failed fault → fault.column = some (tiles.flatMap Tile.text).length ∧
      fault.kind = if rest.head?.any Char.isDigit then .unableToParse else .invalidOperator) ∧
    ((Tile.tokens 0 tiles).Pairwise fun t t' => t.position < t'.position) ∧
    (ofSource source).pullAll = (Tile.tokens 0 tiles).map .token ++ [ending] ∧
    ∀ n, (ofSource source).pulls n =
      ((Tile.tokens 0 tiles).map Pull.token ++ ending :: List.replicate n .exhausted).take n := by
  obtain ⟨tiles, rest, htiled, hstop⟩ := exists_tiled source.toList
  obtain ⟨ending, hstops⟩ := hstop (tiles.flatMap Tile.text).length
  have hall : (ofSource source).pullAll = (Tile.tokens 0 tiles).map .token ++ [ending] := by
    rw [ofSource, pullAll_of_tiled htiled, Nat.zero_add, pullAll_of_stopsAt hstops]
  refine ⟨tiles, rest, ending, ⟨htiled, hstops⟩, ?unique, htiled.text_eq, ?normal, ?faulty,
    (pairwise_tokens htiled 0).2, hall, fun n => ?pulls⟩
  case unique =>
    intro tiles' rest' ending' hdivides
    obtain ⟨rfl, rfl⟩ := htiled.unique hdivides.tiled hstops.first?_eq hdivides.stops.first?_eq
    have hending := (pullAll_of_stopsAt hdivides.stops).symm.trans (pullAll_of_stopsAt hstops)
    exact ⟨rfl, rfl, List.cons.inj hending |>.1⟩
  case normal =>
    cases hstops with
    | finished => simp
    | malformed isRun points =>
      obtain ⟨c, tail, htext, -⟩ := isRun.exists_cons
      simp [htext]
    | unexpected => simp
  case faulty =>
    rintro fault rfl
    cases hstops with
    | malformed isRun points =>
      obtain ⟨c, tail, htext, hdigit, -⟩ := isRun.exists_cons
      simp [htext, hdigit, Fault.kind, FaultCause.kind]
    | unexpected blank symbol digit => simp [digit, Fault.kind, FaultCause.kind]
  case pulls => rw [pulls_eq_take, hall, List.append_assoc, List.singleton_append]

end Cursor

end InfixCalculator
