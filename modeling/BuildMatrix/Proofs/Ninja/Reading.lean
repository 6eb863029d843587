import BuildMatrix.Ninja.Statement
import BuildMatrix.Proofs.Text.Trimming

/-! How ninja reads the lines of a script. A dollar sign begins a variable, or stands before a
character that counts as it is; a lone one at the end of a line has no meaning in that line. In a
build line, spaces, colons and bars end a path unless a dollar sign stands before them. What an edge
joins into a line is what is read from it, as long as the line is kept whole. -/

set_option autoImplicit false

namespace BuildMatrix.Ninja

open Text

/-- What variables stand for. -/
abbrev Bindings := Text → Text

inductive Piece where
  | plain (c : Char)
  /-- A character after a dollar sign. -/
  | escaped (c : Char)
  | variable (name : Text)
  deriving DecidableEq

def isNameChar (c : Char) : Bool := c.isAlphanum || c == '_' || c == '-'

/-- Where a reader is: in text, behind a dollar sign, or in the name of a variable. -/
inductive Mode where
  | text
  | dollar
  | name (n : Text)

def Mode.next : Mode → Char → Option (List Piece × Mode)
  | .text, c => if c = '$' then some ([], .dollar) else some ([.plain c], .text)
  | .dollar, c =>
    if c = '$' ∨ c = ' ' ∨ c = ':' then some ([.escaped c], .text)
    else if isNameChar c then some ([], .name [c])
    else none
  | .name n, c =>
    if isNameChar c then some ([], .name (n ++ [c]))
    else if c = '$' then some ([.variable n], .dollar)
    else some ([.variable n, .plain c], .text)

def Mode.finish : Mode → Option (List Piece)
  | .text => some []
  | .dollar => none
  | .name n => some [.variable n]

def lex (m : Mode) : Text → Option (List Piece)
  | [] => m.finish
  | c :: r => (m.next c).bind fun s => (lex s.2 r).map (s.1 ++ ·)

def Piece.text (scope : Bindings) : Piece → Text
  | .plain c => [c]
  | .escaped c => [c]
  | .variable n => scope n

def evaluate (scope : Bindings) (ps : List Piece) : Text := ps.flatMap (Piece.text scope)

/-! ### Build lines -/

inductive Token where
  | word (ps : List Piece)
  | colon
  | bar
  deriving DecidableEq

def flush (word : List Piece) : List Token := if word = [] then [] else [.word word]

/-- The tokens of pieces that follow the beginning of a word. -/
def tokens (word : List Piece) : List Piece → List Token
  | [] => flush word
  | p :: r =>
    if p = .plain ' ' then flush word ++ tokens [] r
    else if p = .plain ':' then flush word ++ .colon :: tokens [] r
    else if p = .plain '|' then flush word ++ .bar :: tokens [] r
    else tokens (word ++ [p]) r

/-- The words that come first, and the tokens after them. -/
def leadingWords : List Token → List (List Piece) × List Token
  | .word w :: r => ((leadingWords r).map (w :: ·) id)
  | ts => ([], ts)

structure BuildLine where
  outputs : List Text
  rule : Text
  inputs : List Text
  implicit : List Text
  deriving DecidableEq

def BuildLine.ofTokens (scope : Bindings) (ts : List Token) : Option BuildLine :=
  match leadingWords ts with
  | (outputs, .colon :: r) =>
    match leadingWords r with
    | (rule :: inputs, []) =>
      some ⟨outputs.map (evaluate scope), evaluate scope rule, inputs.map (evaluate scope), []⟩
    | (rule :: inputs, .bar :: r) =>
      match leadingWords r with
      | (implicit, []) => some ⟨outputs.map (evaluate scope), evaluate scope rule,
          inputs.map (evaluate scope), implicit.map (evaluate scope)⟩
      | _ => none
    | _ => none
  | _ => none

def BuildLine.read (scope : Bindings) (line : Text) : Option BuildLine :=
  match ("build " : Text).isPrefixOf? line with
  | none => none
  | some rest => (lex .text rest).bind fun ps => ofTokens scope (tokens [] ps)

variable {scope : Bindings} {m : Mode} {p t a b : Text} {ps qs w : List Piece} {c : Char}
  {ws : List (List Piece)} {ts : List Token}

/-! ### Pieces -/

def Piece.ofChar (c : Char) : Piece :=
  if c = '$' ∨ c = ' ' ∨ c = ':' then .escaped c else .plain c

theorem evaluate_append (scope : Bindings) (ps qs : List Piece) :
    evaluate scope (ps ++ qs) = evaluate scope ps ++ evaluate scope qs := List.flatMap_append

theorem evaluate_ofChar (scope : Bindings) (p : Text) :
    evaluate scope (p.map Piece.ofChar) = p := by
  have each (c : Char) : (Piece.ofChar c).text scope = [c] := by
    unfold Piece.ofChar
    split <;> rfl
  simp [evaluate, List.flatMap_map, each]

theorem lex_cons_plain (plain : c ≠ '$') (r : Text) :
    lex .text (c :: r) = (lex .text r).map (.plain c :: ·) := by
  simp [lex, Mode.next, plain]

theorem lex_name {n : Text} (named : ∀ x ∈ n, isNameChar x = true) (before r : Text) :
    lex (.name before) (n ++ r) = lex (.name (before ++ n)) r := by
  induction n generalizing before with
  | nil => simp
  | cons x n ih =>
    obtain ⟨first, rest⟩ := List.forall_mem_cons.1 named
    have step : (Mode.name before).next x = some ([], .name (before ++ [x])) := if_pos first
    rw [List.cons_append, lex, step, Option.bind_some, ih rest, List.append_assoc]
    simp

theorem lex_variable {n : Text} (some : n ≠ []) (named : ∀ x ∈ n, isNameChar x = true)
    (ends : isNameChar c = false) (plain : c ≠ '$') (r : Text) :
    lex .text ('$' :: n ++ c :: r) = (lex .text r).map ([.variable n, .plain c] ++ ·) := by
  obtain ⟨x, n, rfl⟩ := List.exists_cons_of_ne_nil some
  obtain ⟨first, rest⟩ := List.forall_mem_cons.1 named
  have letter : ¬ (x = '$' ∨ x = ' ' ∨ x = ':') := by
    rintro (rfl | rfl | rfl) <;> exact absurd first (by decide)
  have begins : Mode.dollar.next x = .some ([], .name [x]) := by
    rw [Mode.next, if_neg letter, if_pos first]
  have stops : (Mode.name (x :: n)).next c = .some ([.variable (x :: n), .plain c], .text) := by
    rw [Mode.next, if_neg (by simp [ends]), if_neg plain]
  have inside : lex (.name [x]) (n ++ c :: r) = lex (.name (x :: n)) (c :: r) :=
    lex_name rest [x] _
  have dollar : Mode.text.next '$' = .some ([], .dollar) := rfl
  rw [List.cons_append, List.cons_append, lex, dollar, Option.bind_some, lex, begins,
    Option.bind_some, inside, lex, stops]
  simp [Function.comp_def]

theorem lex_escaped (p r : Text) :
    lex .text (escaped p ++ r) = (lex .text r).map (p.map Piece.ofChar ++ ·) := by
  induction p with
  | nil => simp [escaped]
  | cons c p ih =>
    have shape : escaped (c :: p) = escapedChar c ++ escaped p := List.flatMap_cons
    rw [shape, List.append_assoc, List.map_cons, Piece.ofChar, escapedChar]
    split
    · rename_i special
      simp [lex, Mode.next, special, ih, Function.comp_def]
    · rename_i plain
      have other : c ≠ '$' := fun same => plain (.inl same)
      simp [lex_cons_plain other, ih, Function.comp_def]

/-- Characters that neither begin nor continue a variable are read one by one. -/
theorem lex_append_plain (plain : ∀ c ∈ b, c ≠ '$' ∧ isNameChar c = false)
    (read : lex m a = some ps) : lex m (a ++ b) = some (ps ++ b.map .plain) := by
  have text : ∀ b : Text, (∀ c ∈ b, c ≠ '$' ∧ isNameChar c = false) →
      lex .text b = some (b.map .plain) := by
    intro b plain
    induction b with
    | nil => rfl
    | cons c b ih =>
      obtain ⟨first, rest⟩ := List.forall_mem_cons.1 plain
      rw [lex_cons_plain first.1, ih rest]
      rfl
  induction a generalizing m ps with
  | nil =>
    cases b with
    | nil => simpa using read
    | cons c b =>
      obtain ⟨⟨dollar, other⟩, rest⟩ := List.forall_mem_cons.1 plain
      cases m with
      | text =>
        obtain rfl : ps = [] := by simpa [lex, Mode.finish] using read.symm
        exact text _ plain
      | dollar => cases read
      | name n =>
        obtain rfl : ps = [.variable n] := by simpa [lex, Mode.finish] using read.symm
        simp [lex, Mode.next, other, dollar, text b rest]
  | cons c a ih =>
    rw [lex, Option.bind_eq_some_iff] at read
    obtain ⟨⟨first, next⟩, step, read⟩ := read
    obtain ⟨later, tail, rfl⟩ := Option.map_eq_some_iff.1 read
    rw [List.cons_append, lex, step, Option.bind_some, ih tail, List.append_assoc]
    rfl

/-! ### Words -/

/-- A piece that ends a word. -/
def Piece.isEnd (p : Piece) : Bool := p = .plain ' ' || p = .plain ':' || p = .plain '|'

theorem Piece.isEnd_ofChar (bar : c ≠ '|') : (Piece.ofChar c).isEnd = false := by
  unfold ofChar
  split
  · rfl
  · rename_i other
    simp only [not_or] at other
    simp [isEnd, other, bar]

theorem tokens_cons (inside : ∀ p ∈ w, p.isEnd = false) (v r : List Piece) :
    tokens v (w ++ r) = tokens (v ++ w) r := by
  induction w generalizing v with
  | nil => simp
  | cons p w ih =>
    obtain ⟨first, rest⟩ := List.forall_mem_cons.1 inside
    simp only [Piece.isEnd, Bool.or_eq_false_iff, decide_eq_false_iff_not] at first
    rw [List.cons_append, tokens, if_neg first.1.1, if_neg first.1.2, if_neg first.2, ih rest,
      List.append_assoc, List.singleton_append]

theorem tokens_flush (ends : ∀ p ∈ ps.head?, p.isEnd = true) (word : List Piece) :
    tokens word ps = flush word ++ tokens [] ps := by
  cases ps with
  | nil => simp [tokens, flush]
  | cons p r =>
    have separator : p = .plain ' ' ∨ p = .plain ':' ∨ p = .plain '|' := by
      simpa [Piece.isEnd, or_assoc] using ends p rfl
    rcases separator with rfl | rfl | rfl <;> simp [tokens, flush]

/-- A word and what ends it. -/
theorem tokens_word (some : w ≠ []) (inside : ∀ p ∈ w, p.isEnd = false)
    (ends : ∀ p ∈ ps.head?, p.isEnd = true) : tokens [] (w ++ ps) = .word w :: tokens [] ps := by
  rw [tokens_cons inside, List.nil_append, tokens_flush ends, flush, if_neg some]
  rfl

theorem tokens_words (some : ∀ w ∈ ws, w ≠ []) (inside : ∀ w ∈ ws, ∀ p ∈ w, p.isEnd = false)
    (ends : ∀ p ∈ ps.head?, p.isEnd = true) :
    tokens [] (ws.flatMap (.plain ' ' :: ·) ++ ps) = ws.map .word ++ tokens [] ps := by
  induction ws with
  | nil => rfl
  | cons w ws ih =>
    obtain ⟨first, others⟩ := List.forall_mem_cons.1 some
    obtain ⟨here, later⟩ := List.forall_mem_cons.1 inside
    have next : ∀ p ∈ (ws.flatMap (.plain ' ' :: ·) ++ ps).head?, p.isEnd = true := by
      cases ws with
      | nil => exact ends
      | cons v vs => rintro p ⟨⟩; rfl
    rw [List.flatMap_cons, List.append_assoc, List.cons_append, tokens, if_pos rfl,
      tokens_word first here next, ih others later]
    rfl

theorem leadingWords_append (ws : List (List Piece)) (stops : leadingWords ts = ([], ts)) :
    leadingWords (ws.map .word ++ ts) = (ws, ts) := by
  induction ws with
  | nil => exact stops
  | cons w ws ih =>
    rw [List.map_cons, List.cons_append, leadingWords, ih]
    rfl

theorem ofTokens_eq (scope : Bindings) (outputs inputs implicit : List (List Piece))
    (rule : List Piece) :
    BuildLine.ofTokens scope (outputs.map .word ++ .colon :: (rule :: inputs).map .word ++
        if implicit = [] then [] else .bar :: implicit.map .word) =
      some ⟨outputs.map (evaluate scope), evaluate scope rule, inputs.map (evaluate scope),
        implicit.map (evaluate scope)⟩ := by
  have first (r : List Token) : leadingWords (outputs.map .word ++ .colon :: r) =
      (outputs, .colon :: r) := leadingWords_append outputs rfl
  rw [List.append_assoc, List.cons_append, BuildLine.ofTokens, first]
  dsimp only
  by_cases none : implicit = []
  · rw [if_pos none, leadingWords_append _ rfl, none]
    rfl
  · have last : leadingWords (implicit.map .word) = (implicit, []) := by
      rw [← List.append_nil (implicit.map Token.word)]
      exact leadingWords_append implicit rfl
    rw [if_neg none, leadingWords_append _ rfl]
    dsimp only
    rw [last]

/-! ### Edges -/

def Place.pieces : Place → List Piece
  | .project => []
  | .objects => [.variable "outdir", .plain '/']
  | .resources => [.variable "resout", .plain '/']

def Artifact.pieces (a : Artifact) : List Piece := a.place.pieces ++ a.path.map Piece.ofChar

/-- What a path stands for. -/
def Artifact.value (scope : Bindings) (a : Artifact) : Text :=
  evaluate scope a.place.pieces ++ a.path

/-- A path that can be written in a build line. -/
structure Artifact.Nameable (a : Artifact) : Prop where
  filled : a.path ≠ []
  noBar : '|' ∉ a.path

/-- What an edge is meant to say. -/
def Edge.meaning (scope : Bindings) (e : Edge) : BuildLine :=
  ⟨[e.output.value scope], e.rule.text, e.inputs.map (Artifact.value scope),
    e.implicit.map (Artifact.value scope)⟩

theorem evaluate_pieces (scope : Bindings) (a : Artifact) :
    evaluate scope a.pieces = a.value scope := by
  rw [Artifact.pieces, evaluate_append, evaluate_ofChar]
  rfl

theorem lex_place (l : Place) (r : Text) :
    lex .text (l.variable ++ r) = (lex .text r).map (l.pieces ++ ·) := by
  cases l with
  | project => exact Option.map_id'.symm
  | objects =>
    exact lex_variable (n := "outdir") (by decide) (List.all_eq_true.1 rfl) rfl (by decide) r
  | resources =>
    exact lex_variable (n := "resout") (by decide) (List.all_eq_true.1 rfl) rfl (by decide) r

theorem lex_artifact (a : Artifact) (r : Text) :
    lex .text (a.text ++ r) = (lex .text r).map (a.pieces ++ ·) := by
  rw [Artifact.text, List.append_assoc, lex_place, lex_escaped, Option.map_map, Artifact.pieces]
  simp [Function.comp_def]

theorem lex_artifacts (as : List Artifact) (r : Text) :
    lex .text ((as.map Artifact.text).flatMap (' ' :: ·) ++ r) =
      (lex .text r).map ((as.map Artifact.pieces).flatMap (.plain ' ' :: ·) ++ ·) := by
  induction as with
  | nil => simp
  | cons a as ih =>
    rw [List.map_cons, List.flatMap_cons, List.append_assoc, List.cons_append,
      lex_cons_plain (by decide), lex_artifact, ih]
    simp [Function.comp_def]

theorem following_spaced {ts : List Text} (separator : Text) (filled : ∀ t ∈ ts, t ≠ []) :
    following (separator ++ [' ']) (spaced ts) =
      if ts = [] then [] else separator ++ ts.flatMap (' ' :: ·) := by
  by_cases none : ts = []
  · rw [none]
    rfl
  · have some : spaced ts ≠ [] := by
      obtain ⟨t, us, rfl⟩ := List.exists_cons_of_ne_nil none
      have first := filled t List.mem_cons_self
      cases us <;> simp [spaced, first]
    rw [following, if_neg some, if_neg none, ← cons_spaced none]
    simp

theorem Artifact.text_ne_nil {a : Artifact} (filled : a.path ≠ []) : a.text ≠ [] := by
  have escapes (c : Char) : escapedChar c ≠ [] := by
    unfold escapedChar
    split <;> simp
  obtain ⟨c, r, shape⟩ := List.exists_cons_of_ne_nil filled
  simp [Artifact.text, shape, escaped, escapes]

/-- The paths of a line can all be written in it. -/
structure Edge.Nameable (e : Edge) : Prop where
  output : e.output.Nameable
  inputs : ∀ a ∈ e.inputs, a.Nameable
  implicit : ∀ a ∈ e.implicit, a.Nameable

/-- A line behind its keyword, with a space before every word after the colon. -/
def Edge.body (e : Edge) : Text :=
  e.output.text ++ (' ' :: ':' ::
    (((Artifact.ofProject e.rule.text :: e.inputs).map Artifact.text).flatMap (' ' :: ·) ++
      if e.implicit = [] then [] else
        ' ' :: '|' :: (e.implicit.map Artifact.text).flatMap (' ' :: ·)))

def Edge.pieces (e : Edge) : List Piece :=
  e.output.pieces ++ (.plain ' ' :: .plain ':' ::
    (((Artifact.ofProject e.rule.text :: e.inputs).map Artifact.pieces).flatMap (.plain ' ' :: ·) ++
      if e.implicit = [] then [] else
        .plain ' ' :: .plain '|' ::
          (e.implicit.map Artifact.pieces).flatMap (.plain ' ' :: ·)))

theorem text_ruleName (r : RuleName) : (Artifact.ofProject r.text).text = r.text := by
  cases r <;> decide

theorem following_artifacts {as : List Artifact} (separator : Text)
    (h : ∀ a ∈ as, a.Nameable) :
    following (separator ++ [' ']) (spaced (as.map Artifact.text)) =
      if as = [] then [] else separator ++ (as.map Artifact.text).flatMap (' ' :: ·) := by
  have filled : ∀ t ∈ as.map Artifact.text, t ≠ [] := List.forall_mem_map.2 fun a member =>
    Artifact.text_ne_nil (h a member).filled
  rw [following_spaced separator filled]
  simp only [List.map_eq_nil_iff]

theorem Edge.line_eq {e : Edge} (h : e.Nameable) : e.line = "build " ++ e.body := by
  have inputs : following " " (spaced (e.inputs.map Artifact.text)) =
      (e.inputs.map Artifact.text).flatMap (' ' :: ·) := by
    refine (following_artifacts [] h.inputs).trans ?_
    by_cases none : e.inputs = []
    · rw [none]
      rfl
    · rw [if_neg none]
      rfl
  have implicit := following_artifacts " |" h.implicit
  calc e.line
      = "build " ++ e.output.text ++ " : " ++ e.rule.text ++
          (e.inputs.map Artifact.text).flatMap (' ' :: ·) ++
            following " | " (spaced (e.implicit.map Artifact.text)) := by
        rw [← inputs]
        rfl
    _ = "build " ++ e.body := by
        rw [Edge.body, List.map_cons, List.flatMap_cons, text_ruleName]
        simp only [List.append_assoc]
        exact congrArg _ (congrArg _ (congrArg (fun r => " : " ++ (e.rule.text ++ r))
          (congrArg _ implicit)))

theorem lex_pair {d : Char} (first : c ≠ '$') (second : d ≠ '$') (r : Text) :
    lex .text (c :: d :: r) = (lex .text r).map fun ps => .plain c :: .plain d :: ps := by
  rw [lex_cons_plain first, lex_cons_plain second, Option.map_map]
  rfl

theorem lex_body (e : Edge) : lex .text e.body = some e.pieces := by
  have pair {d : Char} (other : d ≠ '$') (r : Text) := lex_pair (c := ' ') (by decide) other r
  have nothing : lex .text [] = some [] := rfl
  have last : lex .text (if e.implicit = [] then [] else
      ' ' :: '|' :: (e.implicit.map Artifact.text).flatMap (' ' :: ·)) =
        some (if e.implicit = [] then [] else .plain ' ' :: .plain '|' ::
          (e.implicit.map Artifact.pieces).flatMap (.plain ' ' :: ·)) := by
    by_cases none : e.implicit = []
    · rw [if_pos none, if_pos none, nothing]
    · have listed := lex_artifacts e.implicit []
      rw [List.append_nil, nothing, Option.map_some, List.append_nil] at listed
      rw [if_neg none, if_neg none, pair (by decide), listed]
      rfl
  rw [Edge.body, lex_artifact, pair (by decide), lex_artifacts, last]
  rfl

theorem Artifact.Nameable.isEnd {a : Artifact} (h : a.Nameable) :
    ∀ p ∈ a.pieces, p.isEnd = false := by
  have places : ∀ l : Place, ∀ p ∈ l.pieces, p.isEnd = false := by
    rintro (_ | _ | _) <;> decide
  intro p member
  rcases List.mem_append.1 member with place | path
  · exact places a.place p place
  · obtain ⟨c, inside, rfl⟩ := List.mem_map.1 path
    exact Piece.isEnd_ofChar fun bar => h.noBar (bar ▸ inside)

theorem Artifact.Nameable.pieces_ne_nil {a : Artifact} (h : a.Nameable) : a.pieces ≠ [] := by
  simp [Artifact.pieces, h.filled]

theorem nameable_ruleName (r : RuleName) : (Artifact.ofProject r.text).Nameable := by
  cases r <;> exact ⟨by decide, by decide⟩

theorem tokens_artifacts {as : List Artifact} (h : ∀ a ∈ as, a.Nameable)
    (ends : ∀ p ∈ ps.head?, p.isEnd = true) :
    tokens [] ((as.map Artifact.pieces).flatMap (.plain ' ' :: ·) ++ ps) =
      (as.map Artifact.pieces).map .word ++ tokens [] ps :=
  tokens_words (List.forall_mem_map.2 fun a member => (h a member).pieces_ne_nil)
    (List.forall_mem_map.2 fun a member => (h a member).isEnd) ends

theorem tokens_pieces {e : Edge} (h : e.Nameable) :
    tokens [] e.pieces = [e.output.pieces].map .word ++ .colon ::
      ((Artifact.ofProject e.rule.text).pieces :: e.inputs.map Artifact.pieces).map .word ++
        if e.implicit.map Artifact.pieces = [] then [] else
          .bar :: (e.implicit.map Artifact.pieces).map .word := by
  have named : ∀ a ∈ Artifact.ofProject e.rule.text :: e.inputs, a.Nameable :=
    List.forall_mem_cons.2 ⟨nameable_ruleName e.rule, h.inputs⟩
  have ended : ∀ p ∈ ([] : List Piece).head?, p.isEnd = true := by simp
  have implicit := tokens_artifacts h.implicit ended
  rw [List.append_nil] at implicit
  have colon (r : List Piece) : tokens [] (.plain ' ' :: .plain ':' :: r) =
      .colon :: tokens [] r := rfl
  have bar (r : List Piece) : tokens [] (.plain ' ' :: .plain '|' :: r) =
      .bar :: tokens [] r := rfl
  have nothing : tokens [] [] = [] := rfl
  rw [Edge.pieces, tokens_word h.output.pieces_ne_nil h.output.isEnd (by rintro p ⟨⟩; rfl), colon]
  by_cases none : e.implicit = []
  · rw [if_pos none, if_pos (by rw [none]; rfl), tokens_artifacts named (by simp), nothing]
    simp
  · rw [if_neg none, if_neg (by simpa using none),
      tokens_artifacts named (by rintro p ⟨⟩; rfl), bar, implicit, nothing]
    simp

theorem ofTokens_pieces {e : Edge} (h : e.Nameable) (scope : Bindings) :
    BuildLine.ofTokens scope (tokens [] e.pieces) = some (e.meaning scope) := by
  have values (as : List Artifact) : (as.map Artifact.pieces).map (evaluate scope) =
      as.map (Artifact.value scope) := by
    rw [List.map_map]
    exact List.map_congr_left fun a _ => evaluate_pieces scope a
  rw [tokens_pieces h, ofTokens_eq, values, values, evaluate_pieces, List.map_singleton,
    evaluate_pieces]
  rfl

theorem BuildLine.read_build (scope : Bindings) (t : Text) :
    BuildLine.read scope ("build " ++ t) =
      (lex .text t).bind fun ps => ofTokens scope (tokens [] ps) := rfl

/-- A line that is kept whole is read as what its edge means. -/
theorem BuildLine.read_line {e : Edge} (h : e.Nameable) (scope : Bindings) :
    BuildLine.read scope e.line = some (e.meaning scope) := by
  rw [Edge.line_eq h, read_build, lex_body, Option.bind_some, ofTokens_pieces h]

/-! ### Lines that lost their end -/

/-- What the line of an edge ends with. -/
def Edge.lastPath (e : Edge) : Text :=
  match (e.inputs ++ e.implicit).getLast? with
  | some a => a.path
  | none => e.rule.text

def Token.letters (scope : Bindings) : Token → Text
  | .word ps => evaluate scope ps
  | _ => []

/-- All that stands in the words of a line. -/
def BuildLine.letters (l : BuildLine) : Text :=
  l.outputs.flatten ++ (l.rule ++ (l.inputs.flatten ++ l.implicit.flatten))

theorem suffix_artifacts {as : List Artifact} {a : Artifact} (last : as.getLast? = some a) :
    escaped a.path <:+ (as.map Artifact.text).flatMap (' ' :: ·) ∧
      a.path.map Piece.ofChar <:+ (as.map Artifact.pieces).flatMap (.plain ' ' :: ·) := by
  obtain ⟨front, rfl⟩ := List.getLast?_eq_some_iff.1 last
  simp only [List.map_append, List.flatMap_append, List.map_singleton, List.flatMap_singleton]
  exact ⟨List.suffix_append_of_suffix ((List.suffix_append _ _).trans (List.suffix_cons _ _)),
    List.suffix_append_of_suffix ((List.suffix_append _ _).trans (List.suffix_cons _ _))⟩

theorem suffix_body (e : Edge) :
    escaped e.lastPath <:+ e.body ∧ e.lastPath.map Piece.ofChar <:+ e.pieces := by
  -- what stands before the last words does not matter
  have widen {α : Type} {s x : List α} (a b : List α) (y z : α) (h : s <:+ x) :
      s <:+ a ++ (y :: z :: (b ++ x)) :=
    List.suffix_append_of_suffix <| ((List.suffix_append_of_suffix h).trans
      (List.suffix_cons _ _)).trans (List.suffix_cons _ _)
  rw [Edge.body, Edge.pieces]
  by_cases none : e.implicit = []
  · obtain ⟨a, last, path⟩ : ∃ a, (Artifact.ofProject e.rule.text :: e.inputs).getLast? = some a ∧
        a.path = e.lastPath := by
      rw [Edge.lastPath, none, List.append_nil, List.getLast?_cons]
      cases e.inputs.getLast? <;> exact ⟨_, rfl, rfl⟩
    obtain ⟨text, pieces⟩ := suffix_artifacts last
    rw [if_pos none, if_pos none, List.append_nil, List.append_nil, ← path]
    exact ⟨widen _ [] _ _ text, widen _ [] _ _ pieces⟩
  · have last := List.getLast?_eq_some_getLast none
    have path : (e.implicit.getLast none).path = e.lastPath := by
      rw [Edge.lastPath, List.getLast?_append, last]
      rfl
    obtain ⟨text, pieces⟩ := suffix_artifacts last
    rw [if_neg none, if_neg none, ← path]
    exact ⟨widen _ _ _ _ (widen [] [] _ _ text), widen _ _ _ _ (widen [] [] _ _ pieces)⟩

theorem letters_tokens (scope : Bindings) (word ps : List Piece) :
    (tokens word ps).flatMap (Token.letters scope) =
      evaluate scope word ++ evaluate scope (ps.filter (!·.isEnd)) := by
  have flushed (word : List Piece) : (flush word).flatMap (Token.letters scope) =
      evaluate scope word := by
    unfold flush
    split
    · rename_i empty
      rw [empty]
      rfl
    · simp [Token.letters]
  induction ps generalizing word with
  | nil => simp [tokens, flushed, evaluate]
  | cons p ps ih =>
    have start : evaluate scope [] = [] := rfl
    rw [tokens]
    split
    · rename_i space
      simp [flushed, ih, start, space, Piece.isEnd]
    split
    · rename_i colon
      simp [flushed, ih, start, colon, Piece.isEnd, Token.letters]
    split
    · rename_i bar
      simp [flushed, ih, start, bar, Piece.isEnd, Token.letters]
    · rename_i space colon bar
      have inside : p.isEnd = false := by simp [Piece.isEnd, space, colon, bar]
      rw [ih, evaluate_append, List.filter_cons_of_pos (by simp [inside]), List.append_assoc,
        ← evaluate_append, List.singleton_append]

theorem eq_of_leadingWords {r : List Token} (h : leadingWords ts = (ws, r)) :
    ts = ws.map .word ++ r := by
  induction ts generalizing ws with
  | nil =>
    cases h
    rfl
  | cons x ts ih =>
    cases x with
    | word w =>
      obtain ⟨others, rest, split⟩ : ∃ others rest, leadingWords ts = (others, rest) := ⟨_, _, rfl⟩
      rw [leadingWords, split] at h
      cases h
      rw [ih split]
      rfl
    | colon =>
      cases h
      rfl
    | bar =>
      cases h
      rfl

theorem letters_ofTokens {l : BuildLine} (read : BuildLine.ofTokens scope ts = some l) :
    ts.flatMap (Token.letters scope) = l.letters := by
  have words (ws : List (List Piece)) :
      (ws.map Token.word).flatMap (Token.letters scope) = (ws.map (evaluate scope)).flatten := by
    rw [List.flatMap_map, List.flatMap_def]
    rfl
  unfold BuildLine.ofTokens at read
  split at read
  · rename_i outputs r first
    rw [eq_of_leadingWords first]
    split at read
    · rename_i rule inputs second
      cases read
      rw [eq_of_leadingWords second]
      simp [words, Token.letters, BuildLine.letters]
    · rename_i rule inputs r second
      rw [eq_of_leadingWords second]
      split at read
      · rename_i implicit third
        cases read
        rw [eq_of_leadingWords third]
        simp [words, Token.letters, BuildLine.letters]
      · cases read
    · cases read
  · cases read

theorem isNameChar_of_isBlank (blank : isBlank c = true) : isNameChar c = false := by
  rw [Bool.eq_false_iff]
  intro letter
  simp only [isNameChar, Char.isAlphanum, Bool.or_eq_true, beq_iff_eq] at letter
  rcases letter with ((letter | digit) | rfl) | rfl
  · rw [isBlank_of_isAlpha letter] at blank
    cases blank
  · obtain ⟨low, high⟩ := Bool.and_eq_true_iff.1 digit
    have low : 48 ≤ c.toNat := of_decide_eq_true low
    have high : c.toNat ≤ 57 := of_decide_eq_true high
    simp only [isBlank, Bool.or_eq_true, Bool.and_eq_true, decide_eq_true_eq, beq_iff_eq] at blank
    omega
  · cases blank
  · cases blank

theorem getLast?_escaped (p : Text) : (escaped p).getLast? = p.getLast? := by
  rcases List.eq_nil_or_concat p with rfl | ⟨front, c, rfl⟩
  · rfl
  · have shape : escaped (front ++ [c]) = escaped front ++ escapedChar c := by
      simp [escaped]
    rw [List.concat_eq_append, shape, List.getLast?_concat, escapedChar]
    split
    · simp [List.getLast?_append]
    · rw [List.getLast?_concat]

theorem trimEnd_line {e : Edge} (h : e.Nameable) :
    trimEnd e.line = "build " ++ trimEnd e.body := by
  rw [Edge.line_eq h, trimEnd_append (c := ':') _ (by simp [Edge.body]) rfl]

theorem getLast?_of_suffix {α : Type} {s x : List α} (some : s ≠ []) (h : s <:+ x) :
    x.getLast? = s.getLast? := by
  obtain ⟨front, rfl⟩ := h
  rw [List.getLast?_append, List.getLast?_eq_some_getLast some, Option.some_or]

theorem Edge.Nameable.lastPath_ne_nil {e : Edge} (h : e.Nameable) : e.lastPath ≠ [] := by
  unfold Edge.lastPath
  split
  · rename_i a last
    rcases List.mem_append.1 (List.mem_of_getLast? last) with member | member
    · exact (h.inputs a member).filled
    · exact (h.implicit a member).filled
  · exact (nameable_ruleName e.rule).filled

theorem getLast?_body {e : Edge} (h : e.Nameable) : e.body.getLast? = e.lastPath.getLast? := by
  have some : escaped e.lastPath ≠ [] := fun none =>
    h.lastPath_ne_nil (List.getLast?_eq_none_iff.1 (by rw [← getLast?_escaped, none]; rfl))
  rw [getLast?_of_suffix some (suffix_body e).1, getLast?_escaped]

/-- Pieces that mean what an edge means lack none of its characters. -/
theorem forall_isEnd_of_ofTokens {e : Edge} (h : e.Nameable) (split : e.pieces = ps ++ qs)
    (read : BuildLine.ofTokens scope (tokens [] ps) = some (e.meaning scope)) :
    evaluate scope (qs.filter (!·.isEnd)) = [] := by
  have part := letters_ofTokens read
  have whole := letters_ofTokens (ofTokens_pieces h scope)
  rw [← part, split, letters_tokens, letters_tokens, List.filter_append, evaluate_append,
    ← List.append_assoc] at whole
  exact List.append_right_eq_self.1 whole

/-- If a path ends in a blank, a line without the blanks at its end can only be read if that blank
is none that was escaped. -/
theorem exists_pieces_of_lex {e : Edge} (h : e.Nameable) (last : e.lastPath.getLast? = some c)
    (blank : isBlank c = true) (spelled : lex .text (trimEnd e.body) = some ps) :
    ∃ qs, e.pieces = ps ++ qs ∧ .plain c ∈ qs ∧ Piece.ofChar c = .plain c := by
  obtain ⟨blanks, all, split⟩ := exists_trimEnd e.body
  have plain : ∀ c ∈ blanks, c ≠ '$' ∧ isNameChar c = false := fun c member =>
    ⟨fun dollar => absurd (all c member) (by rw [dollar]; decide),
      isNameChar_of_isBlank (all c member)⟩
  have pieces : e.pieces = ps ++ blanks.map .plain := by
    have whole := lex_append_plain plain spelled
    rw [← split, lex_body] at whole
    exact Option.some.inj whole
  rw [← getLast?_body h] at last
  have some : blanks ≠ [] := by
    intro none
    rw [none, List.append_nil] at split
    have solid := isBlank_getLast?_trimEnd e.body c (split ▸ last)
    rw [solid] at blank
    cases blank
  have here : blanks.getLast? = .some c := by
    rw [← last, split, List.getLast?_append, List.getLast?_eq_some_getLast some, Option.some_or]
  -- the same piece, seen from the path and from the blanks
  have ends := getLast?_of_suffix (by simpa using h.lastPath_ne_nil) (suffix_body e).2
  rw [List.getLast?_map, ← getLast?_body h, last, pieces, List.getLast?_append,
    List.getLast?_map, here] at ends
  exact ⟨_, pieces, List.mem_map_of_mem (List.mem_of_getLast? here), (Option.some.inj ends).symm⟩

/-- A line without the blanks at its end is still read as what its edge means exactly if there were
none. -/
theorem BuildLine.read_trimEnd_iff {e : Edge} (h : e.Nameable) (scope : Bindings) :
    BuildLine.read scope (trimEnd e.line) = some (e.meaning scope) ↔
      ∀ c ∈ e.lastPath.getLast?, isBlank c = false := by
  rw [trimEnd_line h, read_build]
  constructor
  · intro read c last
    obtain ⟨ps, spelled, read⟩ := Option.bind_eq_some_iff.1 read
    by_contra solid
    rw [Bool.not_eq_false] at solid
    obtain ⟨qs, pieces, member, plain⟩ := exists_pieces_of_lex h last solid spelled
    have bar : c ≠ '|' := by
      rintro rfl
      cases solid
    have inside : (Piece.plain c).isEnd = false := plain ▸ Piece.isEnd_ofChar bar
    have kept : c ∈ evaluate scope (qs.filter (!·.isEnd)) := List.mem_flatMap.2
      ⟨.plain c, List.mem_filter.2 ⟨member, by rw [inside]; rfl⟩, List.mem_singleton_self c⟩
    rw [forall_isEnd_of_ofTokens h pieces read] at kept
    cases kept
  · intro solid
    rw [← getLast?_body h] at solid
    rw [trimEnd_eq_self solid, lex_body, Option.bind_some, ofTokens_pieces h]

/-- Without a space that it escapes, a dollar sign stands alone. -/
theorem BuildLine.read_trimEnd_eq_none {e : Edge} (h : e.Nameable)
    (last : e.lastPath.getLast? = some ' ') (scope : Bindings) :
    BuildLine.read scope (trimEnd e.line) = none := by
  rw [trimEnd_line h, read_build, Option.bind_eq_none_iff]
  intro ps spelled
  obtain ⟨_, -, -, plain⟩ := exists_pieces_of_lex h last rfl spelled
  cases plain

theorem feed_not_mem_text {a : Artifact} (free : '\n' ∉ a.path) : '\n' ∉ a.text := by
  rw [Artifact.text, List.mem_append, not_or]
  refine ⟨by cases a.place <;> decide, fun member => ?_⟩
  obtain ⟨c, inside, here⟩ := List.mem_flatMap.1 member
  have same : c = '\n' := by
    unfold escapedChar at here
    split at here <;> simpa [eq_comm] using here
  exact free (same ▸ inside)

theorem feed_not_mem_line {e : Edge} (h : e.Nameable)
    (free : ∀ a ∈ e.output :: (e.inputs ++ e.implicit), '\n' ∉ a.path) : '\n' ∉ e.line := by
  have listed {as : List Artifact} (free : ∀ a ∈ as, '\n' ∉ a.path) :
      '\n' ∉ (as.map Artifact.text).flatMap (' ' :: ·) := by
    simpa [List.mem_flatMap] using fun a member => feed_not_mem_text (free a member)
  have rule : '\n' ∉ (Artifact.ofProject e.rule.text).path := by cases e.rule <;> decide
  simp only [List.mem_cons, List.mem_append, or_imp, forall_and] at free
  have words := listed (List.forall_mem_cons.2 ⟨rule, free.2.1⟩)
  have last : '\n' ∉ (if e.implicit = [] then [] else
      ' ' :: '|' :: (e.implicit.map Artifact.text).flatMap (' ' :: ·) : Text) := by
    split
    · exact List.not_mem_nil
    · simpa using listed free.2.2
  have body : '\n' ∉ e.body := by
    simp only [Edge.body, List.mem_append, List.mem_cons, not_or]
    exact ⟨feed_not_mem_text (free.1 _ rfl), by decide, by decide, words, last⟩
  rw [Edge.line_eq h, List.mem_append, not_or]
  exact ⟨by decide, body⟩

end BuildMatrix.Ninja
