import BuildMatrix.Proofs.Script.NormalForm
import Mathlib.Data.List.Chain

/-! Scripts that are put together. However a script was assembled, by texts, blank lines or from a
whole file, its lines are in normal form, and they survive being written and read. What counts is
the text as a whole: it makes no difference where it is cut into pieces that are appended one by
one, nor how its lines end. -/

set_option autoImplicit false

namespace BuildMatrix.Script

variable {after : Bool} {s : Script} {l : Text} {ls ms : List Text}

/-- What any row of operations makes of an empty script or of a text. -/
inductive Reachable : Script → Prop where
  | empty : Reachable empty
  | ofText (t : Text) : Reachable (ofText t)
  | push {s : Script} (t : Text) : Reachable s → Reachable (s.push t)
  | blank {s : Script} : Reachable s → Reachable s.blank

structure IsNormal (ls : List Text) : Prop where
  noFeed : ∀ l ∈ ls, '\n' ∉ l
  solid : ∀ l ∈ ls, ∀ c ∈ l.getLast?, Text.isBlank c = false
  opening : ∀ l ∈ ls.head?, ¬ Text.Blanks l
  single : ls.IsChain fun l m => ¬ (Text.Blanks l ∧ Text.Blanks m)

/-- A text with carriage returns before its line feeds. -/
def withReturns (t : Text) : Text := t.flatMap fun c => if c = '\n' then ['\r', '\n'] else [c]

/-! ### Normal lines -/

theorem eq_nil_of_blanks (solid : ∀ c ∈ l.getLast?, Text.isBlank c = false)
    (blank : Text.Blanks l) : l = [] := by
  by_contra some
  have last := List.getLast?_eq_some_getLast some
  have here := solid _ last
  rw [blank _ (List.getLast_mem some)] at here
  cases here

theorem Tidy.solid (h : Tidy after ls) (member : l ∈ ls) :
    ∀ c ∈ l.getLast?, Text.isBlank c = false :=
  h.trimEnd member ▸ Text.isBlank_getLast?_trimEnd l

theorem Tidy.single (h : Tidy after ls) :
    ls.IsChain fun l m => ¬ (Text.Blanks l ∧ Text.Blanks m) := by
  induction ls generalizing after with
  | nil => exact .nil
  | cons l r ih =>
    obtain ⟨-, -, rest⟩ := id h
    cases r with
    | nil => exact .singleton l
    | cons m r =>
      refine .cons_cons (fun both => ?_) (ih rest)
      have first := eq_nil_of_blanks (h.solid List.mem_cons_self) both.1
      have second := eq_nil_of_blanks (rest.solid List.mem_cons_self) both.2
      exact rest.2.1 ⟨second, by simp [first]⟩

theorem Assembled.isNormal (h : s.Assembled) : IsNormal s.appended where
  noFeed := h.noFeed
  solid := fun _ member => h.tidy.solid member
  opening := by
    intro l first blank
    obtain ⟨r, shape⟩ := List.head?_eq_some_iff.1 first
    have tidy := h.tidy
    rw [shape] at tidy
    exact tidy.2.1 ⟨eq_nil_of_blanks (tidy.solid List.mem_cons_self) blank, rfl⟩
  single := h.tidy.single

theorem IsNormal.of_prefix (h : IsNormal ms) (start : ls <+: ms) : IsNormal ls where
  noFeed := fun l member => h.noFeed l (start.subset member)
  solid := fun l member => h.solid l (start.subset member)
  opening := by
    intro l first
    obtain ⟨r, rfl⟩ := List.head?_eq_some_iff.1 first
    obtain ⟨rest, rfl⟩ := start
    exact h.opening l rfl
  single := h.single.prefix start

theorem lines_prefix (s : Script) : s.lines <+: s.appended := by
  unfold lines
  split
  · exact List.dropLast_prefix _
  · exact List.prefix_rfl

/-! ### Operations -/

theorem Assembled.append (h : s.Assembled) (free : ∀ l ∈ ls, '\n' ∉ l) :
    (s.append ls).Assembled := by
  -- a tidy script is what its own lines make of the empty one
  have whole : s = empty.append s.appended := by
    rw [empty_append, normalize_of_tidy h.tidy]
  rw [whole, append_append, empty_append]
  exact ⟨feed_not_mem_normalize (List.forall_mem_append.2 ⟨h.noFeed, free⟩), tidy_normalize _ _⟩

theorem Assembled.push (h : s.Assembled) (t : Text) : (s.push t).Assembled :=
  h.append fun _ piece => Text.not_mem_of_mem_splitOn piece

theorem Reachable.assembled (h : Reachable s) : s.Assembled := by
  induction h with
  | empty => exact assembled_pushAll []
  | ofText t => exact assembled_pushAll _
  | push t _ ih => exact ih.push t
  | blank _ ih => exact ih.push []

theorem push_push (s : Script) (a b : Text) : (s.push a).push b = s.push (a ++ '\n' :: b) := by
  have cut : (a ++ '\n' :: b).splitOn '\n' = a.splitOn '\n' ++ b.splitOn '\n' :=
    List.splitOnP_append_cons a b (by simp)
  rw [push, push, push, append_append, cut]

/-! ### Texts -/

theorem append_singleton (s : Script) {l m : Text} (same : Text.trimEnd l = Text.trimEnd m) :
    s.append [l] = s.append [m] := by
  simp only [append, normalize, same]

/-- A blank line at the end is not part of the script yet. -/
theorem lines_append_blank (s : Script) : (s.append [[]]).lines = s.lines := by
  by_cases ends : s.endsBlank = true
  · simp [append, normalize, Text.trimEnd, ends]
  · have last : s.appended.getLast? ≠ some [] := fun blank => ends (by simp [endsBlank, blank])
    have more : (s.append [[]]).appended = s.appended ++ [[]] := by
      simp [append, normalize, Text.trimEnd, ends]
    rw [lines, more, List.getLast?_concat, if_pos rfl, List.dropLast_concat, lines, if_neg last]

/-- The lines of a text are its pieces, but for blanks at the ends of lines and at the end. -/
theorem lines_append_linesOfPieces (s : Script) (ls : List Text) :
    (s.append (Text.linesOfPieces ls)).lines = (s.append ls).lines := by
  -- what was appended decides about the next line, so the script is not fixed in the induction
  induction ls generalizing s with
  | nil => rfl
  | cons l r ih =>
    cases r with
    | nil =>
      rw [Text.linesOfPieces]
      split
      · rename_i empty
        rw [empty, lines_append_blank]
        simp [append, normalize]
      · rfl
    | cons m r =>
      rw [Text.linesOfPieces, append_cons, ih, append_cons s l,
        append_singleton s (Text.trimEnd_dropReturn l)]

theorem lines_ofText (t : Text) : (ofText t).lines = (empty.push t).lines := by
  rw [ofText_eq, ← empty_append, Text.lines, lines_append_linesOfPieces]
  rfl

theorem trimEnd_cons_trimEnd (c : Char) (t : Text) :
    Text.trimEnd (c :: Text.trimEnd t) = Text.trimEnd (c :: t) := by
  obtain ⟨blanks, blank, split⟩ := Text.exists_trimEnd t
  calc Text.trimEnd (c :: Text.trimEnd t)
      = Text.trimEnd ((c :: Text.trimEnd t) ++ blanks) := (Text.trimEnd_append_blanks blank).symm
    _ = Text.trimEnd (c :: t) := by rw [List.cons_append, ← split]

theorem splitOn_withReturns (t : Text) :
    ((withReturns t).splitOn '\n').map Text.trimEnd = (t.splitOn '\n').map Text.trimEnd := by
  induction t with
  | nil => rfl
  | cons c t ih =>
    have cut (u : Text) : (c :: u).splitOn '\n' =
        if c = '\n' then [] :: u.splitOn '\n' else (u.splitOn '\n').modifyHead (c :: ·) := by
      simp only [List.splitOn_eq_splitOnP, List.splitOnP_cons_eq_if_modifyHead, beq_iff_eq]
    by_cases feed : c = '\n'
    · -- the piece before the line feed is a carriage return instead of nothing
      have shape : withReturns (c :: t) = ['\r'] ++ '\n' :: withReturns t := by
        simp [withReturns, feed]
      rw [shape, List.splitOn_append_cons_self_of_not_mem (by decide), cut, if_pos feed,
        List.map_cons, List.map_cons, ih]
      rfl
    · have shape : withReturns (c :: t) = c :: withReturns t := by simp [withReturns, feed]
      obtain ⟨p, ps, one⟩ := List.exists_cons_of_ne_nil (List.splitOn_ne_nil '\n' t)
      obtain ⟨q, qs, other⟩ :=
        List.exists_cons_of_ne_nil (List.splitOn_ne_nil '\n' (withReturns t))
      rw [one, other, List.map_cons, List.map_cons, List.cons.injEq] at ih
      rw [shape, cut, cut, if_neg feed, if_neg feed, one, other, List.modifyHead_cons,
        List.modifyHead_cons, List.map_cons, List.map_cons, ih.2, ← trimEnd_cons_trimEnd, ih.1,
        trimEnd_cons_trimEnd]

theorem normalize_map_trimEnd (after : Bool) (ls : List Text) :
    normalize after (ls.map Text.trimEnd) = normalize after ls := by
  induction ls generalizing after with
  | nil => rfl
  | cons l r ih =>
    have twice : Text.trimEnd (Text.trimEnd l) = Text.trimEnd l :=
      Text.trimEnd_eq_self (Text.isBlank_getLast?_trimEnd l)
    simp only [List.map_cons, normalize, twice, ih]

theorem push_withReturns (t : Text) : empty.push (withReturns t) = empty.push t := by
  rw [push, push, empty_append, empty_append, ← normalize_map_trimEnd, splitOn_withReturns,
    normalize_map_trimEnd]

/-- Assembled scripts are in normal form, and a text has the same normal form whether it is read
line by line or appended as a whole, and however its lines end. -/
theorem reachable_normal :
    (∀ s, Reachable s → IsNormal s.appended ∧ IsNormal s.lines ∧
      (ofText s.text).lines = s.lines ∧
        ∀ a b, (s.push a).push b = s.push (a ++ '\n' :: b)) ∧
    ∀ t, (ofText t).lines = (empty.push t).lines ∧
      (ofText (ofText t).text).lines = (ofText t).lines ∧
        (ofText (withReturns t)).lines = (ofText t).lines := by
  refine ⟨fun s reached => ?_, fun t => ⟨lines_ofText t, ?_, ?_⟩⟩
  · have normal := reached.assembled.isNormal
    exact ⟨normal, normal.of_prefix s.lines_prefix, lines_ofText_text reached.assembled,
      push_push s⟩
  · exact lines_ofText_text (Reachable.ofText t).assembled
  · rw [lines_ofText, push_withReturns, ← lines_ofText]

/-- A file with blank lines in a row is read, and a paragraph is added to it. -/
theorem reachable_normal_edited :
    let s := ((ofText "a \r\n\r\n\t\r\nb").blank.push "\n\nc\t").blank
    s.lines = ["a", "", "b", "", "c"] ∧ IsNormal s.lines ∧ (ofText s.text).lines = s.lines ∧
      (s.push "d").push " e" = s.push "d\n e" ∧
        (ofText (withReturns "a\n\n b\t\n")).lines = ["a", "", " b"] := by
  intro s
  obtain ⟨scripts, texts⟩ := reachable_normal
  obtain ⟨-, normal, reread, pushed⟩ := scripts s (((Reachable.ofText _).blank.push _).blank)
  refine ⟨by decide +kernel, normal, reread, pushed _ _, ?_⟩
  rw [(texts _).2.2]
  decide +kernel

end BuildMatrix.Script
