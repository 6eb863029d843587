import BuildMatrix.Proofs.Ninja.Reading

/-! Variables that the lines of a script bind outside of rules and edges. A value is evaluated where
it stands, so a variable has the value of its last binding, made of what the variables in it had as
values before. -/

set_option autoImplicit false

namespace BuildMatrix.Ninja

open Text

def isIdentifierChar (c : Char) : Bool := isNameChar c || c == '.'

def isSpace (c : Char) : Bool := c == ' '

/-- The words that begin lines of other kinds. -/
def keywords : List Text := ["build", "rule", "default", "pool", "include", "subninja"]

/-- The name and the value of a binding that is not indented. -/
def binding? (line : Text) : Option (Text × Text) :=
  let name := line.takeWhile isIdentifierChar
  match (line.dropWhile isIdentifierChar).dropWhile isSpace with
  | '=' :: value =>
    if name = [] ∨ name ∈ keywords then none else some (name, value.dropWhile isSpace)
  | _ => none

/-- What variables stand for after a line. -/
def Bindings.after (scope : Bindings) (line : Text) : Bindings :=
  match binding? line with
  | none => scope
  | some (name, value) =>
    match lex .text value with
    | none => scope
    | some ps => fun n => if n = name then evaluate scope ps else scope n

def Bindings.ofLines (ls : List Text) : Bindings := ls.foldl Bindings.after fun _ => []

variable {scope : Bindings} {name value t l : Text} {ls : List Text} {ps : List Piece}

structure IsVariable (name : Text) : Prop where
  filled : name ≠ []
  letters : ∀ c ∈ name, isIdentifierChar c = true
  noKeyword : name ∉ keywords

/-! ### Single lines -/

theorem lex_of_no_dollar (plain : '$' ∉ t) : lex .text t = some (t.map .plain) := by
  induction t with
  | nil => rfl
  | cons c t ih =>
    obtain ⟨first, rest⟩ := not_or.1 (List.mem_cons.not.1 plain)
    rw [lex_cons_plain (Ne.symm first), ih rest]
    rfl

theorem evaluate_plain (scope : Bindings) (t : Text) : evaluate scope (t.map .plain) = t := by
  simp [evaluate, List.flatMap_map, Piece.text]

theorem takeWhile_identifier (letters : ∀ c ∈ name, isIdentifierChar c = true) {c : Char}
    (ends : isIdentifierChar c = false) (r : Text) :
    (name ++ c :: r).takeWhile isIdentifierChar = name ∧
      (name ++ c :: r).dropWhile isIdentifierChar = c :: r := by
  rw [List.takeWhile_append_of_pos letters, List.dropWhile_append_of_pos letters]
  simp [ends]

theorem trimEnd_bindingText (name value : Text) :
    trimEnd (bindingText (name, value)) = name ++ ' ' :: '=' :: trimEnd (' ' :: value) := by
  have text : bindingText (name, value) = (name ++ [' ']) ++ '=' :: ' ' :: value := by
    simp [bindingText]
  rw [text, trimEnd_append_cons _ _ rfl, List.append_assoc]
  rfl

theorem binding?_trimEnd (h : IsVariable name) (value : Text) :
    binding? (trimEnd (bindingText (name, value))) =
      some (name, (trimEnd value).dropWhile isSpace) := by
  obtain ⟨letters, rest⟩ :=
    takeWhile_identifier h.letters (c := ' ') rfl ('=' :: trimEnd (' ' :: value))
  have named : ¬ (name = [] ∨ name ∈ keywords) := not_or.2 ⟨h.filled, h.noKeyword⟩
  rw [trimEnd_bindingText, binding?, letters, rest, List.dropWhile_cons_of_pos rfl,
    List.dropWhile_cons_of_neg (by decide), ← dropWhile_trimEnd_cons rfl value]
  exact if_neg named

theorem binding?_keyword (known : name ∈ keywords) (r : Text) :
    binding? (name ++ ' ' :: r) = none := by
  have each : keywords.all (·.all isIdentifierChar) = true := by decide
  have letters : ∀ c ∈ name, isIdentifierChar c = true :=
    List.all_eq_true.1 (List.all_eq_true.1 each name known)
  obtain ⟨start, rest⟩ := takeWhile_identifier letters (c := ' ') rfl r
  rw [binding?, start, rest]
  split
  · exact if_pos (.inr known)
  · rfl

/-- Indented lines belong to a rule or an edge. -/
theorem binding?_indented (r : Text) : binding? (' ' :: r) = none := by
  have start : (' ' :: r).takeWhile isIdentifierChar = [] := List.takeWhile_cons_of_neg (by decide)
  rw [binding?, start]
  split
  · exact if_pos (.inl rfl)
  · rfl

theorem binding?_inner (b : Text × Text) : binding? (trimEnd (innerBindingText b)) = none := by
  have text : innerBindingText b = (' ' :: ' ' :: b.1 ++ [' ']) ++ '=' :: ' ' :: b.2 := by
    simp [innerBindingText, bindingText]
  rw [text, trimEnd_append_cons _ _ rfl]
  exact binding?_indented _

theorem binding?_rule (r : RuleName) : binding? (trimEnd ("rule " ++ r.text)) = none := by
  cases r <;> decide

theorem binding?_line (e : Edge) : binding? (trimEnd e.line) = none := by
  have text : e.line = ("build " : Text) ++ (e.output.text ++ (" : " ++ (e.rule.text ++
      (following " " (spaced (e.inputs.map Artifact.text)) ++
        following " | " (spaced (e.implicit.map Artifact.text)))))) := by
    simp only [← List.append_assoc]
    rfl
  have keyword : ("build" : Text) ∈ keywords := by decide
  rw [text, trimEnd_append (c := ':') _ (by simp) rfl]
  exact binding?_keyword keyword _

/-- Whether the bindings of a statement are its own. -/
def Statement.isInner : Statement → Bool
  | .rule _ | .edge _ => true
  | .comment _ | .binding .. => false

/-- Rules and edges bind nothing outside of them. -/
theorem binding?_texts {s : Statement} (inner : s.isInner = true) (member : l ∈ s.texts) :
    binding? (trimEnd l) = none := by
  have bindings {bs : List (Text × Text)} (member : l ∈ bs.map innerBindingText) :
      binding? (trimEnd l) = none := by
    obtain ⟨b, -, rfl⟩ := List.mem_map.1 member
    exact binding?_inner b
  cases s with
  | comment => cases inner
  | binding => cases inner
  | rule r =>
    rcases List.mem_cons.1 member with rfl | later
    · exact binding?_rule r.name
    · exact bindings later
  | edge e =>
    rcases List.mem_cons.1 member with rfl | later
    · exact binding?_line e
    · exact bindings later

/-! ### Rows of lines -/

theorem Bindings.ofLines_append (ls ms : List Text) :
    ofLines (ls ++ ms) = ms.foldl after (ofLines ls) := List.foldl_append

theorem Bindings.foldl_after_of_none (none : ∀ l ∈ ls, binding? l = none) (scope : Bindings) :
    ls.foldl after scope = scope := by
  induction ls with
  | nil => rfl
  | cons l ls ih =>
    obtain ⟨first, rest⟩ := List.forall_mem_cons.1 none
    rw [List.foldl_cons, after, first]
    exact ih rest

theorem Bindings.after_binding (h : IsVariable name) (value : Text)
    (read : lex .text ((trimEnd value).dropWhile isSpace) = some ps) (scope : Bindings) :
    scope.after (trimEnd (bindingText (name, value))) =
      fun n => if n = name then evaluate scope ps else scope n := by
  rw [after, binding?_trimEnd h]
  dsimp only
  rw [read]

theorem isVariable_settings :
    IsVariable "builddir" ∧ IsVariable "outdir" ∧ IsVariable "resout" :=
  ⟨⟨by decide, List.all_eq_true.1 rfl, by decide⟩,
    ⟨by decide, List.all_eq_true.1 rfl, by decide⟩,
    ⟨by decide, List.all_eq_true.1 rfl, by decide⟩⟩

theorem lex_suffixed {suffix : Text} (letters : ∀ c ∈ suffix, isNameChar c = true) :
    lex .text ((trimEnd (("$builddir/" : Text) ++ suffix)).dropWhile isSpace) =
      some ([.variable "builddir", .plain '/'] ++ suffix.map .plain) := by
  have solid : ∀ c ∈ (("$builddir/" : Text) ++ suffix).getLast?, isBlank c = false := by
    rcases List.eq_nil_or_concat suffix with rfl | ⟨front, c, rfl⟩
    · rintro d ⟨⟩
      rfl
    · rw [List.concat_eq_append, ← List.append_assoc, List.getLast?_concat]
      rintro d ⟨⟩
      rw [Bool.eq_false_iff]
      intro blank
      have letter := letters c (by simp)
      rw [isNameChar_of_isBlank blank] at letter
      cases letter
  have dollar : '$' ∉ suffix := fun member => absurd (letters _ member) (by decide)
  have skipped : (("$builddir/" : Text) ++ suffix).dropWhile isSpace = "$builddir/" ++ suffix :=
    List.dropWhile_cons_of_neg (by decide)
  have read := lex_variable (n := "builddir") (c := '/') (by decide)
    (List.all_eq_true.1 rfl) rfl (by decide) suffix
  rw [lex_of_no_dollar dollar] at read
  rw [trimEnd_eq_self solid, skipped]
  exact read

/-- The directories are bound one after the other, each inside the one before. -/
theorem outdir_after {d suffix : Text} (plain : '$' ∉ d)
    (letters : ∀ c ∈ suffix, isNameChar c = true) (scope : Bindings) :
    ((scope.after (trimEnd (bindingText ("builddir", d)))).after
        (trimEnd (bindingText ("outdir", ("$builddir/" : Text) ++ suffix)))).after
          (trimEnd (bindingText ("resout", "$outdir/res"))) "outdir" =
      (trimEnd d).dropWhile isSpace ++ '/' :: suffix := by
  obtain ⟨builddir, outdir, resout⟩ := isVariable_settings
  have dollar : '$' ∉ (trimEnd d).dropWhile isSpace := fun member =>
    plain (mem_of_mem_trimEnd (List.dropWhile_subset _ member))
  have last : lex .text ((trimEnd "$outdir/res").dropWhile isSpace) =
      some [.variable "outdir", .plain '/', .plain 'r', .plain 'e', .plain 's'] := by
    decide
  rw [Bindings.after_binding resout _ last, Bindings.after_binding outdir _ (lex_suffixed letters),
    Bindings.after_binding builddir _ (lex_of_no_dollar dollar)]
  have inside (s : Bindings) : evaluate s [.variable "builddir", .plain '/'] =
      s "builddir" ++ ['/'] := rfl
  dsimp only
  rw [if_neg (by decide), if_pos rfl, evaluate_append, evaluate_plain, inside, if_pos rfl,
    evaluate_plain, List.append_assoc]
  rfl

end BuildMatrix.Ninja
