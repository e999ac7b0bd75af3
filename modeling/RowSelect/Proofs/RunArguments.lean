import RowSelect.Command.Arguments

/-!
Command lines that run queries. Options may stand in front of the command and, behind it, in front
of the queries, between them and after them; what does not begin with a dash is a query.
-/

set_option autoImplicit false

namespace RowSelect.Command

/-- The arguments behind the command: queries in their order and, anywhere among them, arguments
that are options with their values. The options are those set before and those set after. -/
inductive RunArguments : Options → List String → List String → Options → Prop where
  | done (o : Options) : RunArguments o [] [] o
  | query {o o' : Options} {query : String} {args queries : List String}
      (h : query.toList.head? ≠ some '-') (more : RunArguments o args queries o') :
      RunArguments o (query :: args) (query :: queries) o'
  | options {o o₁ o' : Options} {given args queries : List String}
      (h : readPlace (some "run") o [] given = .done o₁ [] false)
      (more : RunArguments o₁ args queries o') : RunArguments o (given ++ args) queries o'

theorem ofString_eq_word {arg : String} (h : arg.toList.head? ≠ some '-') :
    Argument.ofString arg = .word arg := by
  unfold Argument.ofString
  split
  · next hdivider => simp [hdivider] at h
  · next hlong => simp [hlong] at h
  · next hshort => simp [hshort] at h
  · rfl

/-- Arguments that are read to their end can be followed by others, which are read from there on. In
front of a command this holds as long as there is no word. -/
theorem readPlace_append {command : Option String} {o o' : Options}
    {words words' args : List String}
    (h : readPlace command o words args = .done o' words' false)
    (hcommand : command = none ∧ words' = [] ∨ command = some "run")
    (earlier more : List String) :
    readPlace command o (earlier ++ words) (args ++ more) =
      readPlace command o' (earlier ++ words') more := by
  fun_induction readPlace command o words args with
  | case1 o words =>
    cases h
    rfl
  | case2 o words arg rest text harg hnone =>
    cases h
    rcases hcommand with ⟨-, hwords⟩ | hrun
    · cases hwords
    · cases hnone.symm.trans hrun
  | case4 o words arg rest text harg c hsome hfew ih =>
    subst hsome
    rw [List.cons_append, readPlace]
    rcases hcommand with ⟨hnone, -⟩ | hrun
    · cases hnone
    · cases hrun
      simpa [harg, maxWords] using ih h
  | case7 o words arg rest harg hunset ih =>
    rw [List.cons_append, readPlace]
    simpa [harg, hunset] using ih h
  | case8 o words arg rest option value harg o₁ hset ih =>
    rw [List.cons_append, readPlace]
    simpa [harg, hset] using ih h
  | case11 o words arg option harg value rest text o₁ hset hvalue ih =>
    rw [List.cons_append, readPlace]
    simpa [harg, hset, hvalue] using ih h
  | _ => cases h

theorem RunArguments.readPlace_eq {o o' : Options} {args queries : List String}
    (h : RunArguments o args queries o') (words : List String) :
    readPlace (some "run") o words args = .done o' (words ++ queries) false := by
  induction h generalizing words with
  | done o => rw [readPlace, List.append_nil]
  | @query o o' query args queries h _ ih =>
    rw [readPlace, ofString_eq_word h]
    simpa [maxWords] using ih (words ++ [query])
  | @options o o₁ o' given args queries h _ ih =>
    have happend := readPlace_append h (.inr rfl) words args
    rw [List.append_nil] at happend
    rw [happend, ih words]

theorem RunArguments.ofArguments_eq {before args queries : List String} {o₁ o₂ : Options}
    {fromVariable : Option String} (h : RunArguments {} args queries o₂)
    (hbefore : readPlace none {} [] before = .done o₁ [] false) (hne : queries ≠ [])
    (hadmits : o₁.admits fromVariable = true ∧ o₂.admits fromVariable = true) :
    Invocation.ofArguments (before ++ "run" :: args) fromVariable =
      .perform (o₁.merge o₂ fromVariable) (.run queries) := by
  have hcommand : readPlace none {} [] (before ++ "run" :: args) =
      .done o₁ ("run" :: args) false := by
    have happend := readPlace_append hbefore (.inl ⟨rfl, rfl⟩) [] ("run" :: args)
    rw [List.append_nil] at happend
    rw [happend, readPlace, ofString_eq_word (by decide)]
  have hplace := h.readPlace_eq []
  rw [List.nil_append] at hplace
  obtain ⟨query, more, rfl⟩ := List.exists_cons_of_ne_nil hne
  rw [Invocation.ofArguments, hcommand]
  simp [commands, hplace, Task.ofWords?, hadmits]

end RowSelect.Command
