import Scriptlet.Proofs.Measure

/-!
# Passing over what is enclosed, step by step

The pass that finds the ends of strings, templates and expressions keeps what is open on a
stack, and only ever looks at the top of it. It goes in steps, of one code point or of two:
a step tells what is open afterwards in the place of what was on top. A text *leads* from
one stack to another if the steps over it do.

Two things follow from this that the measure alone does not show. A text leads between two
stacks whatever lies below them. And what lies on top is closed before anything below it
changes, so that a text which closes everything can be cut where the top is closed.

What follows a text matters in one place: a dollar sign opens an expression only before a
brace. A text that does not end inside a template leads to the same stack before anything.
-/

namespace Scriptlet

namespace Enclosure

/-! ## Steps -/

/-- **One step** over a text that starts with a given code point, inside something open:
how many code points it takes, and what is open then in the place of this. -/
def step? : Enclosure → CodePoint → Text → Option (Nat × List Enclosure)
  | string quote, c, _ =>
    if c == '\\' then some (2, [string quote])
    else if c == quote then some (1, [])
    else if c == '\n' then none
    else some (1, [string quote])
  | template, c, rest =>
    if c == '\\' then some (2, [template])
    else if c == backtick then some (1, [])
    else if c == '$' && rest.head? == some openBrace then some (2, [braces 0, template])
    else some (1, [template])
  | braces depth, c, _ =>
    if c == doubleQuote || c == singleQuote then some (1, [string c, braces depth])
    else if c == backtick then some (1, [template, braces depth])
    else if c == openBrace then some (1, [braces (depth + 1)])
    else if c == closeBrace then
      match depth with
      | 0 => some (1, [])
      | depth + 1 => some (1, [braces depth])
    else some (1, [braces depth])

/-- A step in a template goes by what follows only if that decides about a dollar sign. -/
theorem step?_template (c : CodePoint) (rest : Text) :
    template.step? c rest =
      if c == '\\' then some (2, [template])
      else if c == backtick then some (1, [])
      else if c == '$' && rest.head? == some openBrace then some (2, [braces 0, template])
      else some (1, [template]) := rfl

/-- **What a step in a template can be**: over a backslash and what this hides, over the backtick
that ends the template, over the sign that opens an expression, or over any other code point. -/
theorem step?_template_cases {c : CodePoint} {rest : Text} {k : Nat} {inner : List Enclosure}
    (h : template.step? c rest = some (k, inner)) :
    (c = '\\' ∧ k = 2 ∧ inner = [template])
      ∨ (c = backtick ∧ k = 1 ∧ inner = [])
      ∨ (c = '$' ∧ rest.head? = some openBrace ∧ k = 2 ∧ inner = [braces 0, template])
      ∨ (c ≠ '\\' ∧ (c = '$' → rest.head? ≠ some openBrace) ∧ k = 1 ∧ inner = [template]) := by
  rw [step?_template] at h
  split at h
  · rename_i escape
    cases h
    exact .inl ⟨beq_iff_eq.mp escape, rfl, rfl⟩
  rename_i escape
  split at h
  · rename_i close
    cases h
    exact .inr (.inl ⟨beq_iff_eq.mp close, rfl, rfl⟩)
  split at h
  · rename_i opens
    cases h
    obtain ⟨dollar, brace⟩ := Bool.and_eq_true_iff.mp opens
    exact .inr (.inr (.inl ⟨beq_iff_eq.mp dollar, beq_iff_eq.mp brace, rfl, rfl⟩))
  · rename_i plain
    cases h
    refine .inr (.inr (.inr ⟨fun same => escape (beq_iff_eq.mpr same), ?_, rfl, rfl⟩))
    exact fun dollar brace =>
      plain (Bool.and_eq_true_iff.mpr ⟨beq_iff_eq.mpr dollar, beq_iff_eq.mpr brace⟩)

/-- A step takes one code point, or it takes two and leaves something open. -/
theorem step?_length {e : Enclosure} {c : CodePoint} {rest : Text} {k : Nat}
    {inner : List Enclosure} (h : e.step? c rest = some (k, inner)) :
    k = 1 ∨ (k = 2 ∧ inner ≠ []) := by
  have one {inner' : List Enclosure} (h : some (1, inner') = some (k, inner)) :
      k = 1 ∨ (k = 2 ∧ inner ≠ []) := by
    cases h
    exact .inl rfl
  have two {e' : Enclosure} {inner' : List Enclosure}
      (h : some (2, e' :: inner') = some (k, inner)) : k = 1 ∨ (k = 2 ∧ inner ≠ []) := by
    cases h
    exact .inr ⟨rfl, List.cons_ne_nil _ _⟩
  unfold step? at h
  repeat' split at h
  all_goals first | exact one h | exact two h | cases h

/-- The open strings of a stack **are in quotes**. -/
def Quoted (stack : List Enclosure) : Prop :=
  ∀ quote, string quote ∈ stack → quote = doubleQuote ∨ quote = singleQuote

theorem measure_nil (n : Nat) (t : Text) : measure [] n t = some n := by
  unfold measure
  rfl

theorem measure_cons_nil (e : Enclosure) (outer : List Enclosure) (n : Nat) :
    measure (e :: outer) n [] = none := by
  unfold measure
  rfl

/-- **The measure goes on from what a step leaves**, with the rest of the stack unchanged. -/
theorem measure_cons_cons (e : Enclosure) (outer : List Enclosure) (n : Nat) (c : CodePoint)
    (rest : Text) :
    measure (e :: outer) n (c :: rest) =
      (e.step? c rest).bind fun step =>
        measure (step.2 ++ outer) (n + step.1) ((c :: rest).drop step.1) := by
  unfold step?
  rw [measure.eq_def]
  cases e with
  | string quote =>
    dsimp only
    by_cases escape : (c == ('\\' : CodePoint)) = true
    · rw [if_pos escape, if_pos escape]
      -- Behind a backslash that is the last, a step leaves nothing, with the string still open.
      cases rest with
      | nil => exact (measure_cons_nil (string quote) outer (n + 2)).symm
      | cons d rest => rfl
    rw [if_neg escape, if_neg escape]
    split
    · rfl
    split
    · rfl
    · rfl
  | template =>
    dsimp only
    by_cases escape : (c == ('\\' : CodePoint)) = true
    · rw [if_pos escape, if_pos escape]
      cases rest with
      | nil => exact (measure_cons_nil template outer (n + 2)).symm
      | cons d rest => rfl
    rw [if_neg escape, if_neg escape]
    split
    · rfl
    -- The measure looks for the brace behind a dollar sign, the step for both at once.
    by_cases dollar : (c == ('$' : CodePoint)) = true
    · rw [if_pos dollar, dollar, Bool.true_and]
      cases rest with
      | nil => exact (measure_cons_nil template outer (n + 1)).symm
      | cons d rest =>
        show (if d == openBrace then _ else _) = _
        rw [List.head?_cons, Option.some_beq_some]
        split
        · rfl
        · rfl
    · rw [if_neg dollar, Bool.eq_false_iff.mpr dollar, Bool.false_and]
      rfl
  | braces depth =>
    -- The same tests are made on both sides, one after the other.
    cases depth <;> (dsimp only; repeat' split) <;> rfl

/-! ## Runs of steps -/

/-- A text **leads** from one stack to another, before what follows it: the steps over the
text go from the one to the other. -/
inductive Leads (following : Text) : List Enclosure → Text → List Enclosure → Prop
  | stay (stack : List Enclosure) : Leads following stack [] stack
  | step {e : Enclosure} {c : CodePoint} {part more : Text} {inner outer stack : List Enclosure}
    (here : e.step? c (part ++ (more ++ following)) = some (part.length + 1, inner))
    (later : Leads following (inner ++ outer) more stack) :
    Leads following (e :: outer) (c :: (part ++ more)) stack

namespace Leads

variable {following t u : Text} {stack stack' stack'' : List Enclosure}

/-- A step over one code point. -/
theorem one {e : Enclosure} {c : CodePoint} {inner outer : List Enclosure}
    (here : e.step? c (t ++ following) = some (1, inner))
    (later : Leads following (inner ++ outer) t stack) :
    Leads following (e :: outer) (c :: t) stack :=
  step (show e.step? c ([] ++ (t ++ following)) = some (List.length [] + 1, inner) from here) later

/-- A step over two code points. -/
theorem two {e : Enclosure} {c d : CodePoint} {inner outer : List Enclosure}
    (here : e.step? c (d :: (t ++ following)) = some (2, inner))
    (later : Leads following (inner ++ outer) t stack) :
    Leads following (e :: outer) (c :: d :: t) stack :=
  step (show e.step? c ([d] ++ (t ++ following)) = some (List.length [d] + 1, inner) from here) later

/-- **The measure goes on behind what leads** to another stack. -/
theorem measure_eq (h : Leads following stack t stack') (n : Nat) :
    measure stack n (t ++ following) = measure stack' (n + t.length) following := by
  induction h generalizing n with
  | stay => rfl
  | @step e c part more inner outer stack here _ ih =>
    have left : (c :: (part ++ (more ++ following))).drop (part.length + 1) = more ++ following := by
      rw [List.drop_succ_cons, List.drop_left]
    rw [List.cons_append, List.append_assoc, measure_cons_cons, here, Option.bind_some]
    dsimp only
    rw [left, ih, List.length_cons, List.length_append]
    congr 1
    omega

/-- What lies below takes no part. -/
theorem under (h : Leads following stack t stack') (outer : List Enclosure) :
    Leads following (stack ++ outer) t (stack' ++ outer) := by
  induction h with
  | stay => exact .stay _
  | step here _ ih =>
    rw [List.append_assoc] at ih
    exact .step here ih

/-- One text after another. -/
theorem append (first : Leads (u ++ following) stack t stack')
    (second : Leads following stack' u stack'') : Leads following stack (t ++ u) stack'' := by
  induction first with
  | stay => exact second
  | step here _ ih =>
    rw [List.cons_append, List.append_assoc]
    refine .step ?_ (ih second)
    rwa [List.append_assoc]

/-- **What is on top is closed first**: a text that closes everything closes what is on top,
and then what lies below. -/
theorem cut {top outer : List Enclosure} (h : Leads following (top ++ outer) t []) :
    ∃ read more, t = read ++ more ∧ Leads (more ++ following) top read []
      ∧ Leads following outer more [] := by
  generalize hstack : top ++ outer = stack at h
  generalize hclosed : ([] : List Enclosure) = closed at h
  induction h generalizing top with
  | stay stack =>
    subst hclosed
    obtain ⟨rfl, rfl⟩ := List.append_eq_nil_iff.mp hstack
    exact ⟨[], [], rfl, .stay [], .stay []⟩
  | @step e c part more inner below stack here later ih =>
    cases top with
    | nil =>
      subst hclosed hstack
      exact ⟨[], c :: (part ++ more), rfl, .stay [], .step here later⟩
    | cons e' top =>
      obtain ⟨rfl, rfl⟩ := List.cons.inj hstack
      obtain ⟨read, more', rfl, closes, below⟩ := ih (List.append_assoc ..) hclosed
      refine ⟨c :: (part ++ read), more', ?_, .step ?_ closes, below⟩
      · rw [List.cons_append, List.append_assoc]
      · rwa [List.append_assoc] at here

/-- What a step finds, it finds before any text that starts alike. Unless it leaves a template
on top after one code point, what follows does not matter at all. -/
theorem step?_congr {e : Enclosure} {c : CodePoint} {rest rest' : Text} {k : Nat}
    {inner : List Enclosure} (h : e.step? c rest = some (k, inner))
    (same : rest'.head? = rest.head? ∨ (k = 1 ∧ inner.head? ≠ some template)) :
    e.step? c rest' = some (k, inner) := by
  cases e with
  | string quote => exact h
  | braces depth => exact h
  | template =>
    rcases same with same | ⟨rfl, outside⟩
    · rw [step?_template] at h ⊢
      rwa [same]
    rcases step?_template_cases h with ⟨-, two, -⟩ | ⟨rfl, -, rfl⟩ | ⟨-, -, two, -⟩ | ⟨-, -, -, rfl⟩
    · cases two
    · rfl
    · cases two
    · exact absurd rfl outside

/-- What leads further starts with a step. -/
theorem exists_step {e : Enclosure} {outer : List Enclosure} {c : CodePoint}
    (h : Leads following (e :: outer) (c :: t) stack) :
    ∃ part more inner, t = part ++ more
      ∧ e.step? c (t ++ following) = some (part.length + 1, inner)
      ∧ Leads following (inner ++ outer) more stack := by
  cases h with
  | @step e c part more inner outer stack here later =>
    exact ⟨part, more, inner, rfl, by rwa [List.append_assoc], later⟩

/-- Nothing is closed by nothing. -/
theorem ne_nil {e : Enclosure} {outer : List Enclosure}
    (h : Leads following (e :: outer) t []) : t ≠ [] := by
  rintro rfl
  cases h

theorem eq_of_nil (h : Leads following stack [] stack') : stack' = stack := by
  cases h
  rfl

/-- A text that does not end in a template leads to the same stack **before anything**. -/
theorem elsewhere (h : Leads following stack t stack') (outside : stack'.head? ≠ some template)
    (other : Text) : Leads other stack t stack' := by
  induction h with
  | stay => exact .stay _
  | @step e c part more inner outer stack here later ih =>
    refine .step (step?_congr here ?_) (ih outside)
    cases part with
    | cons d part => exact .inl rfl
    | nil =>
      cases more with
      | cons d more => exact .inl rfl
      | nil =>
        refine .inr ⟨rfl, fun inTemplate => outside ?_⟩
        rw [later.eq_of_nil, List.head?_append, inTemplate]
        rfl

/-- A step over two code points leaves a string or a template open, for which a backslash hides
the second, or in which an expression starts. -/
theorem exists_mem_of_step?_two {e : Enclosure} {c : CodePoint} {rest : Text}
    {inner : List Enclosure} (h : e.step? c rest = some (2, inner)) :
    ∃ e' ∈ inner, ∀ depth, e' ≠ braces depth := by
  unfold step? at h
  repeat' split at h
  all_goals cases h
  · exact ⟨_, List.mem_cons_self, nofun⟩
  · exact ⟨_, List.mem_cons_self, nofun⟩
  · exact ⟨_, List.mem_cons_of_mem _ List.mem_cons_self, nofun⟩

/-- **The last code point has a step of its own** if what is left open are braces only. -/
theorem unsnoc {c : CodePoint} (h : Leads following stack (t ++ [c]) stack')
    (outside : ∀ e ∈ stack', ∃ depth, e = braces depth) :
    ∃ middle, Leads (c :: following) stack t middle ∧ Leads following middle [c] stack' := by
  generalize hwhole : t ++ [c] = whole at h
  induction h generalizing t with
  | stay => cases t <;> cases hwhole
  | @step e d part more inner outer stack here later ih =>
    -- Either this step is the last, or the last code point is among those that come later.
    rcases List.eq_nil_or_concat more with rfl | ⟨more, d', rfl⟩
    · rw [List.append_nil] at hwhole
      cases part with
      | nil =>
        obtain ⟨rfl, rfl⟩ : t = [] ∧ d = c := by cases t <;> simp_all
        exact ⟨e :: outer, .stay _, .one here later⟩
      | cons d' part =>
        have taken := step?_length here
        obtain rfl : part = [] := by
          rw [List.length_cons] at taken
          exact List.length_eq_zero_iff.mp (by omega)
        obtain ⟨e', member, noBraces⟩ := exists_mem_of_step?_two here
        rw [later.eq_of_nil] at outside
        obtain ⟨depth, same⟩ := outside e' (List.mem_append_left outer member)
        exact absurd same (noBraces depth)
    · rw [List.concat_eq_append, ← List.append_assoc, ← List.cons_append] at hwhole
      obtain ⟨rfl, last⟩ := List.append_inj' hwhole rfl
      cases last
      obtain ⟨middle, first, second⟩ := ih outside List.concat_eq_append.symm
      refine ⟨middle, .step ?_ first, second⟩
      rwa [List.concat_eq_append, List.append_assoc] at here

/-- What leads further over one code point is a step. -/
theorem of_singleton {c : CodePoint} (h : Leads following stack [c] stack') :
    ∃ e outer inner, stack = e :: outer ∧ e.step? c following = some (1, inner)
      ∧ stack' = inner ++ outer := by
  cases stack with
  | nil => cases h
  | cons e outer =>
    obtain ⟨part, more, inner, split, here, later⟩ := h.exists_step
    obtain ⟨rfl, rfl⟩ := List.append_eq_nil_iff.mp split.symm
    exact ⟨e, outer, inner, rfl, here, later.eq_of_nil⟩

/-- A step opens a string at a quote only. -/
theorem quote_of_step? {e : Enclosure} {c quote : CodePoint} {rest : Text} {k : Nat}
    {inner : List Enclosure} (h : e.step? c rest = some (k, inner))
    (member : string quote ∈ inner) :
    e = string quote ∨ quote = doubleQuote ∨ quote = singleQuote := by
  unfold step? at h
  repeat' split at h
  all_goals cases h
  all_goals simp at member
  · exact .inl (congrArg string member.symm)
  · exact .inl (congrArg string member.symm)
  · rename_i opens
    rw [member]
    exact .inr ((Bool.or_eq_true_iff.mp opens).imp beq_iff_eq.mp beq_iff_eq.mp)

/-- **Strings are in quotes** still, if they were. -/
theorem quoted (h : Leads following stack t stack') (before : Quoted stack) : Quoted stack' := by
  induction h with
  | stay => exact before
  | step here _ ih =>
    refine ih fun quote member => ?_
    rcases List.mem_append.mp member with member | member
    · rcases quote_of_step? here member with rfl | known
      · exact before quote List.mem_cons_self
      · exact known
    · exact before quote (List.mem_cons_of_mem _ member)

end Leads

/-- Whatever has a measure **starts with a text that closes everything**. -/
theorem leads_of_measure {stack : List Enclosure} {n m : Nat} {t : Text}
    (h : measure stack n t = some m) :
    ∃ read following, t = read ++ following ∧ m = n + read.length
      ∧ Leads following stack read [] := by
  -- By induction on the text: a step over two code points does not stop at the tail of the list.
  induction hlength : t.length using Nat.strongRecOn generalizing stack n t with
  | ind length ih =>
    match stack, t with
    | [], t =>
      rw [measure_nil] at h
      cases h
      exact ⟨[], t, rfl, rfl, .stay []⟩
    | e :: outer, [] =>
      rw [measure_cons_nil] at h
      cases h
    | e :: outer, c :: rest =>
      rw [measure_cons_cons] at h
      obtain ⟨⟨k, inner⟩, here, later⟩ := Option.bind_eq_some_iff.mp h
      dsimp only at later
      have taken := step?_length here
      obtain ⟨k, rfl⟩ : ∃ j, k = j + 1 := ⟨k - 1, by omega⟩
      rw [List.drop_succ_cons] at later
      have shorter : (rest.drop k).length < length := by
        rw [← hlength, List.length_drop, List.length_cons]
        omega
      obtain ⟨read, following, split, rfl, leads⟩ := ih _ shorter later rfl
      have inside : k ≤ rest.length := by
        refine Nat.le_of_not_lt fun beyond => ?_
        -- A second code point is missing, but what is left open behind it takes more.
        have opened : inner ≠ [] := (taken.resolve_left (by omega)).2
        obtain ⟨e', inner', rfl⟩ := List.exists_cons_of_ne_nil opened
        rw [List.drop_eq_nil_iff.mpr (by omega), List.cons_append, measure_cons_nil] at later
        cases later
      refine ⟨c :: (rest.take k ++ read), following, ?_, ?_, .step ?_ leads⟩
      · rw [List.cons_append, List.append_assoc, ← split, List.take_append_drop]
      · rw [List.length_cons, List.length_append, List.length_take_of_le inside]
        omega
      · rwa [← split, List.take_append_drop, List.length_take_of_le inside]

/-- A text whose measure is its length **closes everything**, before anything. -/
theorem leads_of_measure_length {stack : List Enclosure} {t : Text}
    (h : measure stack 0 t = some t.length) (following : Text) : Leads following stack t [] := by
  obtain ⟨read, rest, split, length, leads⟩ := leads_of_measure h
  have whole : rest = [] := by
    have := congrArg List.length split
    rw [List.length_append] at this
    exact List.length_eq_zero_iff.mp (by omega)
  rw [whole, List.append_nil] at split
  rw [split]
  exact leads.elsewhere nofun following

end Enclosure

end Scriptlet
