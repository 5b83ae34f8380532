import Scriptlet.Token.Lexer

/-!
# What scanners measure

A scanner answers how many code points belong to what it has found. Two facts about
its answers are wanted over and over. The answer is never zero and never more than
there is. And the answer is *local*: the same is measured wherever it stands, as long as
a space, a line feed or the end of the text comes after it.

Strings, templates and the bodies of regular expressions are closed by what is theirs, so
whatever follows them does not matter. A numeral and a name go on as far as they can, and
for these the separator is needed.
-/

namespace Scriptlet

/-! ## Separators -/

/-- A text **separates** from what comes before it: it is empty, or it starts with a space
or a line feed. -/
def Text.Separates (u : Text) : Prop :=
  ∀ c, u.head? = some c → c = ' ' ∨ c = '\n'

/-- What neither a space nor a line feed satisfies is not satisfied by the head of a text
that separates. -/
theorem headIs_of_separates {p : CodePoint → Bool} {u : Text} (hu : u.Separates)
    (space : p ' ' = false) (feed : p '\n' = false) : headIs p u = false := by
  cases u with
  | nil => rfl
  | cons c rest =>
    show p c = false
    rcases hu c rfl with rfl | rfl
    · exact space
    · exact feed

/-- A head is the same if the text is cut off no earlier than after it, and goes on with
what is none. -/
theorem headIs_take_append {p : CodePoint → Bool} {t u : Text} {n : Nat}
    (hn : headIs p t = true → 0 < n) (hu : headIs p u = false) :
    headIs p (t.take n ++ u) = headIs p t := by
  cases t with
  | nil => rw [List.take_nil, List.nil_append, hu]; rfl
  | cons c rest =>
    cases n with
    | succ n => rfl
    | zero =>
      rw [List.take_zero, List.nil_append, hu]
      exact (Bool.eq_false_iff.mpr fun h => absurd (hn h) (Nat.lt_irrefl 0)).symm

/-- The same of a head that is wanted together with something else. -/
theorem and_headIs_take_append {b : Bool} {p : CodePoint → Bool} {t u : Text} {n : Nat}
    (hu : headIs p u = false) (h : (b && headIs p t) = false) :
    (b && headIs p (t.take n ++ u)) = false := by
  cases b with
  | false => rfl
  | true =>
    rw [Bool.true_and] at h ⊢
    rw [headIs_take_append (fun some => absurd some (Bool.eq_false_iff.mp h)) hu, h]

namespace Text.Separates

variable {u : Text}

/-- A text that separates does not start with a digit. -/
theorem no_digit (hu : u.Separates) : headIs Text.isDigit u = false :=
  headIs_of_separates hu (by decide) (by decide)

/-- A text that separates does not start a name. -/
theorem no_name (hu : u.Separates) : headIs startsName u = false :=
  headIs_of_separates hu (by decide +kernel) (by decide +kernel)

/-- A text that separates does not continue a name. -/
theorem no_part (hu : u.Separates) : headIs continuesName u = false :=
  headIs_of_separates hu (by decide +kernel) (by decide +kernel)

/-- A text that separates does not start with a letter or a number. -/
theorem no_alphanumeric (hu : u.Separates) : headIs Text.isAlphanumeric u = false :=
  headIs_of_separates hu (by decide +kernel) (by decide +kernel)

end Text.Separates

/-! ## Counting -/

theorem take_countWhile (p : CodePoint → Bool) (t : Text) :
    t.take (countWhile p t) = t.takeWhile p :=
  (List.prefix_iff_eq_take.mp (List.takeWhile_prefix p)).symm

theorem countWhile_le (p : CodePoint → Bool) (t : Text) : countWhile p t ≤ t.length :=
  (List.takeWhile_prefix p).length_le

/-- What leads a text is the same if the text is cut off no earlier and goes on with what
does not belong to it. -/
theorem takeWhile_take_append {p : CodePoint → Bool} {t u : Text} {n : Nat}
    (hn : countWhile p t ≤ n) (hu : headIs p u = false) :
    (t.take n ++ u).takeWhile p = t.takeWhile p := by
  have none : u.takeWhile p = [] := by
    cases u with
    | nil => rfl
    | cons c rest => exact List.takeWhile_cons_of_neg (Bool.eq_false_iff.mp hu)
  induction t generalizing n with
  | nil => rw [List.take_nil, List.nil_append, none]; rfl
  | cons c rest ih =>
    by_cases hc : p c = true
    · cases n with
      | zero => rw [countWhile, List.takeWhile_cons_of_pos hc] at hn; cases hn
      | succ n =>
        rw [countWhile, List.takeWhile_cons_of_pos hc] at hn
        rw [List.take_succ_cons, List.cons_append, List.takeWhile_cons_of_pos hc,
          List.takeWhile_cons_of_pos hc, ih (Nat.le_of_succ_le_succ hn)]
    · rw [List.takeWhile_cons_of_neg hc]
      cases n with
      | zero => exact none
      | succ n => exact List.takeWhile_cons_of_neg hc

/-- The count is the same if the text is cut off no earlier and goes on with what does not
count. -/
theorem countWhile_take_append {p : CodePoint → Bool} {t u : Text} {n : Nat}
    (hn : countWhile p t ≤ n) (hu : headIs p u = false) :
    countWhile p (t.take n ++ u) = countWhile p t :=
  congrArg List.length (takeWhile_take_append hn hu)

/-- What is dropped of a text that is cut off later, and goes on. -/
theorem drop_take_append {t u : Text} {k n : Nat} (hk : k ≤ n) (hn : n ≤ t.length) :
    (t.take n ++ u).drop k = (t.drop k).take (n - k) ++ u := by
  rw [List.drop_append_of_le_length (by rw [List.length_take]; omega), List.drop_take]

/-! ## Enclosures -/

namespace Enclosure

/-- The code point that closes. -/
def closer : Enclosure → CodePoint
  | string quote => quote
  | template => backtick
  | braces _ => closeBrace

/-- A text **closes** what is open and nothing more: whatever follows it, the
measure is its length, and its last code point is the one that closes the outermost. -/
structure Closes (stack : List Enclosure) (n : Nat) (read : Text) (m : Nat) : Prop where
  /-- The measure counts the text. -/
  count : m = n + read.length
  /-- Whatever follows, the measure is the same. -/
  anywhere : ∀ u, measure stack n (read ++ u) = some m
  /-- The last code point closes the outermost. -/
  last : read.getLast? = stack.getLast?.map closer

namespace Closes

variable {stack stack' : List Enclosure} {n m : Nat} {c d : CodePoint} {read : Text}

theorem nil (n : Nat) : Closes [] n [] n :=
  ⟨rfl, fun u => by unfold measure; rfl, rfl⟩

/-- One code point more in front, which leaves another stack open. -/
theorem step (h : Closes stack' (n + 1) read m)
    (here : ∀ u, measure stack n (c :: (read ++ u)) = measure stack' (n + 1) (read ++ u))
    (outermost : (stack'.getLast?.map closer).or (some c) = stack.getLast?.map closer) :
    Closes stack n (c :: read) m := by
  refine ⟨?_, fun u => (here u).trans (h.anywhere u), ?_⟩
  · rw [h.count, List.length_cons]; omega
  · rw [← outermost, ← h.last]
    cases read with
    | nil => rfl
    | cons d rest => rw [List.getLast?_cons_cons, List.getLast?_cons]; rfl

/-- Two code points more in front, which leave something open. -/
theorem step₂ (h : Closes stack' (n + 2) read m)
    (here : ∀ u, measure stack n (c :: d :: (read ++ u)) = measure stack' (n + 2) (read ++ u))
    (outermost : (stack'.getLast?.map closer).or (some d) = stack.getLast?.map closer) :
    Closes stack n (c :: d :: read) m := by
  refine ⟨?_, fun u => (here u).trans (h.anywhere u), ?_⟩
  · rw [h.count, List.length_cons, List.length_cons]; omega
  · rw [← outermost, ← h.last, List.getLast?_cons_cons]
    cases read with
    | nil => rfl
    | cons e rest => rw [List.getLast?_cons_cons, List.getLast?_cons]; rfl

end Closes

theorem outermost_cons (e : Enclosure) (outer : List Enclosure) (c : CodePoint) :
    (((e :: outer).getLast?).map closer).or (some c) = ((e :: outer).getLast?).map closer := by
  rw [List.getLast?_cons]; rfl

theorem outermost_of_closer {e : Enclosure} {c : CodePoint} (outer : List Enclosure)
    (hc : c = e.closer) :
    (outer.getLast?.map closer).or (some c) = ((e :: outer).getLast?).map closer := by
  subst hc
  cases outer with
  | nil => rfl
  | cons f rest => rw [outermost_cons, List.getLast?_cons_cons]

theorem outermost_push (inner e : Enclosure) (outer : List Enclosure) (c : CodePoint) :
    (((inner :: e :: outer).getLast?).map closer).or (some c)
      = ((e :: outer).getLast?).map closer := by
  rw [outermost_cons, List.getLast?_cons_cons]

theorem outermost_swap (e e' : Enclosure) (outer : List Enclosure) (c : CodePoint)
    (he : e.closer = e'.closer) :
    (((e :: outer).getLast?).map closer).or (some c)
      = ((e' :: outer).getLast?).map closer := by
  rw [outermost_cons]
  cases outer with
  | nil => exact congrArg some he
  | cons f rest => rfl

/-- **A measure finds what closes**, at the start of the text. -/
theorem closes_of_measure {stack : List Enclosure} {n m : Nat} {t : Text}
    (h : measure stack n t = some m) : ∃ read rest, t = read ++ rest ∧ Closes stack n read m := by
  fun_induction measure stack n t with
  | case1 t n => cases h; exact ⟨[], t, rfl, .nil _⟩
  | case2 => cases h
  | case3 => cases h
  | case4 quote outer n c escape d rest ih =>
    obtain ⟨read, rest, rfl, hread⟩ := ih h
    refine ⟨c :: d :: read, rest, rfl, hread.step₂ (fun u => ?_) (outermost_cons ..)⟩
    rw [measure, if_pos escape]
  | case5 quote outer n c rest escape close ih =>
    obtain ⟨read, rest, rfl, hread⟩ := ih h
    refine ⟨c :: read, rest, rfl, hread.step (fun u => ?_)
      (outermost_of_closer outer (beq_iff_eq.mp close))⟩
    cases read ++ u <;> rw [measure, if_neg escape, if_pos close]
  | case6 => cases h
  | case7 quote outer n c rest escape close feed ih =>
    obtain ⟨read, rest, rfl, hread⟩ := ih h
    refine ⟨c :: read, rest, rfl, hread.step (fun u => ?_) (outermost_cons ..)⟩
    cases read ++ u <;> (conv => lhs; rw [measure, if_neg escape, if_neg close, if_neg feed])
  | case8 => cases h
  | case9 outer n c escape d rest ih =>
    obtain ⟨read, rest, rfl, hread⟩ := ih h
    refine ⟨c :: d :: read, rest, rfl, hread.step₂ (fun u => ?_) (outermost_cons ..)⟩
    rw [measure, if_pos escape]
  | case10 outer n c rest escape close ih =>
    obtain ⟨read, rest, rfl, hread⟩ := ih h
    refine ⟨c :: read, rest, rfl, hread.step (fun u => ?_)
      (outermost_of_closer outer (beq_iff_eq.mp close))⟩
    cases read ++ u <;> rw [measure, if_neg escape, if_pos close]
  | case11 => cases h
  | case12 outer n c escape close dollar d rest brace ih =>
    obtain ⟨read, rest, rfl, hread⟩ := ih h
    refine ⟨c :: d :: read, rest, rfl, hread.step₂ (fun u => ?_) (outermost_push ..)⟩
    rw [measure, if_neg escape, if_neg close, if_pos dollar]
    exact if_pos brace
  | case13 outer n c escape close dollar d rest brace ih =>
    obtain ⟨read, rest', same, hread⟩ := ih h
    refine ⟨c :: read, rest', congrArg (c :: ·) same, hread.step (fun u => ?_) (outermost_cons ..)⟩
    -- What follows the dollar is no brace, because a template is still open and the text
    -- that closes it is not empty.
    cases read with
    | nil => exact absurd hread.last (by rw [List.getLast?_cons]; simp)
    | cons e read =>
      cases same
      rw [List.cons_append, measure, if_neg escape, if_neg close, if_pos dollar]
      exact if_neg brace
  | case14 outer n c rest escape close dollar ih =>
    obtain ⟨read, rest, rfl, hread⟩ := ih h
    refine ⟨c :: read, rest, rfl, hread.step (fun u => ?_) (outermost_cons ..)⟩
    cases read ++ u <;> (conv => lhs; rw [measure, if_neg escape, if_neg close, if_neg dollar])
  | case15 depth outer n c rest quote ih =>
    obtain ⟨read, rest, rfl, hread⟩ := ih h
    refine ⟨c :: read, rest, rfl, hread.step (fun u => ?_) (outermost_push ..)⟩
    cases depth <;> rw [measure, if_pos quote]
  | case16 depth outer n c rest quote tick ih =>
    obtain ⟨read, rest, rfl, hread⟩ := ih h
    refine ⟨c :: read, rest, rfl, hread.step (fun u => ?_) (outermost_push ..)⟩
    cases depth <;> rw [measure, if_neg quote, if_pos tick]
  | case17 depth outer n c rest quote tick opens ih =>
    obtain ⟨read, rest, rfl, hread⟩ := ih h
    refine ⟨c :: read, rest, rfl, hread.step (fun u => ?_) (outermost_swap _ _ _ _ rfl)⟩
    cases depth <;> rw [measure, if_neg quote, if_neg tick, if_pos opens]
  | case18 outer n c rest quote tick opens close ih =>
    obtain ⟨read, rest, rfl, hread⟩ := ih h
    refine ⟨c :: read, rest, rfl, hread.step (fun u => ?_)
      (outermost_of_closer outer (beq_iff_eq.mp close))⟩
    rw [measure, if_neg quote, if_neg tick, if_neg opens, if_pos close]
  | case19 outer n c rest quote tick opens close depth ih =>
    obtain ⟨read, rest, rfl, hread⟩ := ih h
    refine ⟨c :: read, rest, rfl, hread.step (fun u => ?_) (outermost_swap _ _ _ _ rfl)⟩
    rw [measure, if_neg quote, if_neg tick, if_neg opens, if_pos close]
  | case20 depth outer n c rest quote tick opens close ih =>
    obtain ⟨read, rest, rfl, hread⟩ := ih h
    refine ⟨c :: read, rest, rfl, hread.step (fun u => ?_) (outermost_swap _ _ _ _ rfl)⟩
    cases depth <;> rw [measure, if_neg quote, if_neg tick, if_neg opens, if_neg close]

end Enclosure

/-! ## Measures that hold anywhere -/

/-- A measure **is found again**: it counts something, no more than there is, and counts
the same wherever that stands before a separator. -/
structure Recurs (length? : Text → Option Nat) (t : Text) (n : Nat) : Prop where
  /-- Something is counted. -/
  pos : 0 < n
  /-- There is as much as is counted. -/
  le : n ≤ t.length
  /-- The same is counted before any separator. -/
  again : ∀ u : Text, u.Separates → length? (t.take n ++ u) = some n

/-- What closes an enclosure is found again, and ends with its closer. -/
theorem Enclosure.recurs_measure {e : Enclosure} {t : Text} {n : Nat}
    (h : measure [e] 0 t = some n) :
    Recurs (measure [e] 0) t n ∧ (t.take n).getLast? = some e.closer := by
  obtain ⟨read, rest, rfl, closes⟩ := closes_of_measure h
  have length : read.length = n := by rw [closes.count, Nat.zero_add]
  have last : read.getLast? = some e.closer := closes.last
  have found : (read ++ rest).take n = read := List.take_left' length
  refine ⟨⟨?_, ?_, fun u _ => ?_⟩, ?_⟩
  · rw [← length]
    exact List.length_pos_iff.mpr (by rintro rfl; cases last)
  · rw [List.length_append]; omega
  · rw [found]; exact closes.anywhere u
  · rw [found]; exact last

/-! ## Regular expressions -/

/-- The body of a regular expression is what has been read, whatever follows. -/
theorem regexpBodyLength?_reads {inClass : Bool} {start n : Nat} {t : Text}
    (h : regexpBodyLength? inClass start t = some n) :
    ∃ read rest, t = read ++ rest ∧ n = start + read.length ∧ 0 < read.length ∧
      ∀ u, regexpBodyLength? inClass start (read ++ u) = some n := by
  fun_induction regexpBodyLength? inClass start t with
  | case1 => cases h
  | case2 => cases h
  | case3 => cases h
  | case4 inClass start c feed escape d rest ih =>
    obtain ⟨read, rest, rfl, count, -, again⟩ := ih h
    refine ⟨c :: d :: read, rest, rfl, by simp [count]; omega, by simp, fun u => ?_⟩
    rw [List.cons_append, List.cons_append, regexpBodyLength?, if_neg feed, if_pos escape]
    exact again u
  | case5 inClass start c rest feed escape opens ih =>
    obtain ⟨read, rest, rfl, count, -, again⟩ := ih h
    refine ⟨c :: read, rest, rfl, by simp [count]; omega, by simp, fun u => ?_⟩
    rw [← again u, List.cons_append]
    cases read ++ u <;>
      (conv => lhs; rw [regexpBodyLength?, if_neg feed, if_neg escape, if_pos opens])
  | case6 inClass start c rest feed escape opens closes ih =>
    obtain ⟨read, rest, rfl, count, -, again⟩ := ih h
    refine ⟨c :: read, rest, rfl, by simp [count]; omega, by simp, fun u => ?_⟩
    rw [← again u, List.cons_append]
    cases read ++ u <;>
      (conv => lhs; rw [regexpBodyLength?, if_neg feed, if_neg escape, if_neg opens, if_pos closes])
  | case7 inClass start c rest feed escape opens closes slash =>
    cases h
    refine ⟨[c], rest, rfl, rfl, Nat.one_pos, fun u => ?_⟩
    cases u <;>
      rw [List.cons_append, List.nil_append, regexpBodyLength?, if_neg feed, if_neg escape,
        if_neg opens, if_neg closes, if_pos slash]
  | case8 inClass start c rest feed escape opens closes slash ih =>
    obtain ⟨read, rest, rfl, count, -, again⟩ := ih h
    refine ⟨c :: read, rest, rfl, by simp [count]; omega, by simp, fun u => ?_⟩
    rw [← again u, List.cons_append]
    cases read ++ u <;>
      (conv => lhs; rw [regexpBodyLength?, if_neg feed, if_neg escape, if_neg opens, if_neg closes,
        if_neg slash])

theorem recurs_regexpLength? {c : CodePoint} {rest : Text} {n : Nat}
    (h : regexpLength? (c :: rest) = some n) : Recurs regexpLength? (c :: rest) n := by
  obtain ⟨m, hbody, rfl⟩ := Option.map_eq_some_iff.mp h
  obtain ⟨body, after, rfl, count, -, again⟩ := regexpBodyLength?_reads (t := rest) hbody
  have whole : (c :: (body ++ after)).drop m = after := by
    rw [count, Nat.add_comm, List.drop_succ_cons, List.drop_left]
  rw [whole]
  have fits := countWhile_le continuesName after
  refine ⟨by omega, ?_, fun u hu => ?_⟩
  · rw [List.length_cons, List.length_append]; omega
  · have taken : (c :: (body ++ after)).take (m + countWhile continuesName after) ++ u
        = c :: (body ++ (after.take (countWhile continuesName after) ++ u)) := by
      rw [count, Nat.add_assoc, Nat.add_comm 1, List.take_succ_cons, List.take_append,
        List.take_of_length_le (by omega), Nat.add_sub_cancel_left, List.cons_append,
        List.append_assoc]
    have flags : (c :: (body ++ (after.take (countWhile continuesName after) ++ u))).drop m
        = after.take (countWhile continuesName after) ++ u := by
      rw [count, Nat.add_comm, List.drop_succ_cons, List.drop_left]
    rw [taken, regexpLength?, List.drop_one, List.tail_cons, again, Option.map_some, flags,
      countWhile_take_append (Nat.le_refl _) (hu.no_part)]

/-! ## Numerals -/

theorem exponentLength_eq_zero {u : Text} (hu : u.Separates) : exponentLength u = 0 :=
  if_neg (Bool.eq_false_iff.mp (headIs_of_separates hu (by decide) (by decide)))

/-- An exponent is no longer than the text, and is found again. -/
theorem exponentLength_recurs (t : Text) :
    exponentLength t ≤ t.length ∧
      ∀ u : Text, u.Separates →
        exponentLength (t.take (exponentLength t) ++ u) = exponentLength t := by
  by_cases zero : exponentLength t = 0
  · rw [zero]
    exact ⟨Nat.zero_le _, fun u hu => exponentLength_eq_zero hu⟩
  cases t with
  | nil => exact absurd rfl zero
  | cons c rest =>
    by_cases letter : headIs (fun c => c == 'e' || c == 'E') (c :: rest) = true
    case neg => exact absurd (if_neg letter) zero
    have unfolded (more : Text) :
        exponentLength (c :: more) =
          let sign := if headIs (fun c => c == '+' || c == '-') more then 1 else 0
          let digits := countWhile Text.isDigit (more.drop sign)
          if digits == 0 then 0 else 1 + sign + digits := by
      unfold exponentLength
      rw [show headIs (fun c => c == 'e' || c == 'E') (c :: more) = true from letter, if_pos rfl,
        List.drop_one, List.tail_cons]
      simp only [Nat.add_comm 1, List.drop_succ_cons]
    simp only [unfolded] at zero ⊢
    generalize hsign : (if headIs (fun c => c == '+' || c == '-') rest then 1 else 0) = sign
      at zero ⊢
    generalize hdigits : countWhile Text.isDigit (rest.drop sign) = digits at zero ⊢
    have some : (digits == 0) = false := Bool.eq_false_iff.mpr fun h => zero (if_pos h)
    rw [some, if_neg Bool.false_ne_true] at zero ⊢
    have room : sign + digits ≤ rest.length := by
      have := countWhile_le Text.isDigit (rest.drop sign)
      rw [hdigits, List.length_drop] at this
      have : digits ≠ 0 := by simpa using some
      omega
    refine ⟨by rw [List.length_cons]; omega, fun u hu => ?_⟩
    rw [Nat.add_assoc, Nat.add_comm 1, List.take_succ_cons, List.cons_append, unfolded]
    have sameSign : headIs (fun c => c == '+' || c == '-') (rest.take (sign + digits) ++ u)
        = headIs (fun c => c == '+' || c == '-') rest := by
      refine headIs_take_append (fun h => ?_) (headIs_of_separates hu (by decide) (by decide))
      rw [if_pos h] at hsign
      omega
    rw [sameSign, hsign]
    dsimp only
    rw [drop_take_append (Nat.le_add_right _ _) room, Nat.add_sub_cancel_left,
      countWhile_take_append (Nat.le_of_eq hdigits) hu.no_digit, hdigits, some,
      if_neg Bool.false_ne_true]
    omega

/-- The length of a point and the digits after it. -/
def fractionLength (t : Text) : Nat :=
  if headIs (· == '.') t then 1 + countWhile Text.isDigit (t.drop 1) else 0

theorem fractionLength_le (t : Text) : fractionLength t ≤ t.length := by
  cases t with
  | nil => exact Nat.le_refl 0
  | cons c rest =>
    unfold fractionLength
    split
    · rw [List.length_cons, Nat.add_comm]
      exact Nat.succ_le_succ (countWhile_le Text.isDigit rest)
    · exact Nat.zero_le _

/-- A fraction is the same if the text is cut off no earlier and goes on with neither a point nor a
digit. -/
theorem fractionLength_take_append {t u : Text} {n : Nat} (hn : fractionLength t ≤ n)
    (noPoint : headIs (· == ('.' : CodePoint)) u = false) (noDigit : headIs Text.isDigit u = false) :
    fractionLength (t.take n ++ u) = fractionLength t := by
  have point : headIs (· == ('.' : CodePoint)) (t.take n ++ u)
      = headIs (· == ('.' : CodePoint)) t := by
    refine headIs_take_append (fun h => ?_) noPoint
    unfold fractionLength at hn
    rw [if_pos h] at hn
    omega
  unfold fractionLength at hn ⊢
  rw [point]
  split
  · rename_i h
    rw [if_pos h] at hn
    cases t with
    | nil => cases h
    | cons c rest =>
      cases n with
      | zero => omega
      | succ n =>
        refine congrArg (1 + ·) (countWhile_take_append ?_ noDigit)
        exact Nat.le_of_succ_le_succ (by rwa [Nat.add_comm] at hn)
  · rfl

theorem decimalLength_eq (t : Text) :
    decimalLength t = countWhile Text.isDigit t
      + fractionLength (t.drop (countWhile Text.isDigit t))
      + exponentLength ((t.drop (countWhile Text.isDigit t)).drop
          (fractionLength (t.drop (countWhile Text.isDigit t)))) :=
  rfl

/-- A decimal numeral is no longer than the text, and is found again. -/
theorem decimalLength_recurs (t : Text) :
    decimalLength t ≤ t.length ∧
      ∀ u : Text, u.Separates →
        decimalLength (t.take (decimalLength t) ++ u) = decimalLength t := by
  rw [decimalLength_eq]
  generalize hwhole : countWhile Text.isDigit t = whole
  generalize hfraction : fractionLength (t.drop whole) = fraction
  obtain ⟨room, again⟩ := exponentLength_recurs ((t.drop whole).drop fraction)
  generalize exponentLength ((t.drop whole).drop fraction) = exponent at room again ⊢
  have roomWhole := countWhile_le Text.isDigit t
  have roomFraction := fractionLength_le (t.drop whole)
  rw [hwhole] at roomWhole
  rw [hfraction, List.length_drop] at roomFraction
  rw [List.length_drop, List.length_drop] at room
  have all : whole + fraction + exponent ≤ t.length := by omega
  refine ⟨all, fun u hu => ?_⟩
  have rest : (t.take (whole + fraction + exponent) ++ u).drop whole
      = (t.drop whole).take (fraction + exponent) ++ u := by
    rw [drop_take_append (by omega) all, Nat.add_assoc, Nat.add_sub_cancel_left]
  have tail : ((t.drop whole).take (fraction + exponent) ++ u).drop fraction
      = ((t.drop whole).drop fraction).take exponent ++ u := by
    rw [drop_take_append (by omega) (by rw [List.length_drop]; omega), Nat.add_sub_cancel_left]
  rw [decimalLength_eq, countWhile_take_append (by omega) hu.no_digit, hwhole, rest,
    fractionLength_take_append (by omega) (headIs_of_separates hu (by decide) (by decide))
      hu.no_digit, hfraction, tail, again u hu]

/-- What starts with a digit, or with a point and a digit, makes a numeral that is not empty. -/
theorem decimalLength_pos {c : CodePoint} {rest : Text}
    (h : (Text.isDigit c || (c == '.' && headIs Text.isDigit rest)) = true) :
    0 < decimalLength (c :: rest)
      ∧ (Text.isDigit c = false → 1 < decimalLength (c :: rest)) := by
  rw [decimalLength_eq]
  by_cases digit : Text.isDigit c = true
  · have : 0 < countWhile Text.isDigit (c :: rest) := by
      rw [countWhile, List.takeWhile_cons_of_pos digit]; exact Nat.succ_pos _
    exact ⟨by omega, fun no => absurd digit (Bool.eq_false_iff.mp no)⟩
  · rw [Bool.eq_false_iff.mpr digit, Bool.false_or, Bool.and_eq_true] at h
    obtain ⟨point, next⟩ := h
    have none : countWhile Text.isDigit (c :: rest) = 0 := by
      rw [countWhile, List.takeWhile_cons_of_neg digit]; rfl
    have some : 0 < countWhile Text.isDigit rest := by
      cases rest with
      | nil => cases next
      | cons d rest =>
        have digit : Text.isDigit d = true := next
        rw [countWhile, List.takeWhile_cons_of_pos digit]; exact Nat.succ_pos _
    have fraction : fractionLength (c :: rest) = 1 + countWhile Text.isDigit rest := if_pos point
    rw [none, List.drop_zero, fraction]
    exact ⟨by omega, fun _ => by omega⟩

/-- A numeral of another base is found again. -/
theorem recurs_radixLength? {radix : Nat} {t : Text} {n : Nat} (ht : 2 ≤ t.length)
    (h : radixLength? radix t = some n) : 2 ≤ n ∧ Recurs (radixLength? radix) t n := by
  obtain ⟨value, hvalue, rfl⟩ := Option.map_eq_some_iff.mp h
  have fits := countWhile_le Text.isAlphanumeric (t.drop 2)
  rw [countWhile, List.length_drop] at fits
  refine ⟨Nat.le_add_right 2 _, ?_, ?_, fun u hu => ?_⟩
  · omega
  · omega
  · have rest := drop_take_append (t := t) (u := u)
      (Nat.le_add_right 2 ((t.drop 2).takeWhile Text.isAlphanumeric).length) (by omega)
    rw [Nat.add_sub_cancel_left] at rest
    have digits := takeWhile_take_append (t := t.drop 2) (Nat.le_refl _) hu.no_alphanumeric
    rw [countWhile] at digits
    unfold radixLength?
    rw [rest, digits]
    dsimp only
    rw [hvalue]
    rfl

/-- The length of a numeral, whatever follows it. -/
def numeralLength? (t : Text) : Option Nat :=
  match t with
  | z :: letter :: _ =>
    match (if z == '0' then radixOfLetter? letter else none) with
    | some radix => radixLength? radix t
    | none => some (decimalLength t)
  | _ => some (decimalLength t)

theorem numberLength?_eq (t : Text) :
    numberLength? t
      = (numeralLength? t).bind fun n => if headIs startsName (t.drop n) then none else some n :=
  rfl

/-- The base that the first two code points of a numeral ask for, if they do. -/
def radixOf? : Text → Option Nat
  | z :: letter :: _ => if z == '0' then radixOfLetter? letter else none
  | _ => none

theorem numeralLength?_eq (t : Text) :
    numeralLength? t
      = match radixOf? t with
        | some radix => radixLength? radix t
        | none => some (decimalLength t) := by
  rcases t with _ | ⟨z, _ | ⟨letter, rest⟩⟩ <;> rfl

/-- The base is the same if the text is cut off where its numeral ends. -/
theorem radixOf?_take_append {t u : Text} {n : Nat} (hn : 0 < n)
    (two : radixOf? t ≠ none → 2 ≤ n) (hu : u.Separates) :
    radixOf? (t.take n ++ u) = radixOf? t := by
  have short : ∀ z : CodePoint, radixOf? (z :: u) = none := by
    intro z
    cases u with
    | nil => rfl
    | cons c rest =>
      show (if z == ('0' : CodePoint) then radixOfLetter? c else none) = none
      rcases hu c rfl with rfl | rfl <;> split <;> rfl
  have empty : radixOf? u = none := by
    rcases u with _ | ⟨c, _ | ⟨d, rest⟩⟩
    · rfl
    · rfl
    · rcases hu c rfl with rfl | rfl <;> rfl
  obtain ⟨n, rfl⟩ : ∃ k, n = k + 1 := ⟨n - 1, by omega⟩
  rcases t with _ | ⟨z, _ | ⟨letter, rest⟩⟩
  · exact empty
  · rw [List.take_succ_cons, List.take_nil]; exact short z
  · cases n with
    | succ n => rfl
    | zero =>
      by_cases none : radixOf? (z :: letter :: rest) = none
      · rw [none]; exact short z
      · exact absurd (two none) (by omega)

/-- A numeral is found again; that no name follows it is so before any separator. -/
theorem recurs_numberLength? {c : CodePoint} {rest : Text} {n : Nat}
    (start : (Text.isDigit c || (c == '.' && headIs Text.isDigit rest)) = true)
    (h : numberLength? (c :: rest) = some n) :
    Recurs numberLength? (c :: rest) n ∧ (Text.isDigit c = false → 1 < n) := by
  rw [numberLength?_eq, numeralLength?_eq] at h
  obtain ⟨m, hm, hname⟩ := Option.bind_eq_some_iff.mp h
  obtain rfl : m = n := by
    split at hname
    · cases hname
    · exact Option.some.inj hname
  have after {u : Text} (hm : m ≤ (c :: rest).length) (hu : u.Separates) :
      headIs startsName (((c :: rest).take m ++ u).drop m) = false := by
    rw [List.drop_left' (List.length_take_of_le hm)]
    exact hu.no_name
  cases hradix : radixOf? (c :: rest) with
  | some radix =>
    rw [hradix] at hm
    have zero : c = '0' ∧ 2 ≤ (c :: rest).length := by
      rcases rest with _ | ⟨letter, rest⟩
      · cases hradix
      · refine ⟨?_, by simp⟩
        by_cases hc : c = '0'
        · exact hc
        · rw [radixOf?, if_neg (by simpa using hc)] at hradix; cases hradix
    obtain ⟨two, pos, le, again⟩ := recurs_radixLength? zero.2 hm
    refine ⟨⟨pos, le, fun u hu => ?_⟩, fun _ => two⟩
    rw [numberLength?_eq, numeralLength?_eq, radixOf?_take_append pos (fun _ => two) hu, hradix]
    show (radixLength? radix _).bind _ = _
    rw [again u hu, Option.bind_some, after le hu]
    rfl
  | none =>
    rw [hradix] at hm
    cases hm
    obtain ⟨le, again⟩ := decimalLength_recurs (c :: rest)
    obtain ⟨pos, two⟩ := decimalLength_pos start
    refine ⟨⟨pos, le, fun u hu => ?_⟩, two⟩
    rw [numberLength?_eq, numeralLength?_eq,
      radixOf?_take_append pos (fun some => absurd hradix some) hu, hradix]
    show Option.bind (some (decimalLength _)) _ = _
    rw [again u hu, Option.bind_some, after le hu]
    rfl

end Scriptlet
