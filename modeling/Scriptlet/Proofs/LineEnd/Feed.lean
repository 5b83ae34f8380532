import Scriptlet.Proofs.Scanning

/-!
# Measures of texts with returns

`Text.crlf` puts a carriage return in front of every line feed of a text. What the scanners
count is here followed through that change. A numeral, a name and a sign hold no feed, and are
counted as before: what is behind them starts with a feed or with a return, and neither goes on
with them. A string and the body of a regular expression may hold feeds, each behind a
backslash. A return would then be what the backslash hides, and the feed would end what is open.
-/

namespace Scriptlet

/-- A text with a carriage return in front of **every line feed**. -/
def Text.crlf : Text → Text
  | [] => []
  | c :: rest => if c = '\n' then '\r' :: c :: crlf rest else c :: crlf rest

namespace Text

@[simp] theorem crlf_nil : crlf [] = [] := rfl

@[simp] theorem crlf_feed (t : Text) :
    crlf (('\n' : CodePoint) :: t) = ('\r' : CodePoint) :: ('\n' : CodePoint) :: crlf t := rfl

theorem crlf_cons {c : CodePoint} (hc : c ≠ '\n') (t : Text) : crlf (c :: t) = c :: crlf t :=
  if_neg hc

theorem crlf_append (t u : Text) : crlf (t ++ u) = crlf t ++ crlf u := by
  induction t with
  | nil => rfl
  | cons c rest ih =>
    by_cases hc : c = '\n'
    · subst hc
      rw [List.cons_append, crlf_feed, crlf_feed, ih]
      rfl
    · rw [List.cons_append, crlf_cons hc, crlf_cons hc, ih]
      rfl

/-- A text without line feeds stays as it is. -/
theorem crlf_of_not_mem {t : Text} (h : ('\n' : CodePoint) ∉ t) : crlf t = t := by
  induction t with
  | nil => rfl
  | cons c rest ih =>
    rw [crlf_cons (Ne.symm (List.ne_of_not_mem_cons h)), ih (List.not_mem_of_not_mem_cons h)]

/-- What is cut off before the first line feed stays as it is. -/
theorem crlf_eq_take_append {t : Text} {n : Nat} (h : ('\n' : CodePoint) ∉ t.take n) :
    crlf t = t.take n ++ crlf (t.drop n) := by
  conv => lhs; rw [← List.take_append_drop n t, crlf_append, crlf_of_not_mem h]

theorem take_crlf {t : Text} {n : Nat} (le : n ≤ t.length)
    (h : ('\n' : CodePoint) ∉ t.take n) : (crlf t).take n = t.take n := by
  rw [crlf_eq_take_append h, List.take_left' (List.length_take_of_le le)]

theorem drop_crlf {t : Text} {n : Nat} (le : n ≤ t.length)
    (h : ('\n' : CodePoint) ∉ t.take n) : (crlf t).drop n = crlf (t.drop n) := by
  rw [crlf_eq_take_append h, List.drop_left' (List.length_take_of_le le)]

/-- The head tells feeds and returns from what else it may be, not from each other. -/
theorem headIs_crlf {p : CodePoint → Bool} (same : p '\r' = p '\n') (t : Text) :
    headIs p (crlf t) = headIs p t := by
  cases t with
  | nil => rfl
  | cons c rest =>
    by_cases hc : c = '\n'
    · subst hc; exact same
    · rw [crlf_cons hc]; rfl

theorem takeWhile_crlf {p : CodePoint → Bool} (feed : p '\n' = false) (ret : p '\r' = false)
    (t : Text) : (crlf t).takeWhile p = t.takeWhile p := by
  induction t with
  | nil => rfl
  | cons c rest ih =>
    by_cases hc : c = '\n'
    · subst hc
      rw [crlf_feed, List.takeWhile_cons_of_neg (by rw [ret]; exact nofun),
        List.takeWhile_cons_of_neg (by rw [feed]; exact nofun)]
    · rw [crlf_cons hc, List.takeWhile_cons, List.takeWhile_cons, ih]

theorem countWhile_crlf {p : CodePoint → Bool} (feed : p '\n' = false) (ret : p '\r' = false)
    (t : Text) : countWhile p (crlf t) = countWhile p t :=
  congrArg List.length (takeWhile_crlf feed ret t)

/-- A text that holds neither feeds nor returns starts the one text as it does the other. -/
theorem isPrefixOf_crlf {sign : Text} (feed : ('\n' : CodePoint) ∉ sign)
    (ret : ('\r' : CodePoint) ∉ sign) (t : Text) :
    sign.isPrefixOf (crlf t) = sign.isPrefixOf t := by
  induction sign generalizing t with
  | nil => rfl
  | cons d sign ih =>
    have hd := List.ne_of_not_mem_cons feed
    have hd' := List.ne_of_not_mem_cons ret
    cases t with
    | nil => rfl
    | cons c rest =>
      by_cases hc : c = '\n'
      · subst hc
        rw [crlf_feed, List.isPrefixOf, List.isPrefixOf, beq_false_of_ne (Ne.symm hd'),
          beq_false_of_ne (Ne.symm hd), Bool.false_and, Bool.false_and]
      · rw [crlf_cons hc, List.isPrefixOf, List.isPrefixOf,
          ih (List.not_mem_of_not_mem_cons feed) (List.not_mem_of_not_mem_cons ret)]

end Text

/-! ## Measures without a feed -/

/-- What is counted at the start of a text **has no feed in it**, and is counted as well with
returns in front of the feeds. -/
structure Feedless (count : Text → Nat) (t : Text) : Prop where
  /-- The count is that of the text. -/
  same : count t.crlf = count t
  /-- There is as much as is counted. -/
  le : count t ≤ t.length
  /-- No feed is counted. -/
  noFeed : ('\n' : CodePoint) ∉ t.take (count t)

namespace Feedless

variable {count : Text → Nat} {t : Text}

/-- What is left behind the count. -/
theorem drop (h : Feedless count t) : t.crlf.drop (count t) = Text.crlf (t.drop (count t)) :=
  Text.drop_crlf h.le h.noFeed

theorem countWhile {p : CodePoint → Bool} (feed : p '\n' = false) (ret : p '\r' = false)
    (t : Text) : Feedless (countWhile p) t where
  same := Text.countWhile_crlf feed ret t
  le := countWhile_le p t
  noFeed mem := by
    rw [Scriptlet.countWhile, ← List.prefix_iff_eq_take.mp (List.takeWhile_prefix p)] at mem
    have yes := List.all_eq_true.mp (List.all_takeWhile (l := t) (p := p)) _ mem
    rw [feed] at yes
    cases yes

theorem digits (t : Text) : Feedless (Scriptlet.countWhile Text.isDigit) t :=
  countWhile (by decide) (by decide) t

end Feedless

theorem not_mem_take_add {t : Text} {a b : Nat} {c : CodePoint} (first : c ∉ t.take a)
    (second : c ∉ (t.drop a).take b) : c ∉ t.take (a + b) := by
  rw [List.take_add, List.mem_append]
  exact not_or_intro first second

/-- The length of the sign of an exponent. -/
def signLength (t : Text) : Nat :=
  if headIs (fun c => c == '+' || c == '-') t then 1 else 0

theorem feedless_sign (t : Text) : Feedless signLength t := by
  unfold signLength
  refine ⟨by rw [Text.headIs_crlf rfl], ?_, ?_⟩
  · cases t with
    | nil => exact Nat.le_refl 0
    | cons c rest => split <;> simp
  · cases t with
    | nil => exact List.not_mem_nil
    | cons c rest =>
      split
      · rename_i sign
        rw [List.take_succ_cons, List.take_zero, List.mem_singleton]
        rintro rfl
        cases sign
      · exact List.not_mem_nil

theorem feedless_exponent (t : Text) : Feedless exponentLength t := by
  by_cases letter : headIs (fun c => c == 'e' || c == 'E') t = true
  case neg =>
    have none : exponentLength t = 0 := if_neg letter
    refine ⟨?_, by rw [none]; exact Nat.zero_le _, by rw [none]; exact List.not_mem_nil⟩
    rw [none]
    exact if_neg (by rw [Text.headIs_crlf rfl]; exact letter)
  cases t with
  | nil => cases letter
  | cons c rest =>
    have hc : c ≠ '\n' := by rintro rfl; cases letter
    -- The sign and the digits are counted behind the letter.
    have unfolded (more : Text) :
        exponentLength (c :: more) =
          let digits := countWhile Text.isDigit (more.drop (signLength more))
          if digits == 0 then 0 else signLength more + digits + 1 := by
      unfold exponentLength
      rw [show headIs (fun c => c == 'e' || c == 'E') (c :: more) = true from letter, if_pos rfl,
        List.drop_one, List.tail_cons]
      simp only [Nat.add_comm 1, List.drop_succ_cons, Nat.add_right_comm _ 1]
      rfl
    have sign := feedless_sign rest
    have digits := Feedless.digits (rest.drop (signLength rest))
    refine ⟨?_, (exponentLength_recurs (c :: rest)).1, ?_⟩
    · rw [Text.crlf_cons hc, unfolded, unfolded, sign.same, sign.drop, digits.same]
    · rw [unfolded]
      dsimp only
      split
      · exact List.not_mem_nil
      · rw [List.take_succ_cons, List.mem_cons]
        exact not_or_intro (Ne.symm hc) (not_mem_take_add sign.noFeed digits.noFeed)

theorem feedless_fraction (t : Text) : Feedless fractionLength t := by
  by_cases point : headIs (· == '.') t = true
  case neg =>
    have none : fractionLength t = 0 := if_neg point
    refine ⟨?_, fractionLength_le t, by rw [none]; exact List.not_mem_nil⟩
    rw [none]
    exact if_neg (by rw [Text.headIs_crlf rfl]; exact point)
  cases t with
  | nil => cases point
  | cons c rest =>
    have hc : c ≠ '\n' := by rintro rfl; cases point
    have unfolded (more : Text) : fractionLength (c :: more) = countWhile Text.isDigit more + 1 :=
      (if_pos point).trans (Nat.add_comm ..)
    have digits := Feedless.digits rest
    refine ⟨?_, fractionLength_le _, ?_⟩
    · rw [Text.crlf_cons hc, unfolded, unfolded, digits.same]
    · rw [unfolded, List.take_succ_cons, List.mem_cons]
      exact not_or_intro (Ne.symm hc) digits.noFeed

theorem feedless_decimal (t : Text) : Feedless decimalLength t := by
  have whole := Feedless.digits t
  have fraction := feedless_fraction (t.drop (countWhile Text.isDigit t))
  have exponent := feedless_exponent ((t.drop (countWhile Text.isDigit t)).drop
    (fractionLength (t.drop (countWhile Text.isDigit t))))
  refine ⟨?_, (decimalLength_recurs t).1, ?_⟩
  · rw [decimalLength_eq, decimalLength_eq, whole.same, whole.drop, fraction.same, fraction.drop,
      exponent.same]
  · rw [decimalLength_eq]
    refine not_mem_take_add (not_mem_take_add whole.noFeed fraction.noFeed) ?_
    rw [← List.drop_drop]
    exact exponent.noFeed

/-! ## Scanners and feeds -/

theorem radixOf?_crlf (t : Text) : radixOf? t.crlf = radixOf? t := by
  rcases t with _ | ⟨z, _ | ⟨letter, rest⟩⟩
  · rfl
  · by_cases hz : z = '\n'
    · subst hz; rfl
    · rw [Text.crlf_cons hz]; rfl
  · by_cases hz : z = '\n'
    · subst hz; rfl
    · rw [Text.crlf_cons hz]
      by_cases hletter : letter = '\n'
      · subst hletter
        rw [Text.crlf_feed, radixOf?, radixOf?]
        split <;> rfl
      · rw [Text.crlf_cons hletter]; rfl

/-- The code points of a numeral with a base are none of them feeds. -/
theorem radixLength?_crlf {t : Text} {radix radix' n : Nat} (base : radixOf? t = some radix)
    (h : radixLength? radix' t = some n) :
    radixLength? radix' t.crlf = some n ∧ ('\n' : CodePoint) ∉ t.take n := by
  rcases t with _ | ⟨z, _ | ⟨letter, rest⟩⟩
  · cases base
  · cases base
  have hz : z ≠ '\n' := by rintro rfl; cases base
  have hletter : letter ≠ '\n' := by
    rintro rfl
    rw [radixOf?] at base
    split at base <;> cases base
  have digits := Feedless.countWhile (p := Text.isAlphanumeric) (by decide +kernel)
    (by decide +kernel) rest
  have same := Text.takeWhile_crlf (p := Text.isAlphanumeric) (by decide +kernel)
    (by decide +kernel) rest
  obtain ⟨value, hvalue, rfl⟩ := Option.map_eq_some_iff.mp h
  have hvalue : intOfRadix? radix' (rest.takeWhile Text.isAlphanumeric) = some value := hvalue
  constructor
  · rw [Text.crlf_cons hz, Text.crlf_cons hletter]
    show (intOfRadix? radix' ((Text.crlf rest).takeWhile Text.isAlphanumeric)).map
        (fun _ => 2 + ((Text.crlf rest).takeWhile Text.isAlphanumeric).length)
      = some (2 + (rest.takeWhile Text.isAlphanumeric).length)
    rw [same, hvalue]
    rfl
  · show _ ∉ (z :: letter :: rest).take (2 + (rest.takeWhile Text.isAlphanumeric).length)
    rw [Nat.add_comm, List.take_succ_cons, List.take_succ_cons, List.mem_cons, List.mem_cons]
    exact not_or_intro (Ne.symm hz) (not_or_intro (Ne.symm hletter) digits.noFeed)

/-- **A numeral** holds no feed, and is as long with returns in front of the feeds. -/
theorem numberLength?_crlf {t : Text} {n : Nat} (le : n ≤ t.length)
    (h : numberLength? t = some n) :
    numberLength? t.crlf = some n ∧ ('\n' : CodePoint) ∉ t.take n := by
  rw [numberLength?_eq, numeralLength?_eq] at h
  obtain ⟨m, hm, hname⟩ := Option.bind_eq_some_iff.mp h
  obtain rfl : m = n := by
    split at hname
    · cases hname
    · exact Option.some.inj hname
  have length : numeralLength? t.crlf = some m ∧ ('\n' : CodePoint) ∉ t.take m := by
    rw [numeralLength?_eq, radixOf?_crlf]
    cases base : radixOf? t with
    | some radix =>
      rw [base] at hm
      exact radixLength?_crlf base hm
    | none =>
      rw [base] at hm
      cases hm
      exact ⟨congrArg some (feedless_decimal t).same, (feedless_decimal t).noFeed⟩
  refine ⟨?_, length.2⟩
  rw [numberLength?_eq, length.1, Option.bind_some, Text.drop_crlf le length.2,
    Text.headIs_crlf (by decide +kernel)]
  exact hname

/-! ### What may go over the end of a line -/

/-- What is among the code points from `n` to `m`, but not the first of them, is among those
from the next on. -/
theorem mem_take_rest {c d : CodePoint} {rest : Text} {n m : Nat} (past : n + 1 ≤ m)
    (hc : d ≠ c) (mem : c ∈ (d :: rest).take (m - n)) : c ∈ rest.take (m - (n + 1)) := by
  rw [show m - n = m - (n + 1) + 1 by omega, List.take_succ_cons, List.mem_cons] at mem
  exact mem.resolve_left (Ne.symm hc)

theorem Enclosure.le_of_measure {stack : List Enclosure} {n m : Nat} {t : Text}
    (h : measure stack n t = some m) : n ≤ m := by
  obtain ⟨read, _, _, closes⟩ := closes_of_measure h
  rw [closes.count]
  exact Nat.le_add_right ..

/-- A string that goes over the end of a line does so behind a backslash. With a return
there, its feed is **no longer hidden**, and the string is not closed. -/
theorem measure_string_feed {quote : CodePoint} (noFeed : quote ≠ '\n') {n m : Nat} {t : Text}
    (h : Enclosure.measure [.string quote] n t = some m)
    (mem : ('\n' : CodePoint) ∈ t.take (m - n)) (n' : Nat) :
    Enclosure.measure [.string quote] n' t.crlf = none := by
  generalize hstack : [Enclosure.string quote] = stack at h
  fun_induction Enclosure.measure stack n t generalizing n' with
  | case1 | case8 | case9 | case10 | case11 | case12 | case13 | case14 | case15 | case16 | case17
  | case18 | case19 | case20 => cases hstack
  | case2 | case3 | case6 => cases h
  | case4 quote' outer n c escape d rest ih =>
    have past := Enclosure.le_of_measure h
    cases hstack
    have hc : c ≠ '\n' := by rintro rfl; cases escape
    replace mem := mem_take_rest (by omega) hc mem
    by_cases hd : d = '\n'
    · subst hd
      rw [Text.crlf_cons hc, Text.crlf_feed, Enclosure.measure, if_pos escape]
      cases Text.crlf rest <;>
        rw [Enclosure.measure, if_neg (by decide), if_neg (by simpa using Ne.symm noFeed),
          if_pos (by rfl)]
    · rw [Text.crlf_cons hc, Text.crlf_cons hd, Enclosure.measure, if_pos escape]
      exact ih (mem_take_rest past hd mem) (n' + 2) rfl h
  | case5 quote' outer n c rest escape close ih =>
    -- The quote closes the string, and is no feed.
    cases hstack
    obtain rfl := beq_iff_eq.mp close
    have stop : m = n + 1 := by
      cases rest <;> (rw [Enclosure.measure] at h; exact (Option.some.inj h).symm)
    rw [stop, Nat.add_sub_cancel_left, List.take_succ_cons, List.take_zero,
      List.mem_singleton] at mem
    exact absurd mem.symm noFeed
  | case7 quote' outer n c rest escape close feed ih =>
    have past := Enclosure.le_of_measure h
    cases hstack
    have hc : c ≠ '\n' := by simpa using feed
    have more := ih (mem_take_rest past hc mem) (n' + 1) rfl h
    rw [Text.crlf_cons hc]
    generalize Text.crlf rest = rest' at more
    cases rest' <;>
      (conv => lhs; rw [Enclosure.measure, if_neg escape, if_neg close, if_neg feed]) <;>
      exact more

/-- The same of the body of a regular expression. -/
theorem regexpBodyLength?_feed {inClass : Bool} {n m : Nat} {t : Text}
    (h : regexpBodyLength? inClass n t = some m) (mem : ('\n' : CodePoint) ∈ t.take (m - n))
    (n' : Nat) : regexpBodyLength? inClass n' t.crlf = none := by
  have past {inClass : Bool} {k : Nat} {rest : Text}
      (h : regexpBodyLength? inClass k rest = some m) : k ≤ m := by
    obtain ⟨_, _, _, count, _, _⟩ := regexpBodyLength?_reads h
    omega
  fun_induction regexpBodyLength? inClass n t generalizing n' with
  | case1 | case2 | case3 => cases h
  | case4 inClass n c feed escape d rest ih =>
    have past := past h
    have hc : c ≠ '\n' := by rintro rfl; cases escape
    replace mem := mem_take_rest (by omega) hc mem
    by_cases hd : d = '\n'
    · subst hd
      rw [Text.crlf_cons hc, Text.crlf_feed, regexpBodyLength?, if_neg feed, if_pos escape]
      cases Text.crlf rest <;> (conv => lhs; rw [regexpBodyLength?, if_pos (by rfl)])
    · rw [Text.crlf_cons hc, Text.crlf_cons hd, regexpBodyLength?, if_neg feed, if_pos escape]
      exact ih h (mem_take_rest past hd mem) (n' + 2)
  | case5 inClass n c rest feed escape opens ih =>
    have hc : c ≠ '\n' := by rintro rfl; exact feed rfl
    have more := ih h (mem_take_rest (past h) hc mem) (n' + 1)
    rw [Text.crlf_cons hc]
    generalize Text.crlf rest = rest' at more
    cases rest' <;>
      (conv => lhs; rw [regexpBodyLength?, if_neg feed, if_neg escape, if_pos opens]) <;>
      exact more
  | case6 inClass n c rest feed escape opens closes ih =>
    have hc : c ≠ '\n' := by rintro rfl; exact feed rfl
    have more := ih h (mem_take_rest (past h) hc mem) (n' + 1)
    rw [Text.crlf_cons hc]
    generalize Text.crlf rest = rest' at more
    cases rest' <;>
      (conv => lhs; rw [regexpBodyLength?, if_neg feed, if_neg escape, if_neg opens,
        if_pos closes]) <;>
      exact more
  | case7 inClass n c rest feed escape opens closes slash =>
    cases h
    rw [Nat.add_sub_cancel_left, List.take_succ_cons, List.take_zero, List.mem_singleton] at mem
    exact absurd (mem ▸ rfl) feed
  | case8 inClass n c rest feed escape opens closes slash ih =>
    have hc : c ≠ '\n' := by rintro rfl; exact feed rfl
    have more := ih h (mem_take_rest (past h) hc mem) (n' + 1)
    rw [Text.crlf_cons hc]
    generalize Text.crlf rest = rest' at more
    cases rest' <;>
      (conv => lhs; rw [regexpBodyLength?, if_neg feed, if_neg escape, if_neg opens,
        if_neg closes, if_neg slash]) <;>
      exact more

end Scriptlet
