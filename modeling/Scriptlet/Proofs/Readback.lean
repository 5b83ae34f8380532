import Scriptlet.Program
import Scriptlet.Proofs.Readback.Evaluation

/-!
# Reading back what is displayed

What is displayed of data is a literal of the data again: put in parentheses, so that an
object is not taken for a block, it is a program of one statement, and the value of this
holds the same data.

On the way every part of the language has its say. What is displayed goes by the data and
not by places in the store; the text is cut into tokens that do not depend on what stands
around them; the tokens are read as a literal; and the literal is evaluated to data in new
places. Strings go through two sets of rules on escapes and integers through those on
numerals of all scripts, and neither set knows of the other.
-/

namespace Scriptlet

open Step

namespace Program

variable {s : Store} {d : Datum}

/-- Running a program of one statement that is a literal of data. -/
theorem runWith_yields {host : Host} {depth : Nat} {frame : FrameRef} {n : Node}
    {p q : Option Position} (literal : d.Literal n) (plain : d.IsPlain) (deep : d.levels ≤ depth)
    (empty : s.BindsNothing frame) :
    (runWith (Task.runTo host (depth + 2)) (.branch .program p [.branch .expressionStatement q [n]])
      frame).Yields s fun values s' => ∃ v, values = [v] ∧ s'.Holds d v := by
  have prepared : (prepare (.branch .program p [.branch .expressionStatement q [n]]) frame).Yields s
      fun _ _ => True := ⟨(), _, rfl, ⟨id, id, rfl⟩, trivial⟩
  refine prepared.bind fun _ s' grows _ => ?_
  have statement : (Task.runTo host (depth + 2) (.eval (.branch .expressionStatement q [n]) frame)).Yields s'
      fun v s'' => s''.Holds d v :=
    Task.runTo_branch_yields (Datum.isYielded plain deep n literal s' (empty.grow grows))
  exact statement.bind fun v s'' _ hv => .pure ⟨v, by rw [hv.orUndefined], hv⟩

/-- What is displayed of data can be parsed, between parentheses. -/
theorem parseProgram_spelling (d : Datum) :
    ∃ p q n, parseProgram ("(" ++ d.spelling ++ ")")
      = .ok (.branch .program p [.branch .expressionStatement q [n]]) ∧ d.Literal n := by
  obtain ⟨tokens, found, same⟩ := d.isCutInto.tokenize_eq 1
  obtain ⟨p, q, n, parsed, literal⟩ := Datum.parseTokens_eq same
  refine ⟨p, q, n, ?_, literal⟩
  rw [parseProgram, found]
  exact parsed

/-- **Displayed data can be read back.** Let a value be made of undefined, null, truth values,
integers in the safe range, strings of the basic plane, lists, and objects with such strings as
keys, and let nothing in it lead back to itself. It is displayed, and what is displayed can be
parsed between parentheses. In an empty context, whatever else there is in the store, the one
value of the program then holds the same data: the same types, items and entries, in the same
order. The run needs two more levels of depth than the data have. -/
theorem reads_back_display {v : Value} (held : s.Holds d v) (plain : d.IsPlain) :
    ∃ shown, s.display v = .ok shown
      ∧ (∃ program, parseProgram ("(" ++ shown ++ ")") = .ok program)
      ∧ ∀ (host : Host) (depth : Nat) (s' : Store) (context : ObjectRef),
          d.levels + 2 ≤ depth → s'.objects[context]? = some [] →
          ∃ v' s'', evaluateAllWith (Task.runTo host depth) ("(" ++ shown ++ ")") context s' = .ok [v'] s''
            ∧ s''.Holds d v' := by
  obtain ⟨p, q, n, parsed, literal⟩ := parseProgram_spelling d
  refine ⟨d.spelling, s.display_eq held plain, ⟨_, parsed⟩, fun host depth s' context deep empty => ?_⟩
  obtain ⟨depth, rfl⟩ : ∃ m, depth = m + 2 := ⟨depth - 2, by omega⟩
  -- The frame of the program binds names in the context.
  let opened := s'.openFrame context none (some ("(" ++ d.spelling ++ ")"))
  have alone : opened.2.BindsNothing opened.1 := ⟨_, Array.getElem?_push_size, rfl, empty⟩
  have yields : (runWith (Task.runTo host (depth + 2))
      (.branch .program p [.branch .expressionStatement q [n]]) opened.1).Yields opened.2
      fun values s'' => ∃ v', values = [v'] ∧ s''.Holds d v' :=
    runWith_yields literal plain (by omega) alone
  obtain ⟨_, s'', ran, -, v', rfl, holds⟩ := yields
  refine ⟨v', s'', ?_, holds⟩
  rw [evaluateAllWith, read, parsed]
  exact ran

/-- A list in which an object comes up twice. One of its keys is a reserved word, and the string
has a quote in it. -/
theorem reads_back_display_of_shared :
    let s : Store := { Store.empty with
      lists := #[[.int (-3), .object 0, .object 0]]
      objects := #[[(.text "if", .text "it's"), (.text "0", .undefined)], []] }
    let part : Datum := .object [("if", .text "it's"), ("0", .undefined)]
    let d : Datum := .list [.int (-3), part, part]
    s.Holds d (.list 0) ∧ d.IsPlain ∧ d.levels + 2 ≤ 5 ∧ s.objects[1]? = some [] ∧
      ∃ shown v' s', s.display (.list 0) = .ok shown
        ∧ evaluateAllWith (Task.runTo .bare 5) ("(" ++ shown ++ ")") 1 s = .ok [v'] s'
        ∧ s'.Holds d v' := by
  intro s part d
  have held : s.Holds part (.object 0) :=
    .object rfl (.cons (.mk _ (.text _)) (.cons (.mk _ .undefined) .nil))
  have whole : s.Holds d (.list 0) := .list rfl (.cons (.int _) (.cons held (.cons held .nil)))
  have plain : d.IsPlain := by
    simp only [d, part, Datum.IsPlain, List.forall_mem_cons, List.not_mem_nil, false_imp_iff, implies_true, and_true]
    decide +kernel
  have levels : d.levels + 2 ≤ 5 := by simp [d, part, Datum.levels]
  obtain ⟨shown, displayed, -, evaluated⟩ := reads_back_display whole plain
  obtain ⟨v', s', ran, holds⟩ := evaluated .bare 5 s 1 levels rfl
  exact ⟨whole, plain, levels, rfl, shown, v', s', displayed, ran, holds⟩

end Program

end Scriptlet
