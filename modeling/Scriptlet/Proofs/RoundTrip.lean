import Scriptlet.Proofs.Depth
import Scriptlet.Proofs.RoundTrip.Statement

/-!
# Parsing undoes printing

Every tree that can be printed is read again, by induction over trees: the steps are all
at hand, one for each kind. The tokens of a printed program are then read to their end,
and what is made of them is the program, regardless of places.
-/

namespace Scriptlet

open Reader

mutual

/-- **Every tree that can be printed is read again.** -/
theorem Node.rereads : ∀ n : Node, n.isPrintable = true → n.Rereads
  | .branch kind position children, h => by
    have admitted := admits_of_isPrintable h
    simp only [isPrintable, Bool.and_eq_true] at h
    obtain ⟨⟨⟨-, noTemplate⟩, binds⟩, below⟩ := h
    have printable := Node.isPrintable_of_arePrintable below
    have ih : ∀ c ∈ children, c.Rereads := Node.allReread children below
    cases kind with
    | program | hole | templateChunk | other => exact nofun
    | template | taggedTemplate => cases noTemplate
    | block => exact block_rereads admitted printable ih
    | expressionStatement => exact expressionStatement_rereads admitted ih
    | empty => exact empty_rereads admitted
    | declaration => exact declaration_rereads admitted printable ih
    | declarator => exact declarator_rereads admitted ih
    | functionDeclaration => exact functionDeclaration_rereads admitted ih
    | function => exact function_rereads admitted ih
    | arrow => exact arrow_rereads admitted ih
    | params => exact params_rereads admitted
    | conditionalStatement => exact conditionalStatement_rereads admitted binds ih
    | returnStatement => exact returnStatement_rereads admitted ih
    | literal => exact literal_rereads admitted
    | identifier => exact identifier_rereads admitted
    | this => exact this_rereads admitted
    | unary => exact unary_rereads admitted ih
    | binary => exact binary_rereads admitted ih
    | logical => exact logical_rereads admitted ih
    | conditional => exact conditional_rereads admitted ih
    | array => exact array_rereads admitted printable ih
    | object => exact object_rereads admitted printable ih
    | property => exact property_rereads admitted ih
    | computedKey => exact computedKey_rereads admitted ih
    | spread => exact spread_rereads admitted ih
    | member => exact member_rereads admitted ih
    | assign => exact assign_rereads admitted ih
    | update => exact update_rereads admitted ih
    | call => exact call_rereads admitted ih
    | construct => exact construct_rereads admitted ih
    | arguments => exact arguments_rereads admitted ih
  | .leaf .., _ => nofun
  | .stray _, _ => nofun

theorem Node.allReread :
    ∀ ns : List Node, Node.arePrintable ns = true → ∀ n ∈ ns, n.Rereads
  | [], _, _, hn => nomatch hn
  | m :: rest, h, n, hn => by
    obtain ⟨first, others⟩ := Bool.and_eq_true_iff.mp h
    rcases List.mem_cons.mp hn with same | hn
    · exact same ▸ m.rereads first
    · exact Node.allReread rest others n hn

end

namespace Program

variable {program : Node} {tokens : List Token}

/-- **Parsing undoes printing.** A program that can be printed is what is read from its
tokens, wherever these stand. -/
theorem reads_what_is_printed (h : program.isOf .program = true)
    (printable : program.isPrintable = true) (same : tokens.map Token.unplaced = print program) :
    ∃ tree, parseTokens tokens = .ok tree ∧ program.Alike tree := by
  obtain ⟨position, children, rfl⟩ := Node.isOf_iff.mp h
  have admitted := Node.admits_of_isPrintable printable
  have statements : ∀ e ∈ children, e.isStatement = true := List.all_eq_true.mp admitted
  simp only [Node.isPrintable, Bool.and_eq_true] at printable
  have below := Node.isPrintable_of_arePrintable printable.2
  have printed : print (.branch .program position children) =
    (Node.printEach children).flatten ++ [TokenKind.endOfText.mark] := rfl
  have deep := length_lt_depthFor tokens
  have length : tokens.length = (Node.printEach children).flatten.length + 1 := by
    rw [← List.length_map Token.unplaced, same, printed, List.length_append]
    rfl
  have shorter := Node.length_le_flatten fun e he => by
    obtain ⟨u, more, same, -⟩ := Node.print_of_isStatement (below e he) (statements e he)
    exact same ▸ List.cons_ne_nil _ _
  have reads : (readProgram (readRule (depthFor tokens))).Reads
      ((Node.printEach children).flatten ++ [TokenKind.endOfText.mark])
      (Node.branch .program position children).Alike [TokenKind.endOfText.mark] := by
    refine .start_bind fun start => .room_bind ?_
    refine Reads.bind (Node.readStatements_reads ?_ statements below
      (Node.allReread children printable.2) (fun e he => ?_) nofun (.check_bind (.pure rfl))
      fun u more hu => .check_bind (.pure ?_)) fun made like => .pure (Node.alike_make like)
    · rw [List.length_append]
      exact Nat.lt_succ_of_le shorter
    · have := Node.length_print_le he
      omega
    · exact beq_eq_false_iff_ne.mpr (TokenKind.ne_of hu rfl)
  obtain ⟨tree, left, hrun, like, -⟩ := reads tokens (same.trans printed)
  refine ⟨tree, ?_, like⟩
  show Except.map Prod.fst (readProgram (readRule (depthFor tokens)) tokens) = .ok tree
  rw [hrun]
  rfl

/-- The program `if (a) if (b) ; else [, c];`, whose alternate belongs to the inner of two
conditional statements, printed and read. -/
theorem reads_what_is_printed_of_alternate :
    let name (text : Text) : Node := .branch .identifier none [.leaf .identifier text ⟨1, none⟩]
    let list : Node := .branch .array none [.branch .hole none [], name "c"]
    let inner : Node := .branch .conditionalStatement none
      [name "b", .branch .empty none [], .branch .expressionStatement none [list]]
    let program : Node := .branch .program none [.branch .conditionalStatement none [name "a", inner]]
    program.isOf .program = true ∧ program.isPrintable = true ∧
      ∃ tree, parseTokens (print program) = .ok tree ∧ program.Alike tree :=
  ⟨rfl, by decide, reads_what_is_printed rfl (by decide) (by decide)⟩

end Program

end Scriptlet
