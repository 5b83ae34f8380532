import Scriptlet.Proofs.Contract.Method
import Scriptlet.Walk

/-!
# Taking nodes apart

Where trees conform to the table, a node can always be taken apart the way its kind
asks for. What the table says of the parts is given along with them, so that the walk
can go on with each.
-/

namespace Scriptlet

/-! ## What the table says of rows of children -/

namespace Kind

/-- The kinds with **two children**. -/
def pairs : List Kind :=
  [.arrow, .unary, .update, .property, .member, .call, .construct, .taggedTemplate]

/-- The kinds with **three children**. -/
def triples : List Kind :=
  [.functionDeclaration, .binary, .logical, .assign]

variable {kind : Kind} {children : List Node}

theorem exists_pair (hk : kind ∈ pairs) (h : kind.admits children = true) :
    ∃ a b, children = [a, b] := by
  simp only [pairs, List.mem_cons, List.not_mem_nil, or_false] at hk
  match children with
  | [a, b] => exact ⟨a, b, rfl⟩
  | [] => rcases hk with rfl | rfl | rfl | rfl | rfl | rfl | rfl | rfl <;> cases h
  | [_] => rcases hk with rfl | rfl | rfl | rfl | rfl | rfl | rfl | rfl <;> cases h
  | _ :: _ :: _ :: _ => rcases hk with rfl | rfl | rfl | rfl | rfl | rfl | rfl | rfl <;> cases h

theorem exists_triple (hk : kind ∈ triples) (h : kind.admits children = true) :
    ∃ a b c, children = [a, b, c] := by
  simp only [triples, List.mem_cons, List.not_mem_nil, or_false] at hk
  match children with
  | [a, b, c] => exact ⟨a, b, c, rfl⟩
  | [] => rcases hk with rfl | rfl | rfl | rfl <;> cases h
  | [_] => rcases hk with rfl | rfl | rfl | rfl <;> cases h
  | [_, _] => rcases hk with rfl | rfl | rfl | rfl <;> cases h
  | _ :: _ :: _ :: _ :: _ => rcases hk with rfl | rfl | rfl | rfl <;> cases h

/-- The kinds whose **first child is an expression**, whatever follows. -/
def headed : List Kind :=
  [.expressionStatement, .spread, .computedKey, .conditional, .conditionalStatement]

theorem exists_first (hk : kind ∈ headed) (h : kind.admits children = true) :
    ∃ n rest, children = n :: rest ∧ n.isExpression = true := by
  simp only [headed, List.mem_cons, List.not_mem_nil, or_false] at hk
  match children with
  | [] => rcases hk with rfl | rfl | rfl | rfl | rfl <;> cases h
  | [a] => exact ⟨a, _, rfl, by rcases hk with rfl | rfl | rfl | rfl | rfl <;> simp_all [admits]⟩
  | [a, _] => exact ⟨a, _, rfl, by rcases hk with rfl | rfl | rfl | rfl | rfl <;> simp_all [admits]⟩
  | [a, _, _] =>
    exact ⟨a, _, rfl, by rcases hk with rfl | rfl | rfl | rfl | rfl <;> simp_all [admits]⟩
  | _ :: _ :: _ :: _ :: _ => rcases hk with rfl | rfl | rfl | rfl | rfl <;> cases h

/-- A name stands first in an identifier and in a declarator. -/
theorem exists_name (hk : kind = .identifier ∨ kind = .declarator)
    (h : kind.admits children = true) :
    ∃ n rest, children = n :: rest ∧ n.isLeafOf .identifier = true := by
  match children with
  | [] => rcases hk with rfl | rfl <;> cases h
  | [a] => exact ⟨a, _, rfl, by rcases hk with rfl | rfl <;> exact h⟩
  | [a, _] => exact ⟨a, _, rfl, by rcases hk with rfl | rfl <;> simp_all [admits]⟩
  | _ :: _ :: _ :: _ => rcases hk with rfl | rfl <;> cases h

end Kind

/-- Each part of a template is a chunk or an expression. -/
theorem isOf_or_isExpression_of_alternates {parts : List Node} (h : alternates parts = true) :
    ∀ n ∈ parts, n.isOf .templateChunk = true ∨ n.isExpression = true := by
  fun_induction alternates parts with
  | case1 => cases h
  | case2 chunk => simpa using .inl h
  | case3 chunk expression rest ih =>
    simp only [Bool.and_eq_true] at h
    intro n hn
    rcases List.mem_cons.mp hn with rfl | hn
    · exact .inl h.1.1
    rcases List.mem_cons.mp hn with rfl | hn
    · exact .inr h.1.2
    · exact ih h.2 n hn

namespace Regime

variable {R : Regime} {kind : Kind} {children : List Node} {sort : Node → Bool} {n : Node}

/-- A child of which the table says what sort it is. -/
theorem Admits.has (h : R.Admits kind children) (hn : n ∈ children)
    (hsort : kind.admits children = true → sort n = true) : R.Has sort n :=
  fun hs => ⟨(h hs).2 n hn, hsort (h hs).1⟩

/-- Children of which the table says what sort all of them are. -/
theorem Admits.hasAll (h : R.Admits kind children)
    (hsort : kind.admits children = true → ∀ n ∈ children, sort n = true) :
    ∀ n ∈ children, R.Has sort n :=
  fun n hn => h.has hn fun ha => hsort ha n hn

/-- What is of a kind has children that the kind admits. -/
theorem Has.admits (h : R.Has (·.isOf kind) n) : R.Admits kind n.children := by
  intro hs
  obtain ⟨conforms, isOf⟩ := h hs
  obtain ⟨position, children, rfl⟩ := Node.isOf_iff.mp isOf
  exact ⟨conforms.admits, fun _ => conforms.child⟩

/-- What is said of a branch is said of its kind and its children. -/
theorem Has.branch {position : Option Position} (h : R.Has sort (.branch kind position children)) :
    R.Admits kind children :=
  fun hs => ⟨(h hs).1.admits, fun _ => (h hs).1.child⟩

theorem Has.mono {sort' : Node → Bool} (h : R.Has sort n)
    (hsort : sort n = true → sort' n = true) : R.Has sort' n :=
  fun hs => ⟨(h hs).1, hsort (h hs).2⟩

end Regime

/-! ## Parts -/

namespace Step

variable {R : Regime} {may : Prop} {s : Store} {kind : Kind} {children : List Node}

/-- Nothing is misshapen where trees conform. -/
theorem misshapen_obeys {α : Type} {P : α → Store → Prop} {f : HostFault} (h : ¬ R.shaped) :
    (Step.misshapen f : Step α).Obeys R may s P :=
  .throw h

theorem pair_obeys (h : R.Admits kind children) (hk : kind ∈ Kind.pairs) :
    (Step.pair children).Obeys R may s fun parts _ => children = [parts.1, parts.2] := by
  unfold Step.pair
  split
  · exact .pure fun _ => rfl
  · rename_i other
    refine misshapen_obeys fun hs => ?_
    obtain ⟨a, b, rfl⟩ := Kind.exists_pair hk (h hs).1
    exact other a b rfl

theorem triple_obeys (h : R.Admits kind children) (hk : kind ∈ Kind.triples) :
    (Step.triple children).Obeys R may s fun parts _ =>
      children = [parts.1, parts.2.1, parts.2.2] := by
  unfold Step.triple
  split
  · exact .pure fun _ => rfl
  · rename_i other
    refine misshapen_obeys fun hs => ?_
    obtain ⟨a, b, c, rfl⟩ := Kind.exists_triple hk (h hs).1
    exact other a b c rfl

theorem child_obeys {index : Nat} (h : R.shaped → index < children.length) :
    (Step.child children index).Obeys R may s fun n _ => children[index]? = some n := by
  unfold Step.child
  split
  · rename_i n hn
    exact .pure fun _ => hn
  · rename_i hnone
    exact misshapen_obeys fun hs => Nat.not_le_of_lt (h hs) (List.getElem?_eq_none_iff.mp hnone)

/-- The first child, of which the table says what sort it is. -/
theorem first_obeys {sort : Node → Bool} (h : R.Admits kind children)
    (hfirst : kind.admits children = true → ∃ n rest, children = n :: rest ∧ sort n = true) :
    (Step.child children 0).Obeys R may s fun n _ => R.Has sort n := by
  refine (child_obeys fun hs => ?_).mono id fun n _ _ hn hs => ?_
  · obtain ⟨_, _, rfl, -⟩ := hfirst (h hs).1
    exact Nat.succ_pos _
  · obtain ⟨first, rest, rfl, hsort⟩ := hfirst (h hs).1
    obtain rfl : first = n := by simpa using hn
    exact ⟨(h hs).2 first List.mem_cons_self, hsort⟩

theorem leafChild_obeys (h : R.shaped → ∃ n, children.head? = some n ∧ n.isLeaf = true) :
    (Step.leafChild children).Obeys R may s fun leaf _ =>
      ∃ position, children.head? = some (.leaf leaf.1 leaf.2 position) := by
  have there : R.shaped → 0 < children.length := fun hs => by
    obtain ⟨n, hn, -⟩ := h hs
    cases children with
    | nil => cases hn
    | cons => exact Nat.succ_pos _
  refine (child_obeys there).bind fun n _ _ hn => ?_
  rw [← List.head?_eq_getElem?] at hn
  split
  · exact .pure fun _ => ⟨_, hn⟩
  · rename_i other
    refine misshapen_obeys fun hs => ?_
    obtain ⟨m, hm, isLeaf⟩ := h hs
    obtain rfl : n = m := Option.some.inj (hn.symm.trans hm)
    cases n with
    | leaf label text position => exact other label text position rfl
    | _ => cases isLeaf

theorem branchChildren_obeys {n : Node} (h : R.shaped → ∃ kind, n.isOf kind = true) :
    (Step.branchChildren n).Obeys R may s fun children _ => children = n.children := by
  unfold Step.branchChildren
  split
  · exact .pure fun _ => rfl
  · rename_i other
    refine misshapen_obeys fun hs => ?_
    obtain ⟨kind, isOf⟩ := h hs
    obtain ⟨position, children, rfl⟩ := Node.isOf_iff.mp isOf
    exact other _ _ _ rfl

/-- A name, where the table has one. -/
theorem identifier_obeys {what : Text} {n : Node} (h : R.Has (·.isLeafOf .identifier) n) :
    (Step.identifier what n).Obeys R may s fun _ _ => True := by
  unfold Step.identifier
  split
  · exact .pure fun _ => trivial
  · rename_i hnone
    refine .throw fun hs => ?_
    obtain ⟨text, position, rfl⟩ := Node.isLeafOf_iff.mp (h hs).2
    cases hnone

end Step

end Scriptlet
