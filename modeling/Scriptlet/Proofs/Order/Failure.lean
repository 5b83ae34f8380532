import Scriptlet.Proofs.Order.Agenda

/-!
# Failures that end an agenda

In most kinds of nodes nothing more is evaluated once a part has failed. This shows in their
agendas, if these are told of failures: an agenda is *strict* if it ends wherever a part fails,
and is told so. One strict agenda after another is strict if the second has nothing to come to
after a failure in the first.
-/

namespace Scriptlet

/-- **Only the last** of the items may be a part that fails. -/
def FailsLast (items : List (Item × Option Value)) : Prop :=
  ∀ n v, (Item.evaluate n, some v) ∈ items.dropLast → v.isFailure = false

/-- The kinds of nodes that fail as soon as **one of their parts fails**. -/
def Kind.isStrict : Kind → Bool
  | unary | binary | logical | conditional | conditionalStatement | member | assign | update | call => true
  | _ => false

namespace Agenda

/-- A **strict** agenda ends where a part fails, and with something of which `failed` holds. -/
inductive Strict (failed : σ → Prop) : Agenda σ → Prop
  | done (x : σ) : Strict failed (.done x)
  | item {i : Item} {next : Value → Agenda σ}
    (ends : ∀ n v, i = .evaluate n → v.isFailure = true → ∃ x, next v = .done x ∧ failed x)
    (further : ∀ v, Strict failed (next v)) : Strict failed (.item i next)

variable {a : Agenda σ} {b : σ → Agenda τ} {failed : σ → Prop} {failed' : τ → Prop}

/-- On the path of a strict agenda only the last part fails. -/
theorem Strict.failsLast (h : a.Strict failed) {items : List (Item × Option Value)} {end? : Option σ}
    (path : a.Path items end?) : FailsLast items := by
  intro n v member
  induction path with
  | done | between => cases member
  | interrupted => cases member
  | @item i next w after end? path ih =>
    cases h with
    | item ends further =>
      cases after with
      | nil => cases member
      | cons first rest =>
        rcases List.mem_cons.mp member with same | member
        · obtain ⟨rfl, rfl⟩ : Item.evaluate n = i ∧ v = w := by simpa using same
          by_contra fails
          obtain ⟨x, done, -⟩ := ends n v rfl (Bool.eq_true_of_not_eq_false fails)
          rw [done] at path
          cases path
        · exact ih (further w) member

theorem Strict.bind (first : a.Strict failed)
    (ends : ∀ x, failed x → ∃ y, b x = .done y ∧ failed' y) (second : ∀ x, (b x).Strict failed') :
    (a >>= b).Strict failed' := by
  induction first with
  | done x => exact second x
  | item endsFirst _ ih =>
    refine .item (fun n v same fails => ?_) ih
    obtain ⟨x, done, hx⟩ := endsFirst n v same fails
    obtain ⟨y, done', hy⟩ := ends x hx
    refine ⟨y, ?_, hy⟩
    rw [done]
    exact done'

theorem Strict.map (h : a.Strict failed) {f : σ → τ} (hf : ∀ x, failed x → failed' (f x)) :
    (a >>= fun x => Pure.pure (f x)).Strict failed' :=
  h.bind (fun x hx => ⟨f x, rfl, hf x hx⟩) fun x => .done (f x)

theorem strict_evaluate (n : Node) : (evaluate n).Strict fun v => v.isFailure = true :=
  .item (fun _ v _ fails => ⟨v, rfl, fails⟩) .done

theorem strict_part (n : Node) : (inTurn [n]).Strict fun _ => True :=
  (strict_evaluate n).map fun _ _ => trivial

theorem strict_parts (n? : Option Node) : (inTurn n?.toList).Strict fun _ => True := by
  cases n? with
  | none => exact .done ()
  | some n => exact strict_part n

/-! ## The kinds -/

variable (children : List Node)

theorem unary_strict : (unary children).Strict fun _ => True := by
  unfold unary
  split
  · split
    · exact strict_part _
    · exact .done ()
  · exact .done ()

theorem binary_strict : (binary children).Strict fun _ => True := by
  unfold binary
  split
  · refine (strict_evaluate _).bind (fun v fails => ⟨(), ?_, trivial⟩) fun v => ?_
    · rw [fails]
      rfl
    · split
      · exact .done ()
      · exact strict_part _
  · exact .done ()

theorem conditional_strict : (conditional children).Strict fun _ => True := by
  unfold conditional
  split
  · refine (strict_evaluate _).bind (fun v fails => ⟨(), if_pos fails, trivial⟩) fun v => ?_
    split
    · exact .done ()
    · exact strict_parts _
  · exact .done ()

theorem memberKey_strict (object : Value) (n : Node) : (memberKey object n).Strict (· = none) := by
  unfold memberKey
  split
  · exact .done none
  · split
    · exact .done _
    · refine (strict_evaluate n).map fun v fails => ?_
      rw [fails]
      rfl

theorem memberParts_strict : (memberParts children).Strict (· = none) := by
  unfold memberParts
  split
  · refine (strict_evaluate _).bind (fun v fails => ⟨none, if_pos fails, rfl⟩) fun object => ?_
    split
    · exact .done none
    · refine (memberKey_strict object _).map ?_
      rintro _ rfl
      rfl
  · exact .done none

theorem argument_strict (n : Node) : (argument n).Strict (· = false) := by
  unfold argument
  split
  · rename_i children
    cases children[0]? with
    | none => exact .done _
    | some n =>
      refine (strict_evaluate n).map fun v fails => ?_
      cases v <;> first | rfl | cases fails
  · refine (strict_evaluate _).map fun v fails => ?_
    rw [fails]
    rfl

theorem callArguments_strict : (callArguments children).Strict (· = false) := by
  induction children with
  | nil => exact .done true
  | cons n rest ih =>
    refine (argument_strict n).bind ?_ fun given => ?_
    · rintro _ rfl
      exact ⟨false, rfl, rfl⟩
    · split
      · exact ih
      · exact .done false

/-- What is called, if it fails, is nothing that can be called. -/
theorem callee_strict (n : Node) :
    (callee n).Strict fun found => ∀ f, found = some f → f.isCallable = false := by
  unfold callee
  split
  · refine (memberParts_strict _).bind ?_ fun parts => ?_
    · rintro _ rfl
      exact ⟨none, rfl, nofun⟩
    · cases parts with
      | none => exact .done none
      | some parts => exact .item nofun fun v => .done (some v)
  · refine (strict_evaluate _).map ?_
    rintro v fails _ ⟨⟩
    exact Value.isCallable_of_isFailure fails

theorem call_strict : (call children).Strict fun _ => True := by
  unfold call
  split
  · refine (callee_strict _).bind (fun found fails => ⟨(), ?_, trivial⟩) fun found => ?_
    · cases found with
      | none => rfl
      | some f => exact if_neg (Bool.eq_false_iff.mp (fails f rfl))
    · cases found with
      | none => exact .done ()
      | some f =>
        dsimp only
        split
        · refine (callArguments_strict _).bind ?_ fun given => ?_
          · rintro _ rfl
            exact ⟨(), rfl, trivial⟩
          · split
            · exact .item (fun _ _ same => by cases same) fun _ => .done ()
            · exact .done ()
        · exact .done ()
  · exact .done ()

theorem target_strict (n : Node) : (target n).Strict fun _ => True := by
  unfold target
  split
  · exact (memberParts_strict _).map fun _ _ => trivial
  · exact .done ()

theorem assign_strict : (assign children).Strict fun _ => True := by
  unfold assign
  split
  · refine (strict_evaluate _).bind (fun v fails => ⟨(), ?_, trivial⟩) fun v => ?_
    · rw [fails]
      rfl
    · split
      · exact .done ()
      · exact target_strict _
  · exact .done ()

/-- **The agendas of strict kinds** are strict. -/
theorem ofKind_strict {kind : Kind} (h : kind.isStrict = true) :
    (ofKind kind children).Strict fun _ => True := by
  cases kind with
  | unary => exact unary_strict children
  | binary | logical => exact binary_strict children
  | conditional | conditionalStatement => exact conditional_strict children
  | member => exact (memberParts_strict children).map fun _ _ => trivial
  | assign => exact assign_strict children
  | update =>
    show (update children).Strict _
    unfold update
    split
    · exact target_strict _
    · exact .done ()
  | call => exact call_strict children
  | _ => cases h

end Agenda

end Scriptlet
