import Scriptlet.Proofs.Contract.Expression
import Scriptlet.Proofs.Unaware.Method
import Scriptlet.Walk.Operation

/-!
# Expressions are unaware

Members, calls, assignments and operations. An expression uses a name by itself only where
it is an identifier, and there the name is one of those in the tree; all else is left to its
parts, which are evaluated by the runner in the same frame.
-/

namespace Scriptlet

variable {V : Veil} {s : Store} {run : Runner} {children : List Node} {frame : FrameRef}

/-! ## Parts of nodes -/

/-- The name in an identifier leaf is its text. -/
theorem Node.leafText?_of_identifier? {n : Node} {name : Text} (h : n.identifier? = some name) :
    n.leafText? = some name := by
  unfold identifier? at h
  split at h
  · exact h
  · cases h

namespace Step

theorem pair_unaware :
    (Step.pair children).Unaware V s fun parts => children = [parts.1, parts.2] := by
  unfold Step.pair
  split
  · exact .pure fun _ => rfl
  · exact .misshapen

theorem triple_unaware :
    (Step.triple children).Unaware V s fun parts =>
      children = [parts.1, parts.2.1, parts.2.2] := by
  unfold Step.triple
  split
  · exact .pure fun _ => rfl
  · exact .misshapen

theorem child_unaware {index : Nat} :
    (Step.child children index).Unaware V s fun n => children[index]? = some n := by
  unfold Step.child
  split
  · rename_i found
    exact .pure fun _ => found
  · exact .misshapen

theorem leafChild_unaware :
    (Step.leafChild children).Unaware V s fun leaf =>
      children.head?.bind Node.leafText? = some leaf.2 := by
  refine child_unaware.bind fun n _ _ hn => ?_
  split
  · exact .pure fun _ => by rw [List.head?_eq_getElem?, hn]; rfl
  · exact .misshapen

theorem branchChildren_unaware {n : Node} :
    (Step.branchChildren n).Unaware V s fun children => children = n.children := by
  unfold Step.branchChildren
  split
  · exact .pure fun _ => rfl
  · exact .misshapen

theorem identifier_unaware {what : Text} {n : Node} :
    (Step.identifier what n).Unaware V s fun name => n.identifier? = some name := by
  unfold Step.identifier
  split
  · rename_i found
    exact .pure fun _ => found
  · exact .error

end Step

namespace Walk

/-! ## Members -/

theorem memberKey_unaware (hrun : run.Unaware V) (reached : .frame frame ∉ V.garbage)
    {object : Value} {property : Node} (hobject : V.Fits object) (h : V.Speaks property) :
    (memberKey run object property frame).Unaware V s V.Fits := by
  unfold memberKey
  split
  · exact Step.failWith_unaware
  split
  · split
    · exact (Step.display_unaware hobject).bind fun _ _ _ _ => Step.failWith_unaware
    · exact .pure fun _ => Value.fits_text _
  · refine (hrun.eval reached h).bind fun key _ _ hkey => ?_
    split
    · exact .pure fun _ => hkey
    · refine .ofExcept_bind fun truth _ => ?_
      split
      · exact .pure fun _ => hkey
      · exact (Step.display_unaware hobject).bind fun _ _ _ _ => Step.failWith_unaware

/-- The object and the key of a member fit, where there are any. -/
theorem memberParts_unaware (hrun : run.Unaware V) (reached : .frame frame ∉ V.garbage)
    (h : ∀ n ∈ children, V.Speaks n) :
    (memberParts run children frame).Unaware V s fun o =>
      ∀ parts, o = some parts → V.Fits parts.1 ∧ V.Fits parts.2 := by
  refine Step.pair_unaware.bind fun parts _ _ hparts => ?_
  obtain ⟨owner, property⟩ := parts
  obtain rfl : children = [owner, property] := hparts
  refine (hrun.eval reached (h owner (by simp))).bind fun object _ _ hobject => ?_
  split
  · exact .pure fun _ => by simp
  refine (memberKey_unaware hrun reached hobject (h property (by simp))).bind fun key _ _ hkey => ?_
  split
  · exact .pure fun _ => by simp
  · exact .pure fun _ => by simpa using ⟨hobject, hkey⟩

theorem member_unaware (hrun : run.Unaware V) (reached : .frame frame ∉ V.garbage)
    (h : ∀ n ∈ children, V.Speaks n) : (member run children frame).Unaware V s V.Fits := by
  refine (memberParts_unaware hrun reached h).bind fun parts _ _ hparts => ?_
  split
  · exact .pure fun _ => Veil.fits_failure
  · exact Step.getProperty_unaware (hparts _ rfl).1 (hparts _ rfl).2

/-! ## Arguments -/

theorem spreadArgument_unaware (hrun : run.Unaware V) (reached : .frame frame ∉ V.garbage)
    (h : ∀ n ∈ children, V.Speaks n) :
    (spreadArgument run children frame).Unaware V s fun o =>
      ∀ values, o = some values → ∀ v ∈ values, V.Fits v := by
  refine Step.child_unaware.bind fun n _ _ hn => ?_
  refine (hrun.eval reached (h n (List.mem_of_getElem? hn))).bind fun v _ _ hv => ?_
  refine (Step.spread?_unaware hv).bind fun o _ _ ho => ?_
  split
  · exact .pure fun _ => ho
  · exact (Step.display_unaware hv).bind fun _ _ _ _ => Step.warn_unaware.bind fun _ _ _ _ =>
      .pure fun _ => by simp

theorem argumentValues_unaware (hrun : run.Unaware V) (reached : .frame frame ∉ V.garbage)
    {n : Node} (h : V.Speaks n) :
    (argumentValues run frame n).Unaware V s fun o =>
      ∀ values, o = some values → ∀ v ∈ values, V.Fits v := by
  unfold argumentValues
  split
  · exact spreadArgument_unaware hrun reached h.child
  · refine (hrun.eval reached h).bind fun v _ _ hv => ?_
    split
    · exact .pure fun _ => by simp
    · exact .pure fun _ => by simpa using hv

theorem callArguments_unaware (hrun : run.Unaware V) (reached : .frame frame ∉ V.garbage)
    {args : List Node} (h : ∀ n ∈ args, V.Speaks n) :
    (callArguments run frame args).Unaware V s fun o =>
      ∀ values, o = some values → ∀ v ∈ values, V.Fits v := by
  induction args generalizing s with
  | nil => exact .pure fun _ => by simp
  | cons n rest ih =>
    rw [callArguments]
    refine (argumentValues_unaware hrun reached (h n List.mem_cons_self)).bind fun o _ _ ho => ?_
    split
    · exact .pure fun _ => by simp
    refine (ih fun n hn => h n (List.mem_cons_of_mem _ hn)).bind fun others _ _ hothers => ?_
    split
    · exact .pure fun _ => by simp
    · refine .pure fun _ values same v hv => ?_
      obtain rfl := Option.some.inj same
      exact (List.mem_append.mp hv).elim (ho _ rfl v) (hothers _ rfl v)

theorem constructArguments_unaware (hrun : run.Unaware V) (reached : .frame frame ∉ V.garbage)
    {args : List Node} (h : ∀ n ∈ args, V.Speaks n) :
    (constructArguments run frame args).Unaware V s fun vs => ∀ v ∈ vs, V.Fits v := by
  induction args generalizing s with
  | nil => exact .pure fun _ => by simp
  | cons n rest ih =>
    rw [constructArguments]
    refine (argumentValues_unaware hrun reached (h n List.mem_cons_self)).bind fun o _ _ ho => ?_
    refine (ih fun n hn => h n (List.mem_cons_of_mem _ hn)).bind fun others _ _ hothers => ?_
    refine .pure fun _ v hv => (List.mem_append.mp hv).elim (fun hv => ?_) (hothers v)
    cases o with
    | some values => exact ho values rfl v hv
    | none =>
      -- What takes the place of an argument that fails is undefined, or nothing.
      simp only [Option.getD_none] at hv
      split at hv
      · cases hv
      · obtain rfl := List.mem_singleton.mp hv
        exact Value.fits_undefined

/-! ## Calls -/

theorem callee_unaware (hrun : run.Unaware V) (reached : .frame frame ∉ V.garbage) {n : Node}
    (h : V.Speaks n) :
    (callee run n frame).Unaware V s fun o =>
      ∀ parts, o = some parts → V.Fits parts.1 ∧ ∀ v, parts.2 = some v → V.Fits v := by
  unfold callee
  split
  · refine (memberParts_unaware hrun reached h.child).bind fun parts _ _ hparts => ?_
    split
    · exact .pure fun _ => by simp
    · have fits := hparts _ rfl
      refine (Step.getProperty_unaware fits.1 fits.2).bind fun f _ _ hf => .pure fun _ => ?_
      simpa using ⟨hf, fits.1⟩
  · exact (hrun.eval reached h).bind fun f _ _ hf => .pure fun _ => by simpa using hf

/-- **A call.** -/
theorem call_unaware (hrun : run.Unaware V) (reached : .frame frame ∉ V.garbage)
    (h : ∀ n ∈ children, V.Speaks n) : (call run children frame).Unaware V s V.Fits := by
  refine Step.pair_unaware.bind fun parts _ _ hparts => ?_
  obtain ⟨calleeNode, args⟩ := parts
  obtain rfl : children = [calleeNode, args] := hparts
  refine (callee_unaware hrun reached (h calleeNode (by simp))).bind fun o _ _ ho => ?_
  split
  · exact .pure fun _ => Veil.fits_failure
  · exact Step.failWith_unaware
  · have fits := ho _ rfl
    split
    · exact (Step.display_unaware fits.1).bind fun _ _ _ _ => Step.failWith_unaware
    refine (callArguments_unaware hrun reached (h args (by simp)).children).bind
      fun values _ _ hvalues => ?_
    split
    · exact .pure fun _ => Veil.fits_failure
    · exact Step.callValue_unaware hrun fits.1 (hvalues _ rfl) fits.2

theorem construct_unaware (hrun : run.Unaware V) (reached : .frame frame ∉ V.garbage)
    (h : ∀ n ∈ children, V.Speaks n) : (construct run children frame).Unaware V s V.Fits := by
  refine Step.pair_unaware.bind fun parts _ _ hparts => ?_
  obtain ⟨constructor, args⟩ := parts
  obtain rfl : children = [constructor, args] := hparts
  refine (hrun.eval reached (h constructor (by simp))).bind fun f _ _ hf => ?_
  split
  · exact .pure fun _ => hf
  · exact (constructArguments_unaware hrun reached (h args (by simp)).children).bind
      fun values _ _ hvalues => Step.construct_unaware hrun hf hvalues

/-! ## Assignments -/

/-- A target that stays **behind a veil**: a name that may be used in a frame within reach, or an
object and a key that fit. -/
def Target.FitsBehind (V : Veil) : Target → Prop
  | .name frame n => .frame frame ∉ V.garbage ∧ V.used n = true
  | .member object key => V.Fits object ∧ V.Fits key

theorem Target.read_unaware {target : Target} (h : target.FitsBehind V) :
    target.read.Unaware V s V.Fits := by
  cases target with
  | name frame n => exact Step.lookup_unaware h.1 h.2
  | member object key => exact Step.getProperty_unaware h.1 h.2

theorem Target.write_unaware {target : Target} {v : Value} (h : target.FitsBehind V)
    (hv : V.Fits v) : (target.write v).Unaware V s V.Fits := by
  cases target with
  | name frame n =>
    exact .change_bind (fun _ => Veil.conceal_assign h.2 frame v) (fun hs => hs.assign h.1 h.2 hv)
      fun _ _ => .pure fun _ => hv
  | member object key => exact Step.setProperty_unaware h.1 h.2 hv

theorem target?_unaware (hrun : run.Unaware V) (reached : .frame frame ∉ V.garbage) {n : Node}
    (h : V.Speaks n) :
    (target? run n frame).Unaware V s fun o => ∀ target, o = some target → target.FitsBehind V := by
  unfold target?
  split
  · rename_i position children
    refine Step.child_unaware.bind fun leaf _ _ hleaf => ?_
    refine Step.identifier_unaware.bind fun name _ _ hname => .pure fun _ target same => ?_
    obtain rfl := Option.some.inj same
    refine ⟨reached, h.own name ?_⟩
    simp [Kind.ownNames, List.head?_eq_getElem?, hleaf, Node.leafText?_of_identifier? hname]
  · refine (memberParts_unaware hrun reached h.child).bind fun parts _ _ hparts => ?_
    split
    · exact .pure fun _ => by simp
    · refine .pure fun _ target same => ?_
      obtain rfl := Option.some.inj same
      exact hparts _ rfl
  · exact Step.warn_unaware.bind fun _ _ _ _ => .pure fun _ => by simp

theorem assignTo_unaware {target : Target} {how : Assigning} {v : Value}
    (h : target.FitsBehind V) (hv : V.Fits v) : (assignTo target how v).Unaware V s V.Fits := by
  unfold assignTo
  split
  · exact Target.write_unaware h hv
  · refine (Target.read_unaware h).bind fun current _ _ hcurrent => ?_
    have counted : V.Fits (if current.isFailure then .int 0 else current) := by
      split
      · exact Value.fits_int _
      · exact hcurrent
    refine (Step.applyBinary_unaware counted hv).bind fun result _ _ hresult => ?_
    split
    · exact .pure fun _ => hresult
    · exact Target.write_unaware h hresult

/-- **An assignment.** -/
theorem assign_unaware (hrun : run.Unaware V) (reached : .frame frame ∉ V.garbage)
    (h : ∀ n ∈ children, V.Speaks n) : (assign run children frame).Unaware V s V.Fits := by
  refine Step.triple_unaware.bind fun parts _ _ hparts => ?_
  obtain ⟨targetNode, sign, value⟩ := parts
  obtain rfl : children = [targetNode, sign, value] := hparts
  refine (hrun.eval reached (h value (by simp))).bind fun v _ _ hv => ?_
  split
  · exact .pure fun _ => hv
  split
  · exact Step.failWith_unaware
  refine (target?_unaware hrun reached (h targetNode (by simp))).bind fun o _ _ ho => ?_
  split
  · exact .pure fun _ => Veil.fits_failure
  · exact assignTo_unaware (ho _ rfl) hv

theorem update_unaware (hrun : run.Unaware V) (reached : .frame frame ∉ V.garbage)
    (h : ∀ n ∈ children, V.Speaks n) : (update run children frame).Unaware V s V.Fits := by
  refine Step.pair_unaware.bind fun parts _ _ hparts => ?_
  obtain ⟨sign, targetNode⟩ := parts
  obtain rfl : children = [sign, targetNode] := hparts
  refine (target?_unaware hrun reached (h targetNode (by simp))).bind fun o _ _ ho => ?_
  split
  · exact .pure fun _ => Veil.fits_failure
  have fits := ho _ rfl
  refine (Target.read_unaware fits).bind fun current _ _ hcurrent => ?_
  split
  · exact .pure fun _ => hcurrent
  refine .read_bind (fun hs => hs.stepped?_conceal hcurrent) fun o' ho' => ?_
  split
  · exact Target.write_unaware fits (stepped?_fits ho')
  · exact Step.failWith_unaware

/-! ## Operations -/

theorem unary_unaware (hrun : run.Unaware V) (reached : .frame frame ∉ V.garbage)
    (h : ∀ n ∈ children, V.Speaks n) : (unary run children frame).Unaware V s V.Fits := by
  refine Step.pair_unaware.bind fun parts _ _ hparts => ?_
  obtain ⟨operator, operand⟩ := parts
  obtain rfl : children = [operator, operand] := hparts
  dsimp only
  split
  · exact Step.failWith_unaware
  refine (hrun.eval reached (h operand (by simp))).bind fun v _ _ hv => ?_
  split
  · exact .pure fun _ => hv
  · exact .read (fun hs => hs.applyUnary_conceal hv) fun _ w hw => Store.applyUnary_fits hw

theorem decided?_unaware {spelling : Text} {left : Value} (h : V.Fits left) :
    (decided? spelling left).Unaware V s fun o => ∀ v, o = some v → V.Fits v := by
  unfold decided?
  split
  · refine .ofExcept_bind fun truth _ => .pure fun _ => ?_
    split <;> simp
  split
  · refine .ofExcept_bind fun truth _ => .pure fun _ => ?_
    split <;> simp [h]
  · exact .pure fun _ => by simp

theorem binary_unaware (hrun : run.Unaware V) (reached : .frame frame ∉ V.garbage)
    (h : ∀ n ∈ children, V.Speaks n) : (binary run children frame).Unaware V s V.Fits := by
  refine Step.triple_unaware.bind fun parts _ _ hparts => ?_
  obtain ⟨left, operator, right⟩ := parts
  obtain rfl : children = [left, operator, right] := hparts
  refine (hrun.eval reached (h left (by simp))).bind fun a _ _ ha => ?_
  split
  · exact .pure fun _ => ha
  refine (decided?_unaware ha).bind fun o _ _ ho => ?_
  split
  · exact .pure fun _ => ho _ rfl
  refine (hrun.eval reached (h right (by simp))).bind fun b _ _ hb => ?_
  split
  · exact .pure fun _ => hb
  · exact Step.applyBinary_unaware ha hb

theorem optional_unaware (hrun : run.Unaware V) (reached : .frame frame ∉ V.garbage)
    {o : Option Node} (h : ∀ n, o = some n → V.Speaks n) :
    (optional run frame o).Unaware V s V.Fits := by
  cases o with
  | none => exact .pure fun _ => Value.fits_undefined
  | some n => exact hrun.eval reached (h n rfl)

theorem conditional_unaware (hrun : run.Unaware V) (reached : .frame frame ∉ V.garbage)
    (h : ∀ n ∈ children, V.Speaks n) : (conditional run children frame).Unaware V s V.Fits := by
  refine Step.child_unaware.bind fun test _ _ htest => ?_
  refine (hrun.eval reached (h test (List.mem_of_getElem? htest))).bind fun v _ _ hv => ?_
  split
  · exact .pure fun _ => hv
  refine .ofExcept_bind fun truth _ => ?_
  split
  · exact Step.child_unaware.bind fun n _ _ hn => hrun.eval reached (h n (List.mem_of_getElem? hn))
  · exact optional_unaware hrun reached fun n hn => h n (List.mem_of_getElem? hn)

end Walk

end Scriptlet
