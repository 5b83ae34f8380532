import Scriptlet.Proofs.Shape
import Scriptlet.Proofs.Site

/-!
# Regimes

What a run keeps to depends on what it starts from. A *regime* says which of three
things are taken for granted: that no failure is stored, that all trees conform to
the table of shapes, and that there is nothing of the host. Each of them is a
proposition and not a flag that some definition looks at, so whatever is proved for
all regimes is proved for all combinations at once, and a fact that only one of them
gives is an implication from it.

A regime also remembers the start: the sites that were out of reach then, of which
nothing is asked or promised, the frames that were outside of all calls, and the log.

A store is *sound* for a regime if every site within reach holds what fits it. This
is the invariant of runs, and everything else is said relative to it.
-/

namespace Scriptlet

/-- A **regime**: what is taken for granted, and what there was at the start. -/
structure Regime where
  /-- No failure is stored. -/
  clean : Prop
  /-- All trees conform to the table of shapes. -/
  shaped : Prop
  /-- There is nothing of the host. -/
  plain : Prop
  /-- The sites that were out of reach at the start. -/
  garbage : Set Site
  /-- Frames that are outside of all calls. -/
  outside : Set FrameRef
  /-- The log at the start. -/
  logged : List LogRecord

/-! ## Values that fit -/

/-- Whether a value is **of the host**. -/
def Value.isOfHost : Value → Bool
  | .tuple .. | .native _ | .host _ | .hostMethod .. => true
  | _ => false

/-- A value **fits a regime**: it holds no failure where none is stored and nothing of
the host where there is none, and it names no garbage. -/
def Value.Fits (R : Regime) (v : Value) : Prop :=
  ∀ w, v.Holds w → (R.clean → w.isFailure = false) ∧ (R.plain → w.isOfHost = false) ∧
    ∀ p, w.site? = some p → p ∉ R.garbage

namespace Value

variable {R : Regime}

/-- For a value that is not composed only the value itself counts. -/
theorem fits_iff_of_not_composed {v : Value} (h : v.isComposed = false) :
    v.Fits R ↔ (R.clean → v.isFailure = false) ∧ (R.plain → v.isOfHost = false) ∧
      ∀ p, v.site? = some p → p ∉ R.garbage := by
  simp only [Fits, holds_iff_eq h, forall_eq]

/-- A value that is no failure, not of the host and nothing stored fits always. -/
theorem fits_of_site?_eq_none {v : Value} (h : v.isComposed = false)
    (sound : v.isFailure = false) (plain : v.isOfHost = false) (bare : v.site? = none) :
    v.Fits R := by
  refine (fits_iff_of_not_composed h).mpr ⟨fun _ => sound, fun _ => plain, fun p hp => ?_⟩
  rw [bare] at hp
  cases hp

/-- What is stored at a site fits if the site is no garbage. -/
theorem fits_iff_of_site? {v : Value} {p : Site} (h : v.isComposed = false)
    (sound : v.isFailure = false) (site : v.site? = some p) :
    v.Fits R ↔ (R.plain → v.isOfHost = false) ∧ p ∉ R.garbage := by
  rw [fits_iff_of_not_composed h, site]
  constructor
  · rintro ⟨-, plain, fits⟩
    exact ⟨plain, fits p rfl⟩
  · rintro ⟨plain, fits⟩
    exact ⟨fun _ => sound, plain, fun q hq => Option.some.inj hq ▸ fits⟩

@[simp] theorem fits_undefined : undefined.Fits R := fits_of_site?_eq_none rfl rfl rfl rfl

@[simp] theorem fits_null : null.Fits R := fits_of_site?_eq_none rfl rfl rfl rfl

@[simp] theorem fits_bool (b : Bool) : (bool b).Fits R := fits_of_site?_eq_none rfl rfl rfl rfl

@[simp] theorem fits_number (n : Number) : (number n).Fits R :=
  fits_of_site?_eq_none rfl rfl rfl rfl

@[simp] theorem fits_int (n : Int) : (int n).Fits R := fits_number _

@[simp] theorem fits_float (x : Float) : (float x).Fits R := fits_number _

@[simp] theorem fits_text (t : Text) : (text t).Fits R := fits_of_site?_eq_none rfl rfl rfl rfl

@[simp] theorem fits_regexp (i : Identity) (r : Regexp) : (regexp i r).Fits R :=
  fits_of_site?_eq_none rfl rfl rfl rfl

@[simp] theorem fits_failure : failure.Fits R ↔ ¬ R.clean := by
  rw [fits_iff_of_not_composed rfl]
  exact ⟨fun h clean => Bool.noConfusion (h.1 clean),
    fun h => ⟨fun clean => absurd clean h, fun _ => rfl, nofun⟩⟩

@[simp] theorem fits_list (ref : ListRef) : (list ref).Fits R ↔ .list ref ∉ R.garbage :=
  (fits_iff_of_site? rfl rfl rfl).trans (and_iff_right fun _ => rfl)

@[simp] theorem fits_object (ref : ObjectRef) :
    (object ref).Fits R ↔ .object ref ∉ R.garbage :=
  (fits_iff_of_site? rfl rfl rfl).trans (and_iff_right fun _ => rfl)

@[simp] theorem fits_function (ref : FunctionRef) :
    (function ref).Fits R ↔ .function ref ∉ R.garbage :=
  (fits_iff_of_site? rfl rfl rfl).trans (and_iff_right fun _ => rfl)

@[simp] theorem fits_native (f : Native) : (native f).Fits R ↔ ¬ R.plain := by
  rw [fits_iff_of_not_composed rfl]
  exact ⟨fun h plain => Bool.noConfusion (h.2.1 plain),
    fun h => ⟨fun _ => rfl, fun plain => absurd plain h, nofun⟩⟩

/-- Where there is nothing of the host, a value of the host does not fit. -/
theorem plain_imp_isOfHost {v : Value} (h : v.isOfHost = true) :
    (R.plain → v.isOfHost = false) ↔ ¬ R.plain := by
  simp [h]

@[simp] theorem fits_host (ref : HostRef) :
    (host ref).Fits R ↔ ¬ R.plain ∧ .host ref ∉ R.garbage :=
  (fits_iff_of_site? rfl rfl rfl).trans (and_congr_left fun _ => plain_imp_isOfHost rfl)

@[simp] theorem fits_hostMethod (i : Identity) (ref : HostRef) (m : Native) :
    (hostMethod i ref m).Fits R ↔ ¬ R.plain ∧ .host ref ∉ R.garbage :=
  (fits_iff_of_site? rfl rfl rfl).trans (and_congr_left fun _ => plain_imp_isOfHost rfl)

/-- A tuple fits if its items do and the host is there. -/
@[simp] theorem fits_tuple (i : Identity) (items : List Value) :
    (tuple i items).Fits R ↔ ¬ R.plain ∧ ∀ v ∈ items, v.Fits R := by
  constructor
  · intro h
    have own := (h _ (.self _)).2.1
    exact ⟨fun hp => by simpa [isOfHost] using own hp, fun v hv w hw => h w (.item hv hw)⟩
  · rintro ⟨hp, hitems⟩ w hw
    rcases holds_tuple_iff.mp hw with rfl | ⟨v, hv, hw⟩
    · exact ⟨fun _ => rfl, fun h => absurd h hp, by simp [site?]⟩
    · exact hitems v hv w hw

/-- A method fits if the value does that it belongs to. -/
@[simp] theorem fits_method (i : Identity) (name : Text) (v : Value) :
    (method i name v).Fits R ↔ v.Fits R := by
  constructor
  · exact fun h w hw => h w (.subject hw)
  · intro h w hw
    rcases holds_method_iff.mp hw with rfl | hw
    · exact ⟨fun _ => rfl, fun _ => rfl, by simp [site?]⟩
    · exact h w hw

/-- A value that there may not be fits if it does where there is one. -/
theorem fits_ofOption {o : Option Value} (h : ∀ v, o = some v → v.Fits R) :
    (ofOption o).Fits R := by
  cases o with
  | none => exact fits_undefined
  | some v => exact h v rfl

theorem fits_ofOption_getElem? {items : List Value} (h : ∀ v ∈ items, v.Fits R) (i : Nat) :
    (ofOption items[i]?).Fits R :=
  fits_ofOption fun _ hv => h _ (List.mem_of_getElem? hv)

theorem fits_orUndefined {v : Value} (h : v = .failure ∨ v.Fits R) : v.orUndefined.Fits R := by
  rcases h with rfl | h
  · exact fits_undefined
  · cases v <;> first | exact fits_undefined | exact h

end Value

/-! ## The log -/

/-- What the walk says, and on which channel, about **a node that should not be there**. -/
def complaints : List (Channel × Text) :=
  List.map (fun (channel, start) => (channel, Text.ofString start))
    [(.walk, "Failed to walk node"), (.literal, "Unknown literal token"),
     (.assignment, "Invalid assignment target"), (.assignment, "Unknown update operator")]

/-- Whether a record is about a node that should not be there. -/
def LogRecord.isComplaint (r : LogRecord) : Bool :=
  complaints.any fun c => c.1 == r.channel && c.2.isPrefixOf r.text

/-- A log **goes on** from the start of a regime with new records, none of which is a
complaint where trees conform. -/
def Regime.Continues (R : Regime) (log new : List LogRecord) : Prop :=
  log = new ++ R.logged ∧ (R.shaped → ∀ r ∈ new, r.isComplaint = false)

/-- Where no failure is stored, **a warning has been given** since the start. -/
def Regime.Warned (R : Regime) (s : Store) : Prop :=
  R.clean → ∃ new, s.log = new ++ R.logged ∧ ∃ r ∈ new, r.level = .warning

/-! ## Sound stores -/

namespace Regime

variable (R : Regime)

/-- A function **fits**: its frame is no garbage, and its body has the proper shape. -/
def FitsFunction (cell : FunctionCell) : Prop :=
  .frame cell.scope ∉ R.garbage ∧ (R.shaped → cell.body.Conforms ∧ cell.body.isBody = true)

/-- A frame **fits**: neither its bindings nor the frame around it are garbage. -/
def FitsFrame (cell : FrameCell) : Prop :=
  .object cell.bindings ∉ R.garbage ∧ ∀ p, cell.parent = some p → .frame p ∉ R.garbage

/-- A frame **stays outside** of calls: it belongs to none, and the frame around it
stays outside as well. -/
def StaysOutside (cell : FrameCell) : Prop :=
  cell.isFunction = false ∧ ∀ p, cell.parent = some p → p ∈ R.outside

/-- A store is **sound** for a regime. -/
structure Sound (s : Store) : Prop where
  /-- Garbage is never handed out again. -/
  taken : ∀ p ∈ R.garbage, p.IsIn s
  /-- What a site holds fits. -/
  held : ∀ p, p ∉ R.garbage → ∀ v ∈ s.held p, v.Fits R
  /-- Functions fit. -/
  functions : ∀ f cell, .function f ∉ R.garbage → s.functions[f]? = some cell → R.FitsFunction cell
  /-- Frames fit. -/
  frames : ∀ f cell, .frame f ∉ R.garbage → s.frames[f]? = some cell → R.FitsFrame cell
  /-- The frames outside of calls are there and stay outside. -/
  outside : ∀ f ∈ R.outside, ∃ cell, s.frames[f]? = some cell ∧ R.StaysOutside cell
  /-- The log goes on. -/
  log : ∃ new, R.Continues s.log new

namespace Sound

variable {R} {s : Store}

/-! ### What a sound store holds -/

theorem items (hs : R.Sound s) {ref : ListRef} (h : (Value.list ref).Fits R) :
    ∀ v ∈ s.items ref, v.Fits R :=
  hs.held (.list ref) ((Value.fits_list ref).mp h)

theorem entries (hs : R.Sound s) {ref : ObjectRef} (h : .object ref ∉ R.garbage) :
    ∀ e ∈ s.entries ref, e.2.Fits R :=
  fun e he => hs.held (.object ref) h e.2 (List.mem_map_of_mem he)

theorem attributes (hs : R.Sound s) {ref : HostRef} (h : .host ref ∉ R.garbage) :
    ∀ a ∈ s.attributes ref, a.2.Fits R :=
  fun a ha => hs.held (.host ref) h a.2 (List.mem_map_of_mem ha)

/-- The bindings of a frame within reach. -/
theorem bindings (hs : R.Sound s) {frame : FrameRef} (h : .frame frame ∉ R.garbage) :
    ∀ e ∈ s.bindings frame, e.2.Fits R := by
  intro e he
  unfold Store.bindings at he
  cases hf : s.frames[frame]? with
  | none => simp [hf] at he
  | some cell =>
    simp only [hf, Option.map_some, Option.getD_some] at he
    exact hs.entries (hs.frames frame cell h hf).1 e he

/-! ### What keeps a store sound -/

/-- **A change keeps a store sound** if no site is taken back, what sites hold
afterwards was there or fits, functions and frames were there or fit, frames outside
of calls stay there, and the log goes on. -/
theorem change (hs : R.Sound s) {s' : Store}
    (taken : ∀ p : Site, p.IsIn s → p.IsIn s')
    (held : ∀ p v, v ∈ s'.held p → v.Fits R ∨ v ∈ s.held p)
    (functions : ∀ (f : FunctionRef) cell, s'.functions[f]? = some cell →
      R.FitsFunction cell ∨ s.functions[f]? = some cell)
    (frames : ∀ (f : FrameRef) cell, s'.frames[f]? = some cell →
      R.FitsFrame cell ∨ s.frames[f]? = some cell)
    (outside : ∀ f ∈ R.outside, ∀ cell, s.frames[f]? = some cell → R.StaysOutside cell →
      ∃ cell', s'.frames[f]? = some cell' ∧ R.StaysOutside cell')
    (log : s'.log = s.log) : R.Sound s' where
  taken p hp := taken p (hs.taken p hp)
  held p hp v hv := (held p v hv).elim id (hs.held p hp v)
  functions f cell hf hc := (functions f cell hc).elim id (hs.functions f cell hf)
  frames f cell hf hc := (frames f cell hc).elim id (hs.frames f cell hf)
  outside f hf := by
    obtain ⟨cell, found, stays⟩ := hs.outside f hf
    exact outside f hf cell found stays
  log := log ▸ hs.log

/-- A change of what sites hold, and of nothing else. -/
theorem changeHeld (hs : R.Sound s) {s' : Store} (taken : ∀ p : Site, p.IsIn s → p.IsIn s')
    (held : ∀ p v, v ∈ s'.held p → v.Fits R ∨ v ∈ s.held p)
    (functions : s'.functions = s.functions) (frames : s'.frames = s.frames)
    (log : s'.log = s.log) : R.Sound s' :=
  hs.change taken held (fun _ _ h => .inr (functions ▸ h)) (fun _ _ h => .inr (frames ▸ h))
    (fun _ _ cell found stays => ⟨cell, frames ▸ found, stays⟩) log

theorem setItems (hs : R.Sound s) {ref : ListRef} {items : List Value}
    (h : ∀ v ∈ items, v.Fits R) : R.Sound (s.setItems ref items) := by
  refine hs.changeHeld (fun p hp => ?_)
    (fun p v hv => (Store.mem_held_setItems hv).imp (h v) id) rfl rfl rfl
  cases p <;> simpa [Site.IsIn, Store.setItems] using hp

theorem setEntries (hs : R.Sound s) {ref : ObjectRef} {entries : Entries}
    (h : ∀ e ∈ entries, e.2.Fits R) : R.Sound (s.setEntries ref entries) := by
  refine hs.changeHeld (fun p hp => ?_) (fun p v hv => ?_) rfl rfl rfl
  · cases p <;> simpa [Site.IsIn, Store.setEntries] using hp
  · refine (Store.mem_held_setEntries hv).imp (fun hm => ?_) id
    obtain ⟨e, he, rfl⟩ := List.mem_map.mp hm
    exact h e he

theorem setAttributes (hs : R.Sound s) {ref : HostRef} {attributes : List (Text × Value)}
    (h : ∀ a ∈ attributes, a.2.Fits R) : R.Sound (s.setAttributes ref attributes) := by
  refine hs.changeHeld (fun p hp => ?_) (fun p v hv => ?_) rfl rfl rfl
  · cases p <;> simpa [Site.IsIn, Store.setAttributes] using hp
  · refine (Store.mem_held_setAttributes hv).imp (fun hm => ?_) id
    obtain ⟨a, ha, rfl⟩ := List.mem_map.mp hm
    exact h a ha

theorem newList (hs : R.Sound s) {items : List Value} (h : ∀ v ∈ items, v.Fits R) :
    R.Sound (s.newList items).2 := by
  refine hs.changeHeld (fun p hp => ?_)
    (fun p v hv => (Store.mem_held_newList hv).imp (h v) id) rfl rfl rfl
  cases p <;> simp only [Site.IsIn, Store.newList, Array.size_push] at hp ⊢ <;>
    first | exact hp | exact Nat.lt_succ_of_lt hp

theorem newObject (hs : R.Sound s) {entries : Entries} (h : ∀ e ∈ entries, e.2.Fits R) :
    R.Sound (s.newObject entries).2 := by
  refine hs.changeHeld (fun p hp => ?_) (fun p v hv => ?_) rfl rfl rfl
  · cases p <;> simp only [Site.IsIn, Store.newObject, Array.size_push] at hp ⊢ <;>
      first | exact hp | exact Nat.lt_succ_of_lt hp
  · refine (Store.mem_held_newObject hv).imp (fun hm => ?_) id
    obtain ⟨e, he, rfl⟩ := List.mem_map.mp hm
    exact h e he

theorem newIdentity (hs : R.Sound s) : R.Sound s.newIdentity.2 :=
  hs.changeHeld (fun p hp => by cases p <;> exact hp)
    (fun p _ hv => .inr (by cases p <;> exact hv)) rfl rfl rfl

theorem beginRun (hs : R.Sound s) (run : Nat) : R.Sound { s with run := run } :=
  hs.changeHeld (fun p hp => by cases p <;> exact hp)
    (fun p _ hv => .inr (by cases p <;> exact hv)) rfl rfl rfl

theorem newFunction (hs : R.Sound s) {cell : FunctionCell} (h : R.FitsFunction cell) :
    R.Sound (s.newFunction cell).2 := by
  refine hs.change (fun p hp => ?_) (fun p v hv => .inr (by cases p <;> exact hv))
    (fun f found hf => ?_) (fun _ _ hf => .inr hf) (fun _ _ cell found stays => ⟨cell, found, stays⟩)
    rfl
  · cases p <;> simp only [Site.IsIn, Store.newFunction, Array.size_push] at hp ⊢ <;>
      first | exact hp | exact Nat.lt_succ_of_lt hp
  · rcases Store.functions_newFunction hf with ⟨-, rfl⟩ | hf
    · exact .inl h
    · exact .inr hf

theorem setFunction (hs : R.Sound s) {ref : FunctionRef} {cell : FunctionCell}
    (h : R.FitsFunction cell) : R.Sound (s.setFunction ref cell) := by
  refine hs.change (fun p hp => ?_) (fun p v hv => .inr (by cases p <;> exact hv))
    (fun f found hf => ?_) (fun _ _ hf => .inr hf) (fun _ _ cell found stays => ⟨cell, found, stays⟩)
    rfl
  · cases p <;> simpa [Site.IsIn, Store.setFunction] using hp
  · rcases Store.functions_setFunction hf with ⟨-, rfl⟩ | hf
    · exact .inl h
    · exact .inr hf

theorem newFrame (hs : R.Sound s) {cell : FrameCell} (h : R.FitsFrame cell) :
    R.Sound (s.newFrame cell).2 := by
  refine hs.change (fun p hp => ?_) (fun p v hv => .inr (by cases p <;> exact hv))
    (fun _ _ hf => .inr hf) (fun f found hf => ?_) (fun f _ cell found stays => ⟨cell, ?_, stays⟩) rfl
  · cases p <;> simp only [Site.IsIn, Store.newFrame, Array.size_push] at hp ⊢ <;>
      first | exact hp | exact Nat.lt_succ_of_lt hp
  · rcases Store.frames_newFrame hf with ⟨-, rfl⟩ | hf
    · exact .inl h
    · exact .inr hf
  · have hlt : f < s.frames.size := (Array.getElem?_eq_some_iff.mp found).1
    simp only [Store.newFrame, Array.getElem?_push, Nat.ne_of_lt hlt, if_false, found]

/-- A frame may be written if what is written fits and a frame outside of calls stays
there. -/
theorem setFrame (hs : R.Sound s) {ref : FrameRef} {cell : FrameCell} (h : R.FitsFrame cell)
    (stay : ref ∈ R.outside → R.StaysOutside cell) : R.Sound (s.setFrame ref cell) := by
  refine hs.change (fun p hp => ?_) (fun p v hv => .inr (by cases p <;> exact hv))
    (fun _ _ hf => .inr hf) (fun f found hf => ?_) (fun f hf found hfound stays => ?_) rfl
  · cases p <;> simpa [Site.IsIn, Store.setFrame] using hp
  · rcases Store.frames_setFrame hf with ⟨-, rfl⟩ | hf
    · exact .inl h
    · exact .inr hf
  · have hlt : f < s.frames.size := (Array.getElem?_eq_some_iff.mp hfound).1
    simp only [Store.setFrame, Array.getElem?_setIfInBounds]
    by_cases same : ref = f
    · subst same
      exact ⟨cell, by simp [hlt], stay hf⟩
    · exact ⟨found, by simp [same, hfound], stays⟩

/-- A record may be noted that is no complaint. -/
theorem note (hs : R.Sound s) {r : LogRecord} (h : R.shaped → r.isComplaint = false) :
    R.Sound (s.note r) where
  taken p hp := by have := hs.taken p hp; cases p <;> exact this
  held p hp v hv := hs.held p hp v (by cases p <;> exact hv)
  functions := hs.functions
  frames := hs.frames
  outside := hs.outside
  log := by
    obtain ⟨new, continues, fine⟩ := hs.log
    refine ⟨r :: new, ?_, fun hshaped => ?_⟩
    · simp [Store.note, continues]
    · simpa using ⟨h hshaped, fine hshaped⟩

end Sound

end Regime

/-- Noting a warning is giving one. -/
theorem Regime.Sound.warned_note {R : Regime} {s : Store} (hs : R.Sound s) {r : LogRecord}
    (h : r.level = .warning) : R.Warned (s.note r) := by
  intro _
  obtain ⟨new, continues, -⟩ := hs.log
  exact ⟨r :: new, by simp [Store.note, continues], r, List.mem_cons_self, h⟩

/-! ## New sites -/

namespace Regime.Sound

variable {R : Regime} {s : Store}

/-- A site that has not been handed out is no garbage. -/
theorem not_mem_garbage (hs : R.Sound s) {p : Site} (h : ¬ p.IsIn s) : p ∉ R.garbage :=
  fun hp => h (hs.taken p hp)

theorem fits_newList (hs : R.Sound s) (items : List Value) :
    (Value.list (s.newList items).1).Fits R :=
  (Value.fits_list _).mpr (hs.not_mem_garbage (Nat.lt_irrefl _))

theorem newObject_not_mem (hs : R.Sound s) (entries : Entries) :
    .object (s.newObject entries).1 ∉ R.garbage :=
  hs.not_mem_garbage (Nat.lt_irrefl _)

theorem newFunction_not_mem (hs : R.Sound s) (cell : FunctionCell) :
    .function (s.newFunction cell).1 ∉ R.garbage :=
  hs.not_mem_garbage (Nat.lt_irrefl _)

theorem newFrame_not_mem (hs : R.Sound s) (cell : FrameCell) :
    .frame (s.newFrame cell).1 ∉ R.garbage :=
  hs.not_mem_garbage (Nat.lt_irrefl _)

/-- A new frame is none of those outside of calls. -/
theorem newFrame_not_outside (hs : R.Sound s) (cell : FrameCell) :
    (s.newFrame cell).1 ∉ R.outside := by
  intro h
  obtain ⟨found, hf, -⟩ := hs.outside _ h
  exact Nat.lt_irrefl _ (Array.getElem?_eq_some_iff.mp hf).1

end Regime.Sound

/-! ## Interrupts that fit -/

/-- An interrupt **fits a regime**. A return may come out only where one `may`, and what
it carries fits. Where trees conform, no node turns out to be in the wrong place or of
the wrong shape. Where there is nothing of the host, no fault occurs but an unmet
demand. -/
def Interrupt.Fits (R : Regime) (may : Prop) : Interrupt → Prop
  | .returned v => may ∧ v.Fits R
  | .error e => R.shaped → e.kind ≠ .misplacedNode
  | .malformed _ | .hostError _ => ¬ R.plain
  | .fault f => R.plain → ∃ u, f = .unmet u
  | .misshapen _ => ¬ R.shaped
  | .tooDeep => True
  | .halted => False

theorem Interrupt.Fits.mono {R : Regime} {may may' : Prop} {i : Interrupt} (h : i.Fits R may)
    (hm : may → may') : i.Fits R may' := by
  cases i with
  | returned v => exact ⟨hm h.1, h.2⟩
  | _ => exact h

end Scriptlet
