import Scriptlet.Console.Session
import Scriptlet.Proofs.Caret
import Scriptlet.Proofs.Locating

/-!
# What is quoted in a session

In a session each entry is a text of its own, and the nodes that are read from it have their
positions in it. Functions outlive the entry that makes them. So an error that comes out of an
entry is set at a node that has been read from this entry or from an earlier one, and its
position counts the lines of that. What is shown next to it is however a line of the frame's
source, and that is the entry that is run: everything that is done for an entry keeps the frames.
The two agree if the node has been read from the entry that is run. If it belongs to a function of
an earlier one, then another line may be quoted.
-/

namespace Scriptlet

variable {entries : List Text} {entry source : Text} {n : Node}

/-! ## Where nodes have been read -/

/-- A node **is read in** a text if it is part of the program that the text is. -/
def Node.IsReadIn (source : Text) (n : Node) : Prop :=
  ∃ program, parseProgram source = .ok program ∧ n.IsPartOf program

/-- A node is read among texts if it is read in one of them. -/
def Node.IsReadAmong (entries : List Text) (n : Node) : Prop :=
  ∃ origin ∈ entries, n.IsReadIn origin

theorem Node.isReadAmong_hereditary (entries : List Text) :
    Node.Hereditary (Node.IsReadAmong entries) := by
  rintro n ⟨origin, mem, program, parsed, part⟩ m child
  exact ⟨origin, mem, program, parsed, .trans (.child child .self) part⟩

theorem Node.IsReadAmong.append (h : n.IsReadAmong entries) (more : List Text) :
    n.IsReadAmong (entries ++ more) := by
  obtain ⟨origin, mem, read⟩ := h
  exact ⟨origin, List.mem_append_left _ mem, read⟩

theorem Node.isReadAmong_of_parsed {program : Node} (parsed : parseProgram entry = .ok program)
    (entries : List Text) : program.IsReadAmong (entries ++ [entry]) :=
  ⟨entry, List.mem_append_right _ List.mem_cons_self, program, parsed, .self⟩

/-- What has been read is placed. -/
theorem Node.IsReadAmong.isPlaced (h : n.IsReadAmong entries) : n.IsPlaced := by
  obtain ⟨origin, -, program, parsed, whole⟩ := h
  intro kind position children part
  exact parseProgram_isPlaced parsed kind position children (part.trans whole)

/-- Where there is no template, a node **has the place of an offset** of the text that it is read
in. -/
theorem Node.IsReadIn.exists_placeAt (h : n.IsReadIn source) (noTemplate : ¬ source.HasTemplate)
    {position : Position} (there : n.position? = some position) :
    ∃ offset ≤ source.length, position = .ofPlace (placeAt source 1 offset) := by
  obtain ⟨program, parsed, part⟩ := h
  have made := parseProgram_madeOf (isPlainIn_closed source) (isPlainIn_yields noTemplate)
  rw [parsed] at made
  have start : ∃ t : Token, t.IsPlainIn source ∧ position = t.position := by
    cases made.part part with
    | leaf | chunk => cases there
    | atom kind label ht => exact ⟨_, ht, (Option.some.inj there).symm⟩
    | compound ht => exact ⟨_, ht, (Option.some.inj there).symm⟩
  obtain ⟨t, ⟨-, offset, stands⟩, rfl⟩ := start
  refine ⟨offset, Nat.le_of_add_right_le stands.inside, ?_⟩
  rw [← stands.place]
  rfl

/-! ## What a report quotes -/

namespace Report

/-- A report next to a source **shows a line**: it is the message, the line and, below its column,
the caret. -/
def Shows (r : Report) (source : Option Text) (shown : Text) : Prop :=
  r.render source = "Error: " ++ r.message ++ "\n  " ++ shown ++
    match r.column with
    | none => ([] : Text)
    | some column => "\n  " ++ caret column

/-- The line that is shown is that of the source with the number of the report. -/
theorem shows_iff {r : Report} {line : Int} (numbered : r.line = some line) {shown : Text} :
    r.Shows (some source) shown ↔ sourceLine? source line = some shown := by
  unfold Shows render
  rw [numbered]
  dsimp only
  cases sourceLine? source line with
  | none =>
    refine iff_of_false (fun same => ?_) nofun
    have long := congrArg List.length same
    simp [Text.ofString] at long
  | some there =>
    exact (List.append_left_inj _).trans ((List.append_right_inj _).trans Option.some_inj.symm)

/-- A report next to a source **quotes a text** if the line that it shows, where it shows one, is
the line of that text with its number. -/
def Quotes (r : Report) (source : Option Text) (origin : Text) : Prop :=
  ∀ shown, r.Shows source shown → ∃ line, r.line = some line ∧ sourceLine? origin line = some shown

theorem quotes_iff {r : Report} {line : Int} (numbered : r.line = some line) {origin : Text} :
    r.Quotes (some source) origin ↔
      ∀ shown, sourceLine? source line = some shown → sourceLine? origin line = some shown := by
  refine forall_congr' fun shown => ?_
  rw [shows_iff numbered, numbered]
  simp

end Report

/-! ## Entries -/

namespace Store

variable {s : Store} {frame : FrameRef}

theorem functions_setSource (s : Store) (frame : FrameRef) (source : Option Text) :
    (s.setSource frame source).functions = s.functions := by
  unfold setSource
  split <;> rfl

/-- A frame that is there **runs the source that it is given**. -/
theorem setSource_of_lt (there : frame < s.frames.size) (source : Option Text) :
    ∃ cell, (s.setSource frame source).frames[frame]? = some cell ∧ cell.source = source := by
  have found : s.frames[frame]? = some s.frames[frame] := Array.getElem?_eq_getElem there
  refine ⟨{ s.frames[frame] with source := source }, ?_, rfl⟩
  unfold setSource
  rw [found]
  exact Array.getElem?_setIfInBounds_self_of_lt there

theorem lt_of_sourceOf (h : s.sourceOf frame = some source) : frame < s.frames.size := by
  obtain ⟨cell, found, -⟩ := Option.bind_eq_some_iff.mp h
  exact (Array.getElem?_eq_some_iff.mp found).1

end Store

namespace Program

variable {host : Host} {depth : Nat} {run : Runner} {frame : FrameRef} {s s' : Store}
  {e : ProgramError}

/-- An entry that is no program only gives the frame its source. -/
theorem runEntry_of_malformed {x : SyntaxError} (malformed : parseProgram entry = .error x) :
    runEntryWith run entry frame s = .error (.malformed x) (s.setSource frame (some entry)) := by
  have reads : read entry = throw (.malformed x) := by
    unfold read
    rw [malformed]
  unfold runEntryWith
  rw [reads]
  rfl

/-- An entry that is a program is run once the frame has its source, and nothing else is done. -/
theorem runEntry_of_parsed (run : Runner) {program : Node}
    (parsed : parseProgram entry = .ok program) (frame : FrameRef) (s : Store) :
    ∃ outcome : List Value → Value × Bool, runEntryWith run entry frame s
      = (outcome <$> runWith run program frame) (s.setSource frame (some entry)) := by
  have reads : read entry = pure program := by
    unfold read
    rw [parsed]
  unfold runEntryWith
  simp only [reads, pure_bind]
  cases program.children.getLast? with
  | none => exact ⟨fun _ => (.undefined, true), by rw [map_eq_pure_bind]; rfl⟩
  | some last =>
    exact ⟨fun results => (results.getLastD .undefined, isQuiet last), by rw [map_eq_pure_bind]; rfl⟩

/-- An entry that ends with an error of the program **is a program**, and its run ends so. -/
theorem runEntry_error (raised : runEntryWith run entry frame s = .error (.error e) s') :
    ∃ program, parseProgram entry = .ok program ∧
      runWith run program frame (s.setSource frame (some entry)) = .error (.error e) s' := by
  cases parsed : parseProgram entry with
  | error x => cases (runEntry_of_malformed parsed).symm.trans raised
  | ok program =>
    obtain ⟨outcome, same⟩ := runEntry_of_parsed _ parsed frame s
    exact ⟨program, rfl, Step.map_error_iff.mp (same.symm.trans raised)⟩

/-- **What is done for an entry** keeps the frames, once that runs the entry, and the functions that
it makes have bodies of a sort if what is read in it is. -/
theorem runEntry_develops {P : Node → Prop} (hhost : host.LetsErrorsPass P)
    (hereditary : Node.Hereditary P)
    (isOf : ∀ program, parseProgram entry = .ok program → P program) (depth : Nat)
    (frame : FrameRef) (s : Store) : (s.setSource frame (some entry)).Develops P
      ((runEntryWith (Task.runTo host depth) entry frame).storeAfter s) := by
  unfold Step.storeAfter
  cases parsed : parseProgram entry with
  | error x =>
    rw [runEntry_of_malformed parsed]
    exact .refl _
  | ok program =>
    have h := isOf program parsed
    have runs : (runWith (Task.runTo host depth) program frame).Keeps (Store.Develops P) :=
      (runWith_composed hereditary h (Set.mem_univ frame)).keeps (Store.develops_orders P)
        fun t among => Task.runTo_develops hereditary hhost depth
          (among.isOf (hereditary program h))
    obtain ⟨outcome, same⟩ := runEntry_of_parsed _ parsed frame s
    rw [same]
    exact runs.map outcome _

/-! ## Sessions -/

variable {first : Store}

/-- A **session**: the entries that have been run in a frame one after another, from a first store
on, and the store that they have left. It goes on whatever comes of an entry, and the log may be
emptied in between. -/
inductive Session (run : Runner) (frame : FrameRef) (first : Store) : List Text → Store → Prop
  | start : Session run frame first [] first
  | entered {entries : List Text} {s : Store} (so : Session run frame first entries s)
    (entry : Text) :
    Session run frame first (entries ++ [entry]) ((runEntryWith run entry frame).storeAfter s)
  | emptied {entries : List Text} {s : Store} (so : Session run frame first entries s) :
    Session run frame first entries { s with log := [] }

/-- A session starts **blank** if its frame is there and no function is. -/
structure StartsBlank (frame : FrameRef) (first : Store) : Prop where
  frame : frame < first.frames.size
  functions : first.functions = #[]

/-- What is there when an entry is run: its frame has it for a source, and each function has a body
that was read in an entry. -/
theorem hasBodies_setSource (bodies : s.HasBodies (Node.IsReadAmong entries)) (frame : FrameRef)
    (entry : Text) :
    (s.setSource frame (some entry)).HasBodies (Node.IsReadAmong (entries ++ [entry])) := by
  intro f cell found
  rw [Store.functions_setSource] at found
  exact (bodies f cell found).append [entry]

/-- **What an entry leaves**: its frame still has it for a source, and each function has a body that
was read in it or in an earlier one. -/
theorem runEntry_leaves (hhost : ∀ P, host.LetsErrorsPass P) (depth : Nat)
    (there : frame < s.frames.size) (bodies : s.HasBodies (Node.IsReadAmong entries))
    (entry : Text) :
    let left := (runEntryWith (Task.runTo host depth) entry frame).storeAfter s
    left.sourceOf frame = some entry ∧ left.HasBodies (Node.IsReadAmong (entries ++ [entry])) := by
  have develops := runEntry_develops (hhost _) (Node.isReadAmong_hereditary (entries ++ [entry]))
    (fun program parsed => Node.isReadAmong_of_parsed parsed entries) depth frame s
  obtain ⟨keeps, bodies⟩ := develops (hasBodies_setSource bodies frame entry)
  obtain ⟨cell, found, source⟩ := Store.setSource_of_lt there (some entry)
  refine ⟨?_, bodies⟩
  rw [keeps.sourceOf_eq found, Store.sourceOf, found]
  exact source

/-- What **holds in a session**: its frame is there, and each function has a body that was read in
one of the entries so far. -/
theorem Session.holds (hhost : ∀ P, host.LetsErrorsPass P)
    (so : Session (Task.runTo host depth) frame first entries s) (blank : StartsBlank frame first) :
    frame < s.frames.size ∧ s.HasBodies (Node.IsReadAmong entries) := by
  induction so with
  | start => exact ⟨blank.frame, Store.hasBodies_of_empty blank.functions⟩
  | entered _ entry ih =>
    exact (runEntry_leaves hhost depth ih.1 ih.2 entry).imp Store.lt_of_sourceOf id
  | emptied _ ih => exact ih

/-- An entry **fails at a node** if it ends with an error and evaluating the node is innermost in
progress then. -/
def FailsAt (host : Host) (depth : Nat) (entry : Text) (frame : FrameRef) (s : Store)
    (e : ProgramError) (s' : Store) (n : Node) : Prop :=
  ∃ program d, parseProgram entry = .ok program ∧
    Innermost host depth program frame (s.setSource frame (some entry)) e s' d n

/-- A session **quotes what an entry fails at** if the report of the error, next to the source of
the frame, quotes an entry in which the node was read. -/
def QuotesOrigins (host : Host) (depth : Nat) (frame : FrameRef) (entries : List Text) (s : Store)
    (entry : Text) : Prop :=
  ∀ e s', runEntryWith (Task.runTo host depth) entry frame s = .error (.error e) s' →
    ∀ n, FailsAt host depth entry frame s e s' n →
      ∃ origin ∈ entries ++ [entry], n.IsReadIn origin ∧ ∀ r,
        (Interrupt.error e).report? = some r → r.Quotes (s'.sourceOf frame) origin

/-- An entry that ends with an error **fails at a node.** -/
theorem exists_failsAt (hhost : ∀ P, host.LetsErrorsPass P)
    (raised : runEntryWith (Task.runTo host depth) entry frame s = .error (.error e) s') :
    ∃ n, FailsAt host depth entry frame s e s' n := by
  obtain ⟨program, parsed, ends⟩ := runEntry_error raised
  obtain ⟨d, n, inProgress, evaluates⟩ := exists_inProgress parsed (hhost _) ends
  obtain ⟨d, n, innermost⟩ := inProgress.exists_innermost evaluates
  exact ⟨n, program, d, parsed, innermost⟩

namespace Session

variable (hhost : ∀ P, host.LetsErrorsPass P)
  (so : Session (Task.runTo host depth) frame first entries s) (blank : StartsBlank frame first)
include hhost so blank

/-- What an entry fails at was **read in an entry.** -/
theorem failsAt_isReadAmong (fails : FailsAt host depth entry frame s e s' n) :
    n.IsReadAmong (entries ++ [entry]) := by
  obtain ⟨program, d, parsed, innermost⟩ := fails
  have bodies := hasBodies_setSource (so.holds hhost blank).2 frame entry
  exact (innermost.inProgress.isOf (Node.isReadAmong_hereditary _) (hhost _)
    (Node.isReadAmong_of_parsed parsed entries) bodies).evaluates innermost.evaluates

/-- What an entry fails at **has the position** of the error. -/
theorem failsAt_position (fails : FailsAt host depth entry frame s e s' n) :
    ∃ line column : Int, n.position? = some ⟨line, some column⟩ ∧ e.position = n.position? := by
  have placed := (so.failsAt_isReadAmong hhost blank fails).isPlaced
  obtain ⟨program, d, parsed, innermost⟩ := fails
  exact innermost.position_eq placed (hhost _)

/-- The **report** of the error that an entry ends with quotes the entry, and another text exactly
if that has the same line with the number of the report, where the entry has one. -/
theorem report_quotes
    (raised : runEntryWith (Task.runTo host depth) entry frame s = .error (.error e) s')
    {line : Int} {column : Option Int} (position : e.position = some ⟨line, column⟩) :
    ∃ r, (Interrupt.error e).report? = some r ∧ ∀ origin,
      (r.Quotes (s'.sourceOf frame) origin ↔ ∀ shown,
        Report.sourceLine? entry line = some shown → Report.sourceLine? origin line = some shown) := by
  obtain ⟨there, bodies⟩ := so.holds hhost blank
  have source := (runEntry_leaves hhost depth there bodies entry).1
  unfold Step.storeAfter at source
  rw [raised] at source
  refine ⟨_, rfl, fun origin => ?_⟩
  rw [source]
  refine Report.quotes_iff ?_
  rw [position]
  rfl

end Session

/-- **What is quoted in a session.** When an entry ends with an error, it fails at a node that was
read in this entry or in an earlier one, and whose position is that of the error. The report, next
to the source of the frame, quotes the entry that is run. Another one, in which the node may have
been read, it quotes exactly if that has the same line with this number, where the entry that is
run has one. -/
theorem quotes_entries (hhost : ∀ P, host.LetsErrorsPass P)
    (so : Session (Task.runTo host depth) frame first entries s) (blank : StartsBlank frame first)
    (raised : runEntryWith (Task.runTo host depth) entry frame s = .error (.error e) s') :
    (∃ n, FailsAt host depth entry frame s e s' n) ∧ ∀ n, FailsAt host depth entry frame s e s' n →
      n.IsReadAmong (entries ++ [entry]) ∧ ∃ line column : Int,
        n.position? = some ⟨line, some column⟩ ∧ e.position = n.position? ∧
        ∃ r, (Interrupt.error e).report? = some r ∧ r.Quotes (s'.sourceOf frame) entry ∧ ∀ origin,
          (r.Quotes (s'.sourceOf frame) origin ↔ ∀ shown,
            Report.sourceLine? entry line = some shown → Report.sourceLine? origin line = some shown) := by
  refine ⟨exists_failsAt hhost raised, fun n fails => ?_⟩
  obtain ⟨line, column, position, same⟩ := so.failsAt_position hhost blank fails
  obtain ⟨r, report, quotes⟩ := so.report_quotes hhost blank raised (same.trans position)
  exact ⟨so.failsAt_isReadAmong hhost blank fails, line, column, position, same, r, report,
    (quotes entry).mpr fun _ => id, quotes⟩

/-- What a console starts with is blank. -/
theorem startsBlank_freshFrame : StartsBlank 0 (Console.Session.freshFrame .empty).2 :=
  ⟨Nat.zero_lt_one, rfl⟩

/-- An entry fails on its second line, with a function of an earlier one at hand. -/
theorem quotes_entries_of_second_line :
    let first := (Console.Session.freshFrame .empty).2
    let s := (runEntryWith Task.runAlone "let f = (a, b) => a;" 0).storeAfter first
    let entry : Text := "let x = [];\nx.reduce(f);"
    ∃ e s', (∀ P, Host.bare.LetsErrorsPass P) ∧
      Session Task.runAlone 0 first ["let f = (a, b) => a;"] s ∧ StartsBlank 0 first ∧
      runEntryWith Task.runAlone entry 0 s = .error (.error e) s' ∧
      ∃ n, FailsAt .bare depthLimit entry 0 s e s' n ∧
        n.IsReadAmong ["let f = (a, b) => a;", entry] ∧ e.position = some ⟨2, some 1⟩ ∧
        ∃ r, (Interrupt.error e).report? = some r ∧ r.Quotes (s'.sourceOf 0) entry := by
  intro first s entry
  have ends : ((runEntryWith Task.runAlone entry 0).error? s).map ProgramError.position
      = some (some ⟨2, some 1⟩) := by
    decide +kernel
  obtain ⟨e, ends, position⟩ := Option.map_eq_some_iff.mp ends
  obtain ⟨s', raised⟩ := Step.exists_of_error? ends
  have hhost : ∀ P, Host.bare.LetsErrorsPass P := fun _ => Host.bare_letsErrorsPass
  have so : Session Task.runAlone 0 first ["let f = (a, b) => a;"] s := .entered .start _
  obtain ⟨⟨n, fails⟩, located⟩ := quotes_entries hhost so startsBlank_freshFrame raised
  obtain ⟨among, -, -, -, -, r, report, quotes, -⟩ := located n fails
  exact ⟨e, s', hhost, so, startsBlank_freshFrame, raised, n, fails, among, position, r, report,
    quotes⟩

/-- A function of an earlier entry fails, and the line of the entry that calls it is shown. -/
theorem not_quotesOrigins_earlier :
    let first := (Console.Session.freshFrame .empty).2
    let s := (runEntryWith Task.runAlone "let f = () => [].reduce((a, b) => a);" 0).storeAfter first
    Session Task.runAlone 0 first ["let f = () => [].reduce((a, b) => a);"] s ∧
      ¬ QuotesOrigins .bare depthLimit 0 ["let f = () => [].reduce((a, b) => a);"] s "f()" := by
  intro first s
  have hhost : ∀ P, Host.bare.LetsErrorsPass P := fun _ => Host.bare_letsErrorsPass
  have so : Session Task.runAlone 0 first ["let f = () => [].reduce((a, b) => a);"] s :=
    .entered .start _
  refine ⟨so, fun quotes => ?_⟩
  have ends : ((runEntryWith Task.runAlone "f()" 0).error? s).map ProgramError.position
      = some (some ⟨1, some 15⟩) := by
    decide +kernel
  obtain ⟨e, ends, position⟩ := Option.map_eq_some_iff.mp ends
  obtain ⟨s', raised⟩ := Step.exists_of_error? ends
  obtain ⟨n, fails⟩ := exists_failsAt hhost raised
  obtain ⟨-, -, -, same⟩ := so.failsAt_position hhost startsBlank_freshFrame fails
  obtain ⟨r, report, quotes_iff⟩ := so.report_quotes hhost startsBlank_freshFrame raised position
  obtain ⟨origin, mem, read, quoted⟩ := quotes e s' raised n fails
  rcases List.mem_append.mp mem with mem | mem <;> obtain rfl := List.mem_singleton.mp mem
  · -- It was read in the first entry, which has another line with this number.
    have same := (quotes_iff _).mp (quoted r report) "f()" (by decide)
    exact absurd same (by decide)
  · -- The second entry has no such place.
    obtain ⟨offset, le, place⟩ := read.exists_placeAt (by decide +kernel) (same.symm.trans position)
    have nowhere : ∀ offset ≤ 3, (⟨1, some 15⟩ : Position) ≠ .ofPlace (placeAt "f()" 1 offset) := by
      decide
    exact nowhere offset le place

end Program

/-! ## The console -/

namespace Console.Session

variable {c : Session} {first : Store}

/-- Displaying what comes of an entry leaves the store alone. -/
theorem storeAfter_runAndDisplay (frame : FrameRef) (entry : Text) (s : Store) :
    (runAndDisplay frame entry).storeAfter s =
      (Program.runEntryWith Task.runAlone entry frame).storeAfter s := by
  unfold Step.storeAfter runAndDisplay
  cases ends : Program.runEntryWith Task.runAlone entry frame s with
  | error i s' => rw [Step.bind_of_error ends]
  | ok outcome s' =>
    obtain ⟨v, quiet⟩ := outcome
    rw [Step.bind_of_ok ends]
    cases quiet with
    | true => rfl
    | false =>
      dsimp only
      rw [if_neg Bool.false_ne_true]
      -- The value is displayed as it is in this store, or that fails there.
      have displays : Step.display v s' = Step.ofExcept (s'.display v) s' := rfl
      cases shown : s'.display v with
      | ok text =>
        have displays : Step.display v s' = .ok text s' := by rw [displays, shown]; rfl
        rw [Step.bind_of_ok displays]
        rfl
      | error u =>
        have fails : Step.display v s' = .error (.fault (.unmet u)) s' := by
          rw [displays, shown]
          rfl
        rw [Step.bind_of_error fails]

/-- What comes of an entry at a console. -/
theorem session_run (c : Session) (entry : Text) :
    let left := (Program.runEntryWith Task.runAlone entry c.frame).storeAfter c.store
    (c.run entry).session = { c with store := { left with log := [] } } := by
  intro left
  have runs : (runAndDisplay c.frame entry).run c.store = runAndDisplay c.frame entry c.store := rfl
  simp only [left, ← storeAfter_runAndDisplay]
  unfold run Step.storeAfter
  rw [runs]
  cases runAndDisplay c.frame entry c.store with
  | ok output s' => rfl
  | error i s' =>
    dsimp only
    cases i.report? <;> rfl

/-- A console that runs an entry **goes on with its session.** -/
theorem run_goesOn (so : Program.Session Task.runAlone c.frame first entries c.store)
    (entry : Text) :
    Program.Session Task.runAlone (c.run entry).session.frame first (entries ++ [entry])
      (c.run entry).session.store := by
  rw [session_run]
  exact .emptied (.entered so entry)

end Console.Session

end Scriptlet
