import Postmortem.Proofs.Files.Store
import Postmortem.Proofs.Run.Totality

/-!
# What a run leaves behind

The trace of a program is printed and written to a file if that is asked for, and only if the
program ended in time. Neither has a say in the result: it is the same whether and where the trace
goes, also if the file cannot be written to.

## Shape of the statement

A run has ended if a child was started for its subject and ended by itself. All other runs, those
that were stopped at the limit and those that could not be made, leave the files as they are.
-/

namespace Postmortem

open Line (Parser)

/-- Where the trace goes has no say in what is run. -/
theorem Subject.target_redirected (h : Host) (o : TraceOptions) (s : Subject)
    (destination : Option String) (echo : Bool) :
    s.target h { o with destination, echo } = s.target h o := by
  cases s <;> rfl

/-- Nor in how it is started. -/
theorem Subject.spawn_redirected (parse : Parser) (h : Host) (o : TraceOptions) (s : Subject)
    (t : Target) (destination : Option String) (echo : Bool) :
    s.spawn parse h { o with destination, echo } t = s.spawn parse h o t := by
  cases s <;> rfl

namespace Launched

variable {parse : Parser} {h : Host} {o : TraceOptions} {s : Subject}

/-- A run whose child ended prints the trace and delivers it, as the options say. -/
theorem trace_of_ended (l : Launched parse h o s) {status : ExitStatus}
    (hend : l.child.ending = some status) :
    s.trace parse h o =
      { result := (s.trace parse h o).result
        passedOn := if o.suppressStdout then [] else l.child.stderr
        printed := if o.echo then some (s.trace parse h o).result.trace else none
        files := h.files.deliver h.directory o.destination (s.trace parse h o).result.trace
        seen := some l.invocation } := by
  cases hrecord : l.child.record o.suppressStdout (.start l.plan o.maxChars) with
  | timedOut =>
    rw [Child.record, hend] at hrecord
    cases hrecord
  | completed status recorder stderr => rw [l.trace_of_completed hrecord]

/-- A run whose child was stopped prints nothing and leaves the files as they are. -/
theorem trace_of_outlived (l : Launched parse h o s) (hend : l.child.ending = none) :
    s.trace parse h o =
      { result := (s.trace parse h o).result
        passedOn := if o.suppressStdout then [] else l.child.stderr
        files := h.files } := by
  have hrecord : l.child.record o.suppressStdout (.start l.plan o.maxChars) = .timedOut := by
    rw [Child.record, hend]
  rw [l.trace_of_timedOut hrecord]

/-- A child is started in the same way wherever the trace goes. -/
def redirected (l : Launched parse h o s) (destination : Option String) (echo : Bool) :
    Launched parse h { o with destination, echo } s where
  target := l.target
  invocation := l.invocation
  child := l.child
  resolved := (s.target_redirected h o destination echo).trans l.resolved
  started := (s.spawn_redirected parse h o l.target destination echo).trans l.started

end Launched

/-- A run without a child prints nothing and leaves the files as they are. -/
theorem trace_of_not_launched {parse : Parser} {h : Host} {o : TraceOptions} {s : Subject}
    (hnone : ¬ Nonempty (Launched parse h o s)) :
    ∃ e : RunError, s.trace parse h o = { result := .notRun e.message, files := h.files } := by
  cases htarget : s.target h o with
  | error e => exact ⟨.target e, Subject.trace_of_unresolved parse htarget⟩
  | ok t =>
    cases hspawn : s.spawn parse h o t with
    | error e => exact ⟨.start o.python e, Subject.trace_of_unstarted htarget hspawn⟩
    | ok started => exact absurd ⟨⟨t, started.1, started.2, htarget, hspawn⟩⟩ hnone

/-- A run without a child that ended prints nothing and leaves the files as they are. -/
theorem trace_of_not_ended {parse : Parser} {h : Host} {o : TraceOptions} {s : Subject}
    (hnone : ¬ ∃ (l : Launched parse h o s) (status : ExitStatus), l.child.ending = some status) :
    (s.trace parse h o).files = h.files ∧ (s.trace parse h o).printed = none := by
  by_cases hlaunched : Nonempty (Launched parse h o s)
  · obtain ⟨l⟩ := hlaunched
    have hend : l.child.ending = none := by
      cases hend : l.child.ending with
      | none => rfl
      | some status => exact absurd ⟨l, status, hend⟩ hnone
    rw [l.trace_of_outlived hend]
    exact ⟨rfl, rfl⟩
  · obtain ⟨e, he⟩ := trace_of_not_launched hlaunched
    rw [he]
    exact ⟨rfl, rfl⟩

/-- The error output of a child is not passed on when it is captured. -/
theorem passedOn_of_suppressed {parse : Parser} {h : Host} {o : TraceOptions} {s : Subject}
    (hsuppressed : o.suppressStdout = true) : (s.trace parse h o).passedOn = [] := by
  by_cases hlaunched : Nonempty (Launched parse h o s)
  · obtain ⟨l⟩ := hlaunched
    cases hend : l.child.ending with
    | none =>
      rw [l.trace_of_outlived hend]
      exact if_pos hsuppressed
    | some status =>
      rw [l.trace_of_ended hend]
      exact if_pos hsuppressed
  · obtain ⟨e, he⟩ := trace_of_not_launched hlaunched
    rw [he]

/-- **The result does not depend on where the trace goes.** -/
theorem result_redirected (parse : Parser) (h : Host) (o : TraceOptions) (s : Subject)
    (destination : Option String) (echo : Bool) :
    (s.trace parse h { o with destination, echo }).result = (s.trace parse h o).result := by
  have hsame := s.target_redirected h o destination echo
  cases htarget : s.target h o with
  | error e =>
    rw [result_of_unresolved htarget]
    exact result_of_unresolved (hsame.trans htarget)
  | ok t =>
    cases hspawn : s.spawn parse h o t with
    | error e =>
      rw [result_of_unstarted htarget hspawn]
      exact result_of_unstarted (hsame.trans htarget)
        ((s.spawn_redirected parse h o t destination echo).trans hspawn)
    | ok started =>
      -- the two children are the same, and so is what they are told
      let l : Launched parse h o s := ⟨t, started.1, started.2, htarget, hspawn⟩
      rw [l.result_eq]
      exact (l.redirected destination echo).result_eq

/-- **Printing and writing have no say in the result, and are for runs that ended.** The run of a
child that ended writes its trace to a file that can be written to, and to nothing else, and prints
it if that is asked for. A run without such a child, because it was stopped at the limit or never
made, leaves the files as they are and prints nothing. Where the trace goes does not show in the
result. -/
theorem trace_outputs (parse : Parser) (h : Host) (o : TraceOptions) (s : Subject) :
    (∀ (l : Launched parse h o s) (status : ExitStatus), l.child.ending = some status →
      (∀ path, o.destination = some path → h.files.Writable h.directory path →
        h.files.IsWrite (s.trace parse h o).files h.directory path
          (s.trace parse h o).result.trace) ∧
      ((∀ path, o.destination = some path → ¬ h.files.Writable h.directory path) →
        (s.trace parse h o).files = h.files) ∧
      (s.trace parse h o).printed =
        if o.echo then some (s.trace parse h o).result.trace else none) ∧
    ((¬ ∃ (l : Launched parse h o s) (status : ExitStatus), l.child.ending = some status) →
      (s.trace parse h o).files = h.files ∧ (s.trace parse h o).printed = none) ∧
    ∀ (destination : Option String) (echo : Bool),
      (s.trace parse h { o with destination, echo }).result = (s.trace parse h o).result := by
  refine ⟨?_, ?_, ?_⟩
  · intro l status hend
    have hrun := l.trace_of_ended hend
    have hfiles := congrArg TraceRun.files hrun
    have hprinted := congrArg TraceRun.printed hrun
    dsimp only at hfiles hprinted
    refine ⟨?_, ?_, hprinted⟩
    · intro path hpath hwritable
      rw [hfiles, hpath]
      exact FileStore.isWrite_deliver _ hwritable
    · intro hnowhere
      rw [hfiles]
      exact FileStore.deliver_of_not_writable _ hnowhere
  · exact trace_of_not_ended
  · exact result_redirected parse h o s

/-- An empty trace takes the place of what a file held, a child that is stopped at the limit leaves
the file as it is, and a directory in place of the file changes nothing in the result. -/
theorem trace_outputs_empty :
    let parse : Parser := fun _ => none
    let host (child : Child) : Host :=
      { files := FileStore.empty.addFile ["out.txt"] (Text.Utf8.ofString "old")
        directory := [], stdin := "", interpreter := "python3", behaviour := fun _ => child }
    let silent : Child := { ending := some (.code 0) }
    let endless : Child := { ending := none }
    let o : TraceOptions := { destination := some "out.txt", echo := true }
    let s : Subject := .module "prog"
    (s.trace parse (host silent) o).files.readText [] "out.txt" =
        .ok (s.trace parse (host silent) o).result.trace ∧
      (s.trace parse (host silent) o).printed =
        some (s.trace parse (host silent) o).result.trace ∧
      (s.trace parse (host endless) o).files = (host endless).files ∧
      (s.trace parse (host silent) { o with destination := some ".", echo := false }).result =
        (s.trace parse (host silent) o).result := by
  have htarget : Target.ofModule "." "prog" = .ok ⟨"prog", "./prog.py", ".", "prog.py"⟩ := by rfl
  have hstart : Host.start ⟨FileStore.empty.addFile ["out.txt"] (Text.Utf8.ofString "old"), [], "",
      "python3", fun _ => {}, fun _ => none⟩ "python3" (some ".") = .ok "/" := by rfl
  intro parse host silent endless o s
  have hwritable : (host silent).files.Writable [] "out.txt" :=
    ⟨["out.txt"], by rfl, .inl ⟨Text.Utf8.ofString "old", by rfl⟩⟩
  let t : Target := ⟨"prog", "./prog.py", ".", "prog.py"⟩
  let i : Invocation := TraceRun.invocationFor parse (host silent) t o default "/"
  have hspawn (child : Child) : s.spawn parse (host child) o t = .ok (i, child) := by
    refine Host.spawn_eq_ok_iff.mpr ⟨by simp, "/", ?_, rfl, rfl, rfl⟩
    refine (Host.start_congr ?_ ?_ ?_ _ _).trans hstart <;> rfl
  let l : Launched parse (host silent) o s := ⟨t, i, silent, htarget, hspawn silent⟩
  have hnone : ¬ ∃ (l : Launched parse (host endless) o s) (status : ExitStatus),
      l.child.ending = some status := by
    rintro ⟨⟨t, i, child, htarget, hstarted⟩, status, hend⟩
    obtain ⟨-, -, -, -, -, rfl⟩ := Host.spawn_eq_ok_iff.mp hstarted
    cases hend
  obtain ⟨hended, -, hsame⟩ := trace_outputs parse (host silent) o s
  obtain ⟨-, hstopped, -⟩ := trace_outputs parse (host endless) o s
  obtain ⟨hwritten, -, hprinted⟩ := hended l (.code 0) rfl
  refine ⟨?_, hprinted, (hstopped hnone).1, hsame (some ".") false⟩
  exact (hwritten "out.txt" rfl hwritable).read

end Postmortem
