import Postmortem.Proofs.Files.Store
import Postmortem.Run.Host

/-!
# Starting programs

Whether a program can be started in a directory is a matter of the files and the interpreter, and it
runs in the directory in which it is started. A process comes of it unless the system refuses one
for just this start.
-/

namespace Postmortem.Host

/-- Where a program can be started does not depend on what it does, nor on what is refused. -/
theorem start_congr {h h' : Host} (hfiles : h.files = h'.files)
    (hdirectory : h.directory = h'.directory) (hinterpreter : h.interpreter = h'.interpreter)
    (program : String) (directory : Option String) :
    h.start program directory = h'.start program directory := by
  rw [start, start]
  cases directory with
  | none => simp only [within, canStart, bind, Except.bind, hfiles, hdirectory, hinterpreter]
  | some d =>
    simp only [within, enter, hfiles, hdirectory]
    cases h'.files.find h'.directory d with
    | error e => cases e <;> rfl
    | ok found =>
      obtain ⟨place, node⟩ := found
      cases node with
      | file bytes => rfl
      | directory => simp only [canStart, hinterpreter, bind, Except.bind]

/-- A program that is started in a directory runs there. -/
theorem find_of_start {h : Host} {program directory place : String}
    (hstart : h.start program (some directory) = .ok place) :
    ∃ parts, h.files.find h.directory directory = .ok (parts, .directory) ∧
      place = Path.ofParts parts.reverse := by
  rw [start] at hstart
  split at hstart
  · cases hstart
  · simp only [within, enter] at hstart
    cases hfind : h.files.find h.directory directory with
    | error e =>
      rw [hfind] at hstart
      cases e <;> cases hstart
    | ok found =>
      obtain ⟨parts, node⟩ := found
      rw [hfind] at hstart
      cases node with
      | file bytes => cases hstart
      | directory =>
        refine ⟨parts, rfl, ?_⟩
        simp only [bind, Except.bind] at hstart
        split at hstart
        · cases hstart
        · cases hstart
          rfl

/-- A file that is found in the directory of a process is read there. -/
theorem textWithin_of_find {h : Host} {directory path text : String} {place : List String}
    (hdirectory : h.files.find h.directory directory = .ok (place, .directory))
    (hread : h.files.readText place path = .ok text) :
    h.textWithin (some directory) path = text := by
  simp only [textWithin, within, enter, hdirectory, hread]
  rfl

/-- A process is started exactly if its arguments can be told, the program can be started in the
directory, and the system does not refuse; it then does what there is to be done. -/
theorem spawn_eq_ok_iff {h : Host} {program : String} {args : List String}
    {directory : Option String} {purpose : String → Invocation} {i : Invocation} {child : Child} :
    h.spawn program args directory purpose = .ok (i, child) ↔
      (∀ arg ∈ args, '\x00' ∉ arg.toList) ∧
        ∃ place, h.start program directory = .ok place ∧ i = purpose place ∧
          h.refusal i = none ∧ child = h.behaviour i := by
  have hargs : args.any (·.toList.contains '\x00') = true ↔
      ¬ ∀ arg ∈ args, '\x00' ∉ arg.toList := by simp
  rw [spawn]
  by_cases hnul : ∀ arg ∈ args, '\x00' ∉ arg.toList
  · rw [if_neg (by rw [hargs]; exact not_not_intro hnul), and_iff_right hnul]
    cases h.start program directory with
    | error e => simp [bind, Except.bind]
    | ok place =>
      simp only [bind, Except.bind, Except.ok.injEq]
      constructor
      · intro hspawn
        cases hrefusal : h.refusal (purpose place) with
        | some cause =>
          rw [hrefusal] at hspawn
          cases hspawn
        | none =>
          rw [hrefusal] at hspawn
          cases hspawn
          exact ⟨place, rfl, rfl, hrefusal, rfl⟩
      · rintro ⟨_, rfl, rfl, hrefusal, rfl⟩
        rw [hrefusal]
        rfl
  · rw [if_pos (hargs.mpr hnul)]
    exact iff_of_false (fun h => by cases h) fun h => hnul h.1

end Postmortem.Host
