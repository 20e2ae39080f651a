import Postmortem.Command.Trace
import Postmortem.Proofs.Command.Arguments

/-!
# The flag for the interchange format

The arguments of the tracing command with the flag and without it say the same, except for the form
in which the run is reported.

## Shape of the argument

An option other than the flag reads neither the flag nor what the flag sets, and no option takes the
flag for its value. So the flag can be left out of the arguments, step by step, while everything
else is read as before.
-/

namespace Postmortem.Command

namespace TraceArguments

/-! ## Arguments without the flag -/

/-- Options that ask for the interchange format, or do not. -/
def withJson (a : TraceArguments) (json : Bool) : TraceArguments := { a with json }

/-- The arguments without the flag. What follows two dashes alone is not for the command. -/
def withoutFlag : List String → List String
  | [] => []
  | arg :: rest =>
    if arg = "--" then arg :: rest
    else if arg = "--json" then withoutFlag rest
    else arg :: withoutFlag rest

/-- Values that can stand on their own are kept. -/
theorem withoutFlag_append {taken : List String} (h : ∀ v ∈ taken, isOptionLike v = false)
    (rest : List String) : withoutFlag (taken ++ rest) = taken ++ withoutFlag rest := by
  induction taken with
  | nil => rfl
  | cons v taken ih =>
    obtain ⟨hv, htaken⟩ := List.forall_mem_cons.mp h
    have hdashes : v ≠ "--" := by
      rintro rfl
      exact absurd hv (by decide)
    have hflag : v ≠ "--json" := by
      rintro rfl
      exact absurd hv (by decide)
    rw [List.cons_append, withoutFlag, if_neg hdashes, if_neg hflag, ih htaken, List.cons_append]

/-! ## Single options -/

/-- Each option of the command takes at most one value. -/
theorem bounded_grammar : grammar.Bounded := by
  show ∀ o ∈ grammar.options, o.2 ≠ .some
  decide

/-- What is given once can be changed before or after. -/
theorem map_once {α β γ : Type} (old : Option α) (f : β → γ) (b : β) :
    (once old b).map f = once old (f b) := by
  rw [once, once]
  split <;> rfl

/-- Only the flag itself asks for the interchange format. -/
theorem accept_withJson (a : TraceArguments) (json : Bool) {g : Given} (h : g.name ≠ "json") :
    accept (a.withJson json) g = (accept a g).map (withJson · json) := by
  obtain ⟨name, values⟩ := g
  simp only [accept]
  split
  -- the module
  case h_1 => rw [map_once]; rfl
  -- whether the output is shown
  case h_2 =>
    have hsame : (a.withJson json).showStdout = a.showStdout := rfl
    rw [hsame]
    split <;> rfl
  case h_3 => exact absurd rfl h
  -- the limit
  case h_4 =>
    simp only [withJson]
    split <;> rfl
  -- the budget
  case h_5 v =>
    cases wordOf? v with
    | none => rfl
    | some n => rw [map_once]; rfl
  -- the paths
  case h_6 | h_7 | h_8 =>
    split
    · rfl
    · rw [map_once]; rfl
  case h_9 => rfl

/-- The flag does nothing else. -/
theorem eq_of_accept_json {a a' : TraceArguments} {values : List String}
    (h : accept a ⟨"json", values⟩ = .ok a') : a' = a.withJson true := by
  simp only [accept] at h
  split at h
  · cases h
  · exact (Except.ok.inj h).symm

/-- Nothing else is read as the flag. -/
theorem given_name_ne_json {arg name : String} {attached : Option String}
    {rest rest' : List String} {given : Given} (hflag : arg ≠ "--json")
    (hoption : longOption? arg = some (name, attached))
    (htake : takeOption grammar name attached rest = .ok (given, rest')) : given.name ≠ "json" := by
  rw [(takeOption_taken htake).1]
  rintro rfl
  cases attached with
  | none => exact hflag (String.toList_injective (toList_of_longOption? hoption))
  | some value => cases htake

/-! ## All arguments -/

/-- Reads arguments after others have been read. -/
def reading (a : TraceArguments) (args : List String) : Except Refusal TraceArguments :=
  readAll grammar accept (fun a rest => { a with args := rest }) a args

/-- **Without the flag, everything else is read as it is with it.** -/
theorem reading_withoutFlag {a b : TraceArguments} (json : Bool) {args : List String}
    (h : reading a args = .ok b) :
    reading (a.withJson json) (withoutFlag args) = .ok (b.withJson json) := by
  refine readAll_induction (motive := fun a args =>
    reading (a.withJson json) (withoutFlag args) = .ok (b.withJson json)) rfl ?_ ?_ h
  · intro a rest h
    cases h
    rfl
  · intro a arg name attached rest given rest' a' hdashes hoption htake haccept ih
    rw [withoutFlag, if_neg hdashes]
    by_cases hflag : arg = "--json"
    · -- the flag takes no value, and all it does is undone
      rw [if_pos hflag]
      subst hflag
      cases hoption
      cases htake
      rw [eq_of_accept_json haccept] at ih
      exact ih
    · obtain ⟨-, taken, rfl, -, htaken, hframe⟩ := takeOption_taken htake
      rw [if_neg hflag, withoutFlag_append htaken]
      refine (readAll_cons_eq_ok_iff hdashes).mpr
        ⟨name, attached, given, _, a'.withJson json, hoption, hframe bounded_grammar _, ?_, ih⟩
      rw [accept_withJson a json (given_name_ne_json hflag hoption htake), haccept]
      rfl

/-- Arguments are accepted if they can be read and name a module. -/
theorem ofArguments_eq_ok_iff {a : TraceArguments} {args : List String} :
    ofArguments args = .ok a ↔ reading {} args = .ok a ∧ a.module.isSome = true := by
  have hread : readArguments grammar accept (fun a rest => { a with args := rest })
      (args.length + 1) {} args = reading {} args := rfl
  rw [ofArguments, hread]
  cases reading {} args with
  | error r => simp
  | ok b =>
    simp only [Except.ok.injEq]
    cases hmodule : b.module with
    | none =>
      simp only [Option.isNone_none, if_true, reduceCtorEq, false_iff]
      rintro ⟨rfl, hsome⟩
      rw [hmodule] at hsome
      cases hsome
    | some name =>
      simp only [Option.isNone_some, Bool.false_eq_true, if_false, Except.ok.injEq]
      refine ⟨?_, And.left⟩
      rintro rfl
      rw [hmodule]
      exact ⟨rfl, rfl⟩

/-- **Accepted arguments are accepted without the flag and with it**, and all else that they say is
the same. -/
theorem ofArguments_withoutFlag {a : TraceArguments} {args : List String}
    (h : ofArguments args = .ok a) :
    ofArguments (withoutFlag args) = .ok (a.withJson false) ∧
      ofArguments ("--json" :: withoutFlag args) = .ok (a.withJson true) := by
  obtain ⟨hread, hmodule⟩ := ofArguments_eq_ok_iff.mp h
  refine ⟨ofArguments_eq_ok_iff.mpr ⟨reading_withoutFlag false hread, hmodule⟩,
    ofArguments_eq_ok_iff.mpr ⟨?_, hmodule⟩⟩
  exact (readAll_cons_eq_ok_iff (by decide)).mpr
    ⟨"json", none, ⟨"json", []⟩, withoutFlag args, withJson {} true, rfl, rfl, rfl,
      reading_withoutFlag true hread⟩

end TraceArguments

end Postmortem.Command
