import Mathlib.Data.List.TakeWhile
import Postmortem.Command.Arguments

/-!
# Reading arguments

Arguments are read from the front: two dashes alone end the options, and every other argument is an
option that takes values off what follows. An option that takes at most one value leaves the rest of
the arguments alone, whatever it is.

## Shape of the argument

An option never makes the arguments longer, so the bound on their number is never met, and the
reading of all arguments obeys an equation for each form of the first one.
-/

namespace Postmortem.Command

/-! ## Single options -/

/-- An argument that names an option and has no value is the name behind two dashes. -/
theorem toList_of_longOption? {arg name : String} (h : longOption? arg = some (name, none)) :
    arg.toList = '-' :: '-' :: name.toList := by
  rw [longOption?] at h
  split at h
  next cs hcs =>
    dsimp only at h
    split at h
    · cases h
    next hdrop =>
      -- no equals sign stands in the argument, so the name is all of it
      have hwhole := List.takeWhile_append_dropWhile (p := (· != '=')) (l := cs)
      rw [hdrop, List.append_nil] at hwhole
      obtain ⟨rfl, -⟩ := Prod.mk.inj (Option.some.inj h)
      rw [String.toList_ofList, hwhole, hcs]
  next => cases h

/-- Each option takes at most one value. -/
def Grammar.Bounded (g : Grammar) : Prop := ∀ o ∈ g.options, o.2 ≠ .some

/-- **An option takes its values off the front of the arguments.** Each of them can stand on its
own; unless the option takes as many as follow, they are the same whatever comes after them. -/
theorem takeOption_taken {g : Grammar} {name : String} {attached : Option String}
    {rest rest' : List String} {given : Given}
    (h : takeOption g name attached rest = .ok (given, rest')) :
    given.name = name ∧ ∃ taken, rest = taken ++ rest' ∧ given.values = attached.toList ++ taken ∧
      (∀ v ∈ taken, isOptionLike v = false) ∧
      (g.Bounded → ∀ more, takeOption g name attached (taken ++ more) = .ok (given, more)) := by
  cases hfind : g.options.find? (·.1 == name) with
  | none =>
    simp only [takeOption, hfind] at h
    split at h
    · cases h
    · split at h <;> cases h
  | some o =>
    obtain ⟨key, arity⟩ := o
    cases attached with
    | some value =>
      cases arity with
      | none => simp only [takeOption, hfind, reduceCtorEq] at h
      | one | some =>
        simp only [takeOption, hfind] at h
        cases h
        refine ⟨rfl, [], rfl, rfl, List.forall_mem_nil _, fun _ more => ?_⟩
        simp only [takeOption, hfind, List.nil_append]
    | none =>
      cases arity with
      | none =>
        simp only [takeOption, hfind] at h
        cases h
        refine ⟨rfl, [], rfl, rfl, List.forall_mem_nil _, fun _ more => ?_⟩
        simp only [takeOption, hfind, List.nil_append]
      | one =>
        cases rest with
        | nil => simp only [takeOption, hfind, reduceCtorEq] at h
        | cons value rest =>
          simp only [takeOption, hfind] at h
          split at h
          · cases h
          next hvalue =>
            cases h
            refine ⟨rfl, [value], rfl, rfl, ?_, fun _ more => ?_⟩
            · exact List.forall_mem_singleton.mpr (Bool.eq_false_iff.mpr hvalue)
            · simp only [takeOption, hfind, List.cons_append, List.nil_append, if_neg hvalue]
      | some =>
        simp only [takeOption, hfind] at h
        split at h
        · cases h
        · cases h
          refine ⟨rfl, rest.takeWhile fun a => !isOptionLike a, ?_, rfl, ?_, fun hg => ?_⟩
          · rw [List.prefix_iff_eq_append.mp (List.takeWhile_prefix _)]
          · intro v hv
            simpa using List.mem_takeWhile_imp hv
          · exact absurd rfl (hg _ (List.mem_of_find?_eq_some hfind))

/-! ## All arguments -/

section

variable {σ : Type} (g : Grammar) (accept : σ → Given → Except Refusal σ)
  (acceptTrailing : σ → List String → σ)

/-- Reads all arguments. -/
def readAll (s : σ) (args : List String) : Except Refusal σ :=
  readArguments g accept acceptTrailing (args.length + 1) s args

variable {g accept acceptTrailing}

/-- Bounds above the number of arguments are never met. -/
theorem readArguments_congr {fuel fuel' : Nat} {s : σ} {args : List String}
    (hfuel : args.length < fuel) (hfuel' : args.length < fuel') :
    readArguments g accept acceptTrailing fuel s args =
      readArguments g accept acceptTrailing fuel' s args := by
  induction fuel generalizing fuel' s args with
  | zero => exact absurd hfuel (Nat.not_lt_zero _)
  | succ fuel ih =>
    obtain ⟨fuel', rfl⟩ := Nat.exists_eq_add_one_of_ne_zero (Nat.ne_zero_of_lt hfuel')
    cases args with
    | nil => rfl
    | cons arg rest =>
      rw [readArguments, readArguments]
      split
      · rfl
      · cases longOption? arg with
        | none => rfl
        | some o =>
          obtain ⟨name, attached⟩ := o
          simp only
          cases htake : takeOption g name attached rest with
          | error r => rfl
          | ok taken =>
            obtain ⟨given, rest'⟩ := taken
            simp only
            cases accept s given with
            | error r => rfl
            | ok s' =>
              -- what is left is not longer than what the option was taken off
              obtain ⟨-, taken, rfl, -⟩ := takeOption_taken htake
              simp only [List.length_cons, List.length_append] at hfuel hfuel'
              exact ih (by omega) (by omega)

/-- **Arguments are accepted if the first is an option that is, and then the rest is.** -/
theorem readAll_cons_eq_ok_iff {s t : σ} {arg : String} (harg : arg ≠ "--") {rest : List String} :
    readAll g accept acceptTrailing s (arg :: rest) = .ok t ↔
      ∃ name attached given rest' s', longOption? arg = some (name, attached) ∧
        takeOption g name attached rest = .ok (given, rest') ∧ accept s given = .ok s' ∧
        readAll g accept acceptTrailing s' rest' = .ok t := by
  have hdashes : (arg == "--") = false := beq_false_of_ne harg
  have hread {name : String} {attached : Option String} {given : Given} {rest' : List String}
      (htake : takeOption g name attached rest = .ok (given, rest')) (s' : σ) :
      readArguments g accept acceptTrailing (arg :: rest).length s' rest' =
        readAll g accept acceptTrailing s' rest' := by
    obtain ⟨-, taken, rfl, -⟩ := takeOption_taken htake
    apply readArguments_congr _ (Nat.lt_succ_self _)
    simp only [List.length_cons, List.length_append]
    omega
  rw [readAll, readArguments, if_neg (by rw [hdashes]; exact Bool.false_ne_true)]
  constructor
  · intro h
    cases hoption : longOption? arg with
    | none =>
      rw [hoption] at h
      simp only at h
      split at h <;> cases h
    | some o =>
      obtain ⟨name, attached⟩ := o
      rw [hoption] at h
      simp only at h
      cases htake : takeOption g name attached rest with
      | error r =>
        rw [htake] at h
        cases h
      | ok taken =>
        obtain ⟨given, rest'⟩ := taken
        rw [htake] at h
        simp only at h
        cases haccept : accept s given with
        | error r =>
          rw [haccept] at h
          cases h
        | ok s' =>
          rw [haccept] at h
          exact ⟨name, attached, given, rest', s', rfl, htake, haccept,
            (hread htake s').symm.trans h⟩
  · rintro ⟨name, attached, given, rest', s', hoption, htake, haccept, hrest⟩
    simp only [hoption, htake, haccept]
    exact (hread htake s').trans hrest

/-- **Induction over accepted arguments**: what holds of the final state when nothing is left, of
what follows two dashes, and of an option if it holds of the arguments behind it, holds of all
accepted arguments. -/
theorem readAll_induction {motive : σ → List String → Prop} {t : σ} (nil : motive t [])
    (dashes : ∀ s rest, readAll g accept acceptTrailing s ("--" :: rest) = .ok t →
      motive s ("--" :: rest))
    (option : ∀ s arg name attached rest given rest' s', arg ≠ "--" →
      longOption? arg = some (name, attached) →
      takeOption g name attached rest = .ok (given, rest') → accept s given = .ok s' →
      motive s' rest' → motive s (arg :: rest))
    {s : σ} {args : List String} (h : readAll g accept acceptTrailing s args = .ok t) :
    motive s args := by
  -- the induction is on a bound for the number of arguments
  suffices hbound : ∀ n s args, args.length ≤ n →
      readAll g accept acceptTrailing s args = .ok t → motive s args from
    hbound _ s args (Nat.le_refl _) h
  intro n
  induction n with
  | zero =>
    intro s args hlength h
    cases List.length_eq_zero_iff.mp (Nat.le_zero.mp hlength)
    cases h
    exact nil
  | succ n ih =>
    intro s args hlength h
    cases args with
    | nil =>
      cases h
      exact nil
    | cons arg rest =>
      by_cases hdashes : arg = "--"
      · subst hdashes
        exact dashes s rest h
      · obtain ⟨name, attached, given, rest', s', hoption, htake, haccept, hrest⟩ :=
          (readAll_cons_eq_ok_iff hdashes).mp h
        refine option s arg name attached rest given rest' s' hdashes hoption htake haccept ?_
        obtain ⟨-, taken, rfl, -⟩ := takeOption_taken htake
        simp only [List.length_cons, List.length_append] at hlength
        exact ih s' rest' (by omega) hrest

end

end Postmortem.Command
