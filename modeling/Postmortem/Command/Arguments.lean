/-!
# Arguments

The arguments of a command: options with long names, each of which takes no value, one, or as many as
follow. A value follows its option or stands in the same argument after an equals sign; a value of
its own does not begin with a dash, unless it is nothing else. What follows two dashes alone are
not options.
-/

namespace Postmortem.Command

/-- How many values an option takes. -/
inductive Arity where
  | none
  | one
  | some
deriving DecidableEq, Repr

/-- What a command accepts. -/
structure Grammar where
  options : List (String × Arity)
  /-- Whether arguments may follow two dashes. -/
  trailing : Bool
  /-- Whether the version can be asked for. -/
  version : Bool

/-- An option as it is given. -/
structure Given where
  name : String
  values : List String
deriving DecidableEq, Repr

/-- Why a command does not run with its arguments. -/
inductive Refusal where
  /-- They ask for help. -/
  | help
  /-- They ask for the version. -/
  | version
  | invalid
  /-- A limit is too great. -/
  | overflow
deriving DecidableEq, Repr, Inhabited

/-- Whether an argument cannot be a value on its own. -/
def isOptionLike (arg : String) : Bool :=
  match arg.toList with
  | '-' :: _ :: _ => true
  | _ => false

/-- An argument as a long option: its name, and its value if it has one. -/
def longOption? (arg : String) : Option (String × Option String) :=
  match arg.toList with
  | '-' :: '-' :: cs =>
    let name := String.ofList (cs.takeWhile (· != '='))
    match cs.dropWhile (· != '=') with
    | _ :: value => Option.some (name, Option.some (.ofList value))
    | [] => Option.some (name, Option.none)
  | _ => Option.none

/-- Takes an option and its values off the front of the arguments. -/
def takeOption (g : Grammar) (name : String) (attached : Option String) (rest : List String) :
    Except Refusal (Given × List String) :=
  match g.options.find? (·.1 == name), attached with
  | Option.none, _ =>
    if name == "help" && attached.isNone then .error .help
    else if name == "version" && g.version && attached.isNone then .error .version
    else .error .invalid
  | Option.some (_, .none), Option.none => .ok (⟨name, []⟩, rest)
  | Option.some (_, .none), Option.some _ => .error .invalid
  | Option.some _, Option.some value => .ok (⟨name, [value]⟩, rest)
  | Option.some (_, .one), Option.none =>
    match rest with
    | value :: rest => if isOptionLike value then .error .invalid else .ok (⟨name, [value]⟩, rest)
    | [] => .error .invalid
  | Option.some (_, .some), Option.none =>
    let values := rest.takeWhile fun a => !isOptionLike a
    if values.isEmpty then .error .invalid
    else .ok (⟨name, values⟩, rest.drop values.length)

/-- Reads arguments one after the other. Each option is handed on as soon as it is read, so that the
first fault among the options and their values counts. `fuel` bounds the number of arguments. -/
def readArguments {σ : Type} (g : Grammar) (accept : σ → Given → Except Refusal σ)
    (acceptTrailing : σ → List String → σ) : Nat → σ → List String → Except Refusal σ
  | 0, _, _ => .error .invalid
  | _ + 1, s, [] => .ok s
  | fuel + 1, s, arg :: rest =>
    if arg == "--" then
      if g.trailing || rest.isEmpty then .ok (acceptTrailing s rest) else .error .invalid
    else match longOption? arg with
      | Option.some (name, attached) =>
        match takeOption g name attached rest with
        | .error e => .error e
        | .ok (given, rest) =>
          match accept s given with
          | .error e => .error e
          | .ok s => readArguments g accept acceptTrailing fuel s rest
      | Option.none =>
        match arg.toList with
        | '-' :: 'h' :: _ => .error .help
        | '-' :: 'V' :: _ => .error (if g.version then .version else .invalid)
        | _ => .error .invalid

end Postmortem.Command
