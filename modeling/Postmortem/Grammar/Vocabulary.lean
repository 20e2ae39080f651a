import Postmortem.Grammar.Rule

/-!
# Vocabularies

A vocabulary numbers the symbols of a grammar: the end of the text, the tokens, the tokens that
only the layout reader finds, the rules, and one *run* for each repeated part.

A rule whose whole body is a token used nowhere else is no rule of its own: the token takes the
rule's name.
-/

namespace Postmortem.Grammar

open Postmortem.Lexical

/-- What the tree shows of a symbol. -/
structure SymbolInfo where
  name : String
  /-- Whether the symbol has nodes in the tree. -/
  visible : Bool
  /-- Whether its nodes count as named. -/
  named : Bool
  /-- Whether the symbol stands for a repetition. -/
  isRun : Bool := false
  /-- Whether the symbol only groups others. -/
  isGroup : Bool := false
deriving BEq, Repr, Inhabited

/-- The symbols of a grammar. Symbol zero is the end of the text. -/
structure Vocabulary where
  infos : Array SymbolInfo
  /-- The number of symbols that are tokens; they come first. -/
  tokenCount : Nat
  /-- The number of symbols that a lexer finds, the end of the text included; they come first. -/
  lexemeCount : Nat
  /-- The lexemes of the symbols below `lexemeCount`, but for the end of the text. -/
  lexemes : Array Lexeme
  /-- The symbol of each name. -/
  ofName : Std.HashMap String Nat
  /-- The repeated parts; their symbols come last, in this order. -/
  runs : Array Rule
  /-- The token of which keywords are special cases. -/
  word : Nat
  /-- The tokens in the order of the grammar, those of the layout reader first. -/
  reading : Array Nat
  /-- The tokens that the layout reader finds or wants to know about. -/
  layout : Array Nat
deriving Inhabited

/-- Whether a rule of this name has no node of its own. -/
def isHidden (name : String) : Bool := name.startsWith "_"

/-- The distinct elements of a list in order of first occurrence, with their counts. -/
def tally {α : Type} [BEq α] (xs : List α) : Array (α × Nat) :=
  xs.foldl (fun acc x =>
    match acc.findIdx? (·.1 == x) with
    | some i => acc.modify i fun (y, n) => (y, n + 1)
    | none => acc.push (x, 1)) #[]

/-- The distinct elements of a list in order of first occurrence. -/
def distinct {α : Type} [BEq α] (xs : List α) : Array α := (tally xs).map (·.1)

namespace Vocabulary

/-- The symbol of a lexeme, zero if it has none. -/
def ofLexeme (v : Vocabulary) (l : Lexeme) : Nat :=
  match v.lexemes.findIdx? (· == l) with
  | some i => i + 1
  | none => 0

/-- The symbol of a repeated part, zero if it has none. -/
def ofRun (v : Vocabulary) (body : Rule) : Nat :=
  match v.runs.findIdx? (· == body) with
  | some i => v.infos.size - v.runs.size + i
  | none => 0

/-- What the tree shows of a symbol. -/
def info (v : Vocabulary) (s : Nat) : SymbolInfo := v.infos.getD s default

/-- Whether a symbol is a token. -/
def isToken (v : Vocabulary) (s : Nat) : Bool := s < v.tokenCount

/-- Whether a symbol is a token that only the layout reader finds. -/
def isLayoutOnly (v : Vocabulary) (s : Nat) : Bool := v.lexemeCount ≤ s && s < v.tokenCount

/-- The token that a rule is only a name for, if it is one. -/
def nameOnly? (counts : Array (Lexeme × Nat)) (isFirst : Bool) (name : String) (body : Rule) :
    Option Lexeme :=
  match body with
  | .token l =>
    let once := counts.any fun (l', n) => l' == l && n == 1
    if !isFirst && once && (l.literal.isNone || !isHidden name) then some l else none
  | _ => none

/-- The vocabulary of a grammar. -/
def ofGrammar (g : Grammar) : Vocabulary :=
  let counts := tally (g.rules.flatMap (·.2.tokens) ++ g.layout.flatMap Rule.tokens)
  let names : List (String × Option Lexeme) := g.rules.zipIdx.map fun ((name, body), i) =>
    (name, nameOnly? counts (i == 0) name body)
  let tokenInfo (l : Lexeme) : SymbolInfo :=
    match names.find? fun (_, l') => l' == some l, l.literal with
    | some (name, _), _ => ⟨name, !isHidden name, !isHidden name, false, false⟩
    | none, some s => ⟨s, true, false, false, false⟩
    | none, none => ⟨"", false, false, false, false⟩
  let tokens : List (Lexeme × SymbolInfo) := counts.toList.map fun (l, _) => (l, tokenInfo l)
  let (word, others) := tokens.partition fun (_, info) => info.name == g.word && info.named
  let lexed := word ++ others
  let rules := (names.filter (·.2.isNone)).map (·.1)
  let layoutNames := g.layout.filterMap fun
    | .ref name => if names.any (·.1 == name) then none else some name
    | _ => none
  let layoutInfos := layoutNames.map fun name =>
    (⟨name, !isHidden name, !isHidden name, false, false⟩ : SymbolInfo)
  let ruleInfos := rules.map fun name =>
    let hidden := isHidden name || g.groups.contains name
    (⟨name, !hidden, !hidden, false, g.groups.contains name⟩ : SymbolInfo)
  let runs := distinct (g.rules.flatMap (·.2.repeated))
  let runInfos := runs.toList.map fun _ => (⟨"", false, false, true, false⟩ : SymbolInfo)
  let infos := (⟨"end", false, false, false, false⟩ :: lexed.map (·.2) ++ layoutInfos ++ ruleInfos
    ++ runInfos).toArray
  let lexemes := (lexed.map (·.1)).toArray
  let named : List (String × Nat) := infos.toList.zipIdx.filterMap fun (info, s) =>
    if s != 0 && !info.isRun && (info.named || isHidden info.name || info.isGroup) &&
        (names.any (·.1 == info.name) || layoutNames.contains info.name)
    then some (info.name, s) else none
  let v : Vocabulary :=
    { infos, runs, lexemes
      lexemeCount := lexemes.size + 1
      tokenCount := lexemes.size + 1 + layoutNames.length
      ofName := Std.HashMap.ofList named
      word := 1
      reading := #[]
      layout := #[] }
  let symbolOf : Rule → Nat
    | .token l => v.ofLexeme l
    | .ref name => v.ofName.getD name 0
    | _ => 0
  { v with
    layout := (g.layout.map symbolOf).toArray
    reading := (List.range layoutNames.length).toArray.map (· + v.lexemeCount) ++
      counts.map fun (l, _) => v.ofLexeme l }

end Vocabulary

end Postmortem.Grammar
