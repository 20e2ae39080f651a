import Postmortem.Text.Name
import Postmortem.Grammar.Rule

/-!
# A grammar of Python

The statements, expressions and literals of Python, with the older forms that programs still hold:
`print` and `exec` as statements, `<>`, and integers that end in `L`. Soft keywords may also be
names. Newlines, indentation and the inside of strings are found by the layout reader.
-/

namespace Postmortem.Python

open Postmortem.Text Postmortem.Lexical Postmortem.Grammar Postmortem.Grammar.Rule

/-! ## Levels -/

/-- Binding strengths, from weakest to strongest. -/
def lambdaLevel : Int := -2
@[inherit_doc lambdaLevel] def typedParameterLevel : Int := -1
@[inherit_doc lambdaLevel] def conditionalLevel : Int := -1
@[inherit_doc lambdaLevel] def parenthesizedLevel : Int := 1
@[inherit_doc lambdaLevel] def orLevel : Int := 10
@[inherit_doc lambdaLevel] def andLevel : Int := 11
@[inherit_doc lambdaLevel] def notLevel : Int := 12
@[inherit_doc lambdaLevel] def compareLevel : Int := 13
@[inherit_doc lambdaLevel] def bitOrLevel : Int := 14
@[inherit_doc lambdaLevel] def bitAndLevel : Int := 15
@[inherit_doc lambdaLevel] def xorLevel : Int := 16
@[inherit_doc lambdaLevel] def shiftLevel : Int := 17
@[inherit_doc lambdaLevel] def plusLevel : Int := 18
@[inherit_doc lambdaLevel] def timesLevel : Int := 19
@[inherit_doc lambdaLevel] def unaryLevel : Int := 20
@[inherit_doc lambdaLevel] def powerLevel : Int := 21
@[inherit_doc lambdaLevel] def callLevel : Int := 22

/-! ## Parts that many rules share -/

/-- Parts with commas between and perhaps one at the end. -/
def commasOpen (r : Rule) : Rule := all [commas1 r, opt (text ",")]

/-- Parts in brackets. -/
def within (opening : String) (r : Rule) (closing : String) : Rule :=
  all [text opening, r, text closing]

/-- Two or more of a part in a list without brackets; one part counts if a comma follows it. -/
def openList (r : Rule) : Rule :=
  seq r (alt (text ",") (all [many1 (seq (text ",") r), opt (text ",")]))

/-- A token of this pattern. -/
def pattern (p : Pattern) : Rule := token (.ofPattern p)

/-! ## Literals -/

/-- Decimal digits, with an underscore allowed after each group. -/
def digits : Pattern :=
  .many1 (.seq (.many1 (.range [('0', '9')])) (.opt (.text "_")))

/-- An integer with a base mark, the groups of its digits perhaps introduced by underscores. -/
def basedInteger (marks : List String) (digit : Pattern) : Pattern :=
  .all [.any (marks.map .text), .many1 (.seq (.opt (.text "_")) (.many1 digit)),
    .opt (.oneOf "Ll")]

/-- Integers of all bases, long and imaginary ones included. -/
def integerPattern : Pattern :=
  .any [
    basedInteger ["0x", "0X"] (.range [('0', '9'), ('A', 'F'), ('a', 'f')]),
    basedInteger ["0o", "0O"] (.range [('0', '7')]),
    basedInteger ["0b", "0B"] (.range [('0', '1')]),
    .seq digits (.alt (.opt (.oneOf "Ll")) (.opt (.oneOf "Jj")))]

/-- Numbers with a point or an exponent. -/
def floatPattern : Pattern :=
  let exponent := .all [.oneOf "Ee", .opt (.oneOf "+-"), digits]
  .seq
    (.any [
      .all [digits, .text ".", .opt digits, .opt exponent],
      .all [.opt digits, .text ".", digits, .opt exponent],
      .seq digits exponent])
    (.opt (.oneOf "Jj"))

/-- What a backslash introduces within a string. -/
def escapePattern : Pattern :=
  let hex := .range [('0', '9'), ('A', 'F'), ('a', 'f')]
  let digit := .range [('0', '9')]
  .seq (.text "\\") (.any [
    .seq (.text "u") (.times 4 hex),
    .seq (.text "U") (.times 8 hex),
    .seq (.text "x") (.times 2 hex),
    .all [digit, .opt digit, .opt digit],
    .seq (.opt (.text "\r")) (.text "\n"),
    .oneOf "\"'\\abfnrtv",
    .all [.text "N\x7b", .many1 (.noneOf "\x7d"), .text "\x7d"]])

/-! ## The rules -/

/-- Statements that fit on a line. -/
def simpleStatements : List (String × Rule) := [
  ("_simple_statements", all [
    sepBy1 (ref "_simple_statement") (text ";"), opt (text ";"), ref "_newline"]),
  ("_simple_statement", any [
    ref "future_import_statement", ref "import_statement", ref "import_from_statement",
    ref "print_statement", ref "assert_statement", ref "expression_statement",
    ref "return_statement", ref "delete_statement", ref "raise_statement", ref "pass_statement",
    ref "break_statement", ref "continue_statement", ref "global_statement",
    ref "nonlocal_statement", ref "exec_statement", ref "type_alias_statement"]),
  ("import_statement", all [text "import", ref "_import_list"]),
  ("import_prefix", many1 (text ".")),
  ("relative_import", all [ref "import_prefix", opt (ref "dotted_name")]),
  ("future_import_statement", all [
    text "from", text "__future__", text "import",
    alt (ref "_import_list") (within "(" (ref "_import_list") ")")]),
  ("import_from_statement", all [
    text "from", role "module_name" (alt (ref "relative_import") (ref "dotted_name")),
    text "import",
    any [ref "wildcard_import", ref "_import_list", within "(" (ref "_import_list") ")"]]),
  ("_import_list", commasOpen (role "name" (alt (ref "dotted_name") (ref "aliased_import")))),
  ("aliased_import", all [
    role "name" (ref "dotted_name"), text "as", role "alias" (ref "identifier")]),
  ("wildcard_import", text "*"),
  ("print_statement", alt
    (at_ 1 (all [
      text "print", ref "chevron", many (seq (text ",") (role "argument" (ref "expression"))),
      opt (text ",")]))
    (at_ (-3) (weighted (-1) (all [
      text "print", commas1 (role "argument" (ref "expression")), opt (text ",")])))),
  ("chevron", all [text ">>", ref "expression"]),
  ("assert_statement", all [text "assert", commas1 (ref "expression")]),
  ("expression_statement", any [
    ref "expression", commasOpen (ref "expression"), ref "assignment",
    ref "augmented_assignment", ref "yield"]),
  ("named_expression", all [
    role "name" (ref "_named_expression_lhs"), text ":=", role "value" (ref "expression")]),
  ("_named_expression_lhs", alt (ref "identifier") (ref "keyword_identifier")),
  ("return_statement", all [text "return", opt (ref "_expressions")]),
  ("delete_statement", all [text "del", ref "_expressions"]),
  ("_expressions", alt (ref "expression") (ref "expression_list")),
  ("raise_statement", all [
    text "raise", opt (ref "_expressions"),
    opt (all [text "from", role "cause" (ref "expression")])]),
  ("pass_statement", leftAt 0 (text "pass")),
  ("break_statement", leftAt 0 (text "break")),
  ("continue_statement", leftAt 0 (text "continue"))]

/-- Statements that hold others. -/
def compoundStatements : List (String × Rule) := [
  ("_compound_statement", any [
    ref "if_statement", ref "for_statement", ref "while_statement", ref "try_statement",
    ref "with_statement", ref "function_definition", ref "class_definition",
    ref "decorated_definition", ref "match_statement"]),
  ("if_statement", all [
    text "if", role "condition" (ref "expression"), text ":", role "consequence" (ref "_suite"),
    many (role "alternative" (ref "elif_clause")),
    opt (role "alternative" (ref "else_clause"))]),
  ("elif_clause", all [
    text "elif", role "condition" (ref "expression"), text ":",
    role "consequence" (ref "_suite")]),
  ("else_clause", all [text "else", text ":", role "body" (ref "_suite")]),
  ("match_statement", all [
    text "match", commas1 (role "subject" (ref "expression")), opt (text ","), text ":",
    role "body" ((ref "_match_block").as "block")]),
  ("_match_block", alt
    (all [ref "_indent", many (role "alternative" (ref "case_clause")), ref "_dedent"])
    (ref "_newline")),
  ("case_clause", all [
    text "case", commas1 (ref "case_pattern"), opt (text ","),
    opt (role "guard" (ref "if_clause")), text ":", role "consequence" (ref "_suite")]),
  ("for_statement", all [
    opt (text "async"), text "for", role "left" (ref "_left_hand_side"), text "in",
    role "right" (ref "_expressions"), text ":", role "body" (ref "_suite"),
    role "alternative" (opt (ref "else_clause"))]),
  ("while_statement", all [
    text "while", role "condition" (ref "expression"), text ":", role "body" (ref "_suite"),
    opt (role "alternative" (ref "else_clause"))]),
  ("try_statement", all [
    text "try", text ":", role "body" (ref "_suite"),
    any [
      all [many1 (ref "except_clause"), opt (ref "else_clause"), opt (ref "finally_clause")],
      all [many1 (ref "except_group_clause"), opt (ref "else_clause"),
        opt (ref "finally_clause")],
      ref "finally_clause"]]),
  ("except_clause", all [
    text "except",
    opt (seq (role "value" (ref "expression"))
      (opt (seq (alt (text "as") (text ",")) (role "alias" (ref "expression"))))),
    text ":", ref "_suite"]),
  ("except_group_clause", all [
    text "except*", seq (ref "expression") (opt (seq (text "as") (ref "expression"))),
    text ":", ref "_suite"]),
  ("finally_clause", all [text "finally", text ":", ref "_suite"]),
  ("with_statement", all [
    opt (text "async"), text "with", ref "with_clause", text ":", role "body" (ref "_suite")]),
  ("with_clause", alt (commasOpen (ref "with_item"))
    (all [text "(", commas1 (ref "with_item"), opt (text ","), text ")"])),
  ("with_item", weighted 1 (role "value" (ref "expression"))),
  ("function_definition", all [
    opt (text "async"), text "def", role "name" (ref "identifier"),
    role "type_parameters" (opt (ref "type_parameter")), role "parameters" (ref "parameters"),
    opt (seq (text "->") (role "return_type" (ref "type"))), text ":",
    role "body" (ref "_suite")]),
  ("parameters", within "(" (opt (ref "_parameters")) ")"),
  ("lambda_parameters", ref "_parameters"),
  ("list_splat", seq (text "*") (ref "expression")),
  ("dictionary_splat", seq (text "**") (ref "expression")),
  ("global_statement", seq (text "global") (commas1 (ref "identifier"))),
  ("nonlocal_statement", seq (text "nonlocal") (commas1 (ref "identifier"))),
  ("exec_statement", all [
    text "exec", role "code" (alt (ref "string") (ref "identifier")),
    opt (seq (text "in") (commas1 (ref "expression")))]),
  ("type_alias_statement", weighted 1 (all [
    text "type", role "left" (ref "type"), text "=", role "right" (ref "type")])),
  ("class_definition", all [
    text "class", role "name" (ref "identifier"),
    role "type_parameters" (opt (ref "type_parameter")),
    role "superclasses" (opt (ref "argument_list")), text ":", role "body" (ref "_suite")]),
  ("type_parameter", within "[" (commasOpen (ref "type")) "]"),
  ("parenthesized_list_splat", at_ parenthesizedLevel (within "("
    (alt ((ref "parenthesized_list_splat").as "parenthesized_expression") (ref "list_splat"))
    ")")),
  ("argument_list", all [
    text "(",
    opt (commas1 (any [
      ref "expression", ref "list_splat", ref "dictionary_splat",
      (ref "parenthesized_list_splat").as "parenthesized_expression", ref "keyword_argument"])),
    opt (text ","), text ")"]),
  ("decorated_definition", all [
    many1 (ref "decorator"),
    role "definition" (alt (ref "class_definition") (ref "function_definition"))]),
  ("decorator", all [text "@", ref "expression", ref "_newline"]),
  ("_suite", any [
    (ref "_simple_statements").as "block", seq (ref "_indent") (ref "block"),
    (ref "_newline").as "block"]),
  ("block", seq (many (ref "_statement")) (ref "_dedent")),
  ("expression_list", rightAt 0 (openList (ref "expression"))),
  ("dotted_name", at_ 1 (sepBy1 (ref "identifier") (text ".")))]

/-- Patterns of `match` statements. -/
def casePatterns : List (String × Rule) := [
  ("case_pattern", at_ 1 (any [
    (ref "_as_pattern").as "as_pattern", ref "keyword_pattern", ref "_simple_pattern"])),
  ("_simple_pattern", at_ 1 (any [
    ref "class_pattern", ref "splat_pattern", ref "union_pattern",
    (ref "_list_pattern").as "list_pattern", (ref "_tuple_pattern").as "tuple_pattern",
    ref "dict_pattern", ref "string", ref "concatenated_string", ref "true", ref "false",
    ref "none", seq (opt (text "-")) (alt (ref "integer") (ref "float")),
    ref "complex_pattern", ref "dotted_name", text "_"])),
  ("_as_pattern", all [ref "case_pattern", text "as", ref "identifier"]),
  ("union_pattern", rightAt 0 (seq (ref "_simple_pattern")
    (many1 (leftAt 0 (seq (text "|") (ref "_simple_pattern")))))),
  ("_list_pattern", within "[" (opt (commasOpen (ref "case_pattern"))) "]"),
  ("_tuple_pattern", within "(" (opt (commasOpen (ref "case_pattern"))) ")"),
  ("dict_pattern", within "\x7b"
    (opt (commasOpen (alt (ref "_key_value_pattern") (ref "splat_pattern")))) "\x7d"),
  ("_key_value_pattern", all [
    role "key" (ref "_simple_pattern"), text ":", role "value" (ref "case_pattern")]),
  ("keyword_pattern", all [ref "identifier", text "=", ref "_simple_pattern"]),
  ("splat_pattern", at_ 1 (seq (alt (text "*") (text "**")) (alt (ref "identifier") (text "_")))),
  ("class_pattern", all [
    ref "dotted_name", text "(", opt (commasOpen (ref "case_pattern")), text ")"]),
  ("complex_pattern", at_ 1 (all [
    opt (text "-"), alt (ref "integer") (ref "float"), alt (text "+") (text "-"),
    alt (ref "integer") (ref "float")]))]

/-- Parameters and targets of assignments. -/
def bindings : List (String × Rule) := [
  ("_parameters", commasOpen (ref "parameter")),
  ("_patterns", commasOpen (ref "pattern")),
  ("parameter", any [
    ref "identifier", ref "typed_parameter", ref "default_parameter",
    ref "typed_default_parameter", ref "list_splat_pattern", ref "tuple_pattern",
    ref "keyword_separator", ref "positional_separator", ref "dictionary_splat_pattern"]),
  ("pattern", any [
    ref "identifier", ref "keyword_identifier", ref "subscript", ref "attribute",
    ref "list_splat_pattern", ref "tuple_pattern", ref "list_pattern"]),
  ("tuple_pattern", within "(" (opt (ref "_patterns")) ")"),
  ("list_pattern", within "[" (opt (ref "_patterns")) "]"),
  ("default_parameter", all [
    role "name" (alt (ref "identifier") (ref "tuple_pattern")), text "=",
    role "value" (ref "expression")]),
  ("typed_default_parameter", at_ typedParameterLevel (all [
    role "name" (ref "identifier"), text ":", role "type" (ref "type"), text "=",
    role "value" (ref "expression")])),
  ("list_splat_pattern", seq (text "*") (any [
    ref "identifier", ref "keyword_identifier", ref "subscript", ref "attribute"])),
  ("dictionary_splat_pattern", seq (text "**") (any [
    ref "identifier", ref "keyword_identifier", ref "subscript", ref "attribute"])),
  ("as_pattern", leftAt 0 (all [
    ref "expression", text "as", role "alias" ((ref "expression").as "as_pattern_target")]))]

/-- One operator between two primary expressions. -/
def binary (side : Side) (level : Int) (operator : String) : Rule :=
  ranked level (some side) (all [
    role "left" (ref "primary_expression"), role "operator" (text operator),
    role "right" (ref "primary_expression")])

/-- One of the connectives between two expressions. -/
def connective (level : Int) (operator : String) : Rule :=
  leftAt level (all [
    role "left" (ref "expression"), role "operator" (text operator),
    role "right" (ref "expression")])

/-- Expressions. -/
def expressions : List (String × Rule) := [
  ("_expression_within_for_in_clause", alt (ref "expression")
    ((ref "lambda_within_for_in_clause").as "lambda")),
  ("expression", any [
    ref "comparison_operator", ref "not_operator", ref "boolean_operator", ref "lambda",
    ref "primary_expression", ref "conditional_expression", ref "named_expression",
    ref "as_pattern"]),
  ("primary_expression", any [
    ref "await", ref "binary_operator", ref "identifier", ref "keyword_identifier",
    ref "string", ref "concatenated_string", ref "integer", ref "float", ref "true",
    ref "false", ref "none", ref "unary_operator", ref "attribute", ref "subscript",
    ref "call", ref "list", ref "list_comprehension", ref "dictionary",
    ref "dictionary_comprehension", ref "set", ref "set_comprehension", ref "tuple",
    ref "parenthesized_expression", ref "generator_expression", ref "ellipsis",
    (ref "list_splat_pattern").as "list_splat"]),
  ("not_operator", at_ notLevel (seq (text "not") (role "argument" (ref "expression")))),
  ("boolean_operator", alt (connective andLevel "and") (connective orLevel "or")),
  ("binary_operator", any [
    binary .left plusLevel "+", binary .left plusLevel "-", binary .left timesLevel "*",
    binary .left timesLevel "@", binary .left timesLevel "/", binary .left timesLevel "%",
    binary .left timesLevel "//", binary .right powerLevel "**", binary .left bitOrLevel "|",
    binary .left bitAndLevel "&", binary .left xorLevel "^", binary .left shiftLevel "<<",
    binary .left shiftLevel ">>"]),
  ("unary_operator", at_ unaryLevel (seq
    (role "operator" (any [text "+", text "-", text "~"]))
    (role "argument" (ref "primary_expression")))),
  ("_not_in", seq (text "not") (text "in")),
  ("_is_not", seq (text "is") (text "not")),
  ("comparison_operator", leftAt compareLevel (seq (ref "primary_expression") (many1 (seq
    (role "operators" (any [
      text "<", text "<=", text "==", text "!=", text ">=", text ">", text "<>", text "in",
      renamed ⟨"not in", false⟩ (ref "_not_in"), text "is",
      renamed ⟨"is not", false⟩ (ref "_is_not")]))
    (ref "primary_expression"))))),
  ("lambda", at_ lambdaLevel (all [
    text "lambda", role "parameters" (opt (ref "lambda_parameters")), text ":",
    role "body" (ref "expression")])),
  ("lambda_within_for_in_clause", all [
    text "lambda", role "parameters" (opt (ref "lambda_parameters")), text ":",
    role "body" (ref "_expression_within_for_in_clause")]),
  ("assignment", seq (role "left" (ref "_left_hand_side")) (any [
    seq (text "=") (role "right" (ref "_right_hand_side")),
    seq (text ":") (role "type" (ref "type")),
    all [text ":", role "type" (ref "type"), text "=", role "right" (ref "_right_hand_side")]])),
  ("augmented_assignment", all [
    role "left" (ref "_left_hand_side"),
    role "operator" (any [
      text "+=", text "-=", text "*=", text "/=", text "@=", text "//=", text "%=", text "**=",
      text ">>=", text "<<=", text "&=", text "^=", text "|="]),
    role "right" (ref "_right_hand_side")]),
  ("_left_hand_side", alt (ref "pattern") (ref "pattern_list")),
  ("pattern_list", openList (ref "pattern")),
  ("_right_hand_side", any [
    ref "expression", ref "expression_list", ref "assignment", ref "augmented_assignment",
    ref "pattern_list", ref "yield"]),
  ("yield", rightAt 0 (seq (text "yield")
    (alt (seq (text "from") (ref "expression")) (opt (ref "_expressions"))))),
  ("attribute", at_ callLevel (all [
    role "object" (ref "primary_expression"), text ".", role "attribute" (ref "identifier")])),
  ("subscript", at_ callLevel (all [
    role "value" (ref "primary_expression"), text "[",
    commas1 (role "subscript" (alt (ref "expression") (ref "slice"))), opt (text ","),
    text "]"])),
  ("slice", all [
    opt (ref "expression"), text ":", opt (ref "expression"),
    opt (seq (text ":") (opt (ref "expression")))]),
  ("ellipsis", text "..."),
  ("call", at_ callLevel (seq (role "function" (ref "primary_expression"))
    (role "arguments" (alt (ref "generator_expression") (ref "argument_list"))))),
  ("typed_parameter", at_ typedParameterLevel (all [
    any [ref "identifier", ref "list_splat_pattern", ref "dictionary_splat_pattern"],
    text ":", role "type" (ref "type")])),
  ("type", any [
    at_ 1 (ref "expression"), ref "splat_type", ref "generic_type", ref "union_type",
    ref "constrained_type", ref "member_type"]),
  ("splat_type", at_ 1 (seq (alt (text "*") (text "**")) (ref "identifier"))),
  ("generic_type", at_ 1 (seq (alt (ref "identifier") ((text "type").as "identifier"))
    (ref "type_parameter"))),
  ("union_type", leftAt 0 (all [ref "type", text "|", ref "type"])),
  ("constrained_type", rightAt 0 (all [ref "type", text ":", ref "type"])),
  ("member_type", all [ref "type", text ".", ref "identifier"]),
  ("keyword_argument", all [
    role "name" (alt (ref "identifier") (ref "keyword_identifier")), text "=",
    role "value" (ref "expression")])]

/-- Collections and comprehensions. -/
def collections : List (String × Rule) := [
  ("list", within "[" (opt (ref "_collection_elements")) "]"),
  ("set", within "\x7b" (ref "_collection_elements") "\x7d"),
  ("tuple", within "(" (opt (ref "_collection_elements")) ")"),
  ("dictionary", all [
    text "\x7b", opt (commas1 (alt (ref "pair") (ref "dictionary_splat"))), opt (text ","),
    text "\x7d"]),
  ("pair", all [role "key" (ref "expression"), text ":", role "value" (ref "expression")]),
  ("list_comprehension", all [
    text "[", role "body" (ref "expression"), ref "_comprehension_clauses", text "]"]),
  ("dictionary_comprehension", all [
    text "\x7b", role "body" (ref "pair"), ref "_comprehension_clauses", text "\x7d"]),
  ("set_comprehension", all [
    text "\x7b", role "body" (ref "expression"), ref "_comprehension_clauses", text "\x7d"]),
  ("generator_expression", all [
    text "(", role "body" (ref "expression"), ref "_comprehension_clauses", text ")"]),
  ("_comprehension_clauses", seq (ref "for_in_clause")
    (many (alt (ref "for_in_clause") (ref "if_clause")))),
  ("parenthesized_expression", at_ parenthesizedLevel
    (within "(" (alt (ref "expression") (ref "yield")) ")")),
  ("_collection_elements", commasOpen (any [
    ref "expression", ref "yield", ref "list_splat", ref "parenthesized_list_splat"])),
  ("for_in_clause", leftAt 0 (all [
    opt (text "async"), text "for", role "left" (ref "_left_hand_side"), text "in",
    role "right" (commas1 (ref "_expression_within_for_in_clause")), opt (text ",")])),
  ("if_clause", seq (text "if") (ref "expression")),
  ("conditional_expression", rightAt conditionalLevel (all [
    ref "expression", text "if", ref "expression", text "else", ref "expression"]))]

/-- Strings, numbers, names and comments. -/
def literals : List (String × Rule) := [
  ("concatenated_string", seq (ref "string") (many1 (ref "string"))),
  ("string", all [
    ref "string_start", many (alt (ref "interpolation") (ref "string_content")),
    ref "string_end"]),
  ("string_content", rightAt 0 (many1 (any [
    ref "escape_interpolation", ref "escape_sequence", ref "_not_escape_sequence",
    ref "_string_content"]))),
  ("interpolation", all [
    text "\x7b", role "expression" (ref "_f_expression"), opt (text "="),
    opt (role "type_conversion" (ref "type_conversion")),
    opt (role "format_specifier" (ref "format_specifier")), text "\x7d"]),
  ("_f_expression", any [
    ref "expression", ref "expression_list", ref "pattern_list", ref "yield"]),
  ("escape_sequence", token ⟨escapePattern, none, true, 1⟩),
  ("_not_escape_sequence", token ⟨.text "\\", some "\\", true, 0⟩),
  ("format_specifier", seq (text ":") (many (alt
    (token ⟨.many1 (.noneOf "\n\x7b\x7d"), none, false, 1⟩)
    ((ref "interpolation").as "format_expression")))),
  ("type_conversion", pattern (.seq (.text "!") (.range [('a', 'z')]))),
  ("integer", pattern integerPattern),
  ("float", pattern floatPattern),
  ("identifier", pattern (.seq (.char nameStart) (.many (.char nameContinue)))),
  ("keyword_identifier", alt
    (at_ (-3) ((any [text "print", text "exec", text "async", text "await"]).as "identifier"))
    ((alt (text "type") (text "match")).as "identifier")),
  ("true", text "True"),
  ("false", text "False"),
  ("none", text "None"),
  ("await", at_ unaryLevel (seq (text "await") (ref "primary_expression"))),
  ("comment", pattern (.seq (.text "#") (.many (.noneOf "\n")))),
  ("line_continuation", pattern (.seq (.text "\\")
    (.alt (.seq (.opt (.text "\r")) (.text "\n")) (.text "\x00")))),
  ("positional_separator", text "/"),
  ("keyword_separator", text "*")]

/-- The grammar of Python. -/
def grammar : Grammar where
  rules :=
    ("module", many (ref "_statement")) ::
    ("_statement", alt (ref "_simple_statements") (ref "_compound_statement")) ::
    simpleStatements ++ compoundStatements ++ casePatterns ++ bindings ++ expressions ++
      collections ++ literals
  blanks := .ofRanges [('\t', '\r'), (' ', ' '), ('\u200b', '\u200b'), ('\u2060', '\u2060'),
    ('\ufeff', '\ufeff')]
  extras := ["comment", "line_continuation"]
  layout := [
    ref "_newline", ref "_indent", ref "_dedent", ref "string_start", ref "_string_content",
    ref "escape_interpolation", ref "string_end", ref "comment", text "]", text ")",
    text "\x7d", text "except"]
  inlined := ["_simple_statement", "_compound_statement", "_suite", "_expressions",
    "_left_hand_side", "keyword_identifier"]
  groups := ["_simple_statement", "_compound_statement", "expression", "primary_expression",
    "pattern", "parameter"]
  word := "identifier"

end Postmortem.Python
