import CodeIndex.Parsing.Grammar

/-! The grammar of JavaScript with JSX and decorators.  It is a little wider than the language: it
lets a declaration stand without its name or body where the meaning stays clear, and does not look
at scopes. -/

namespace CodeIndex.JavaScript

open CodeIndex.Parsing CodeIndex.Parsing.Rule

instance : Coe String Rule := ⟨.sym⟩

/-- Binds like the named operator. -/
def at_ (name : String) (r : Rule) : Rule := .prec (.named name) none r

/-- Binds like the named operator and groups to the left. -/
def leftAt (name : String) (r : Rule) : Rule := .prec (.named name) (some .left) r

/-- Binds like the named operator and groups to the right. -/
def rightAt (name : String) (r : Rule) : Rule := .prec (.named name) (some .right) r

/-- Groups to the left. -/
def groupLeft (r : Rule) : Rule := .prec .plain (some .left) r

/-- Groups to the right: takes in as much as it can. -/
def groupRight (r : Rule) : Rule := .prec .plain (some .right) r

/-- The decorators before a declaration. -/
def decorators : Rule := .many "_decorators" "decorator"

def moduleRules : List (String × Rule) := [
  ("program", .choice [
    "hash_bang_line",
    .seq ["hash_bang_line", "_statements"],
    "_statements"]),
  ("_statements", .choice ["statement", .seq ["_statements", "statement"]]),
  ("export_statement", .choice [
    .seq [
      "export",
      .choice [
        .seq ["*", "_from_clause"],
        .seq ["namespace_export", "_from_clause"],
        .seq ["export_clause", "_from_clause"],
        "export_clause"],
      "_semicolon"],
    .seq [
      decorators,
      "export",
      .choice [
        "declaration",
        .seq ["default", .choice ["declaration", .seq ["expression", "_semicolon"]]]]]]),
  ("namespace_export", .seq ["*", "as", "_module_export_name"]),
  ("export_clause", .seq [
    "\x7b", commaSep "_export_specifiers" "export_specifier", optional ",", "\x7d"]),
  ("export_specifier", .seq [
    "_module_export_name", optional (.seq ["as", "_module_export_name"])]),
  ("_module_export_name", oneOf ["identifier", "string", "default"]),
  ("declaration", oneOf [
    "function_declaration", "generator_function_declaration", "class_declaration",
    "lexical_declaration", "variable_declaration"]),
  ("import_keyword", "import"),
  ("import_statement", .seq [
    "import",
    .choice [.seq ["import_clause", "_from_clause"], "string"],
    optional "import_attribute",
    "_semicolon"]),
  ("import_clause", .choice [
    "namespace_import",
    "named_imports",
    .seq ["identifier", optional (.seq [",", oneOf ["namespace_import", "named_imports"]])]]),
  ("_from_clause", .seq ["from", "string"]),
  ("namespace_import", .seq ["*", "as", "identifier"]),
  ("named_imports", .seq [
    "\x7b", commaSep "_import_specifiers" "import_specifier", optional ",", "\x7d"]),
  ("import_specifier", .choice [
    "identifier", .seq ["_module_export_name", "as", "identifier"]]),
  ("import_attribute", .seq ["with", "object"])]

def statementRules : List (String × Rule) := [
  ("statement", oneOf [
    "export_statement", "import_statement", "debugger_statement", "expression_statement",
    "declaration", "statement_block", "if_statement", "switch_statement", "for_statement",
    "for_in_statement", "while_statement", "do_statement", "try_statement", "with_statement",
    "break_statement", "continue_statement", "return_statement", "throw_statement",
    "empty_statement", "labeled_statement"]),
  ("expression_statement", .seq ["_expressions", "_semicolon"]),
  ("variable_declaration", .seq [
    "var", commaSep1 "_declarators" "variable_declarator", "_semicolon"]),
  ("lexical_declaration", .seq [
    oneOf ["let", "const"], commaSep1 "_declarators" "variable_declarator", "_semicolon"]),
  ("variable_declarator", .seq [
    oneOf ["identifier", "of", "_destructuring_pattern"], optional "_initializer"]),
  ("statement_block", groupRight (.seq [
    "\x7b", optional "_statements", "\x7d", optional "automatic_semicolon"])),
  ("else_clause", .seq ["else", "statement"]),
  ("if_statement", groupRight (.seq [
    "if", "parenthesized_expression", "statement", optional "else_clause"])),
  ("switch_statement", .seq ["switch", "parenthesized_expression", "switch_body"]),
  ("for_statement", .seq [
    "for",
    "(",
    .choice [
      oneOf ["lexical_declaration", "variable_declaration"],
      .seq ["_expressions", ";"],
      "empty_statement"],
    .choice [.seq ["_expressions", ";"], "empty_statement"],
    optional "_expressions",
    ")",
    "statement"]),
  ("for_in_statement", .seq ["for", optional "await", "_for_header", "statement"]),
  ("_for_header", .seq [
    "(",
    .choice [
      oneOf ["_lhs_expression", "parenthesized_expression"],
      .seq ["var", oneOf ["identifier", "_destructuring_pattern"], optional "_initializer"],
      .seq [
        oneOf ["let", "const"],
        oneOf ["identifier", "_destructuring_pattern"],
        optional "automatic_semicolon"]],
    oneOf ["in", "of"],
    "_expressions",
    ")"]),
  ("while_statement", .seq ["while", "parenthesized_expression", "statement"]),
  ("do_statement", groupRight (.seq [
    "do", "statement", "while", "parenthesized_expression", optional "_semicolon"])),
  ("try_statement", .seq [
    "try", "statement_block", optional "catch_clause", optional "finally_clause"]),
  ("with_statement", .seq ["with", "parenthesized_expression", "statement"]),
  ("break_statement", .seq ["break", optional "identifier", "_semicolon"]),
  ("continue_statement", .seq ["continue", optional "identifier", "_semicolon"]),
  ("debugger_statement", .seq ["debugger", "_semicolon"]),
  ("return_statement", .seq ["return", optional "_expressions", "_semicolon"]),
  ("throw_statement", .seq ["throw", "_expressions", "_semicolon"]),
  ("empty_statement", ";"),
  ("labeled_statement", .dynamic (-1) (.seq [
    oneOf ["identifier", "_reserved_identifier"], ":", "statement"])),
  ("switch_body", .seq [
    "\x7b", .many "_switch_cases" (oneOf ["switch_case", "switch_default"]), "\x7d"]),
  ("switch_case", .seq ["case", "_expressions", ":", optional "_statements"]),
  ("switch_default", .seq ["default", ":", optional "_statements"]),
  ("catch_clause", .seq [
    "catch",
    optional (.seq ["(", oneOf ["identifier", "_destructuring_pattern"], ")"]),
    "statement_block"]),
  ("finally_clause", .seq ["finally", "statement_block"]),
  ("parenthesized_expression", .seq ["(", "_expressions", ")"])]

def expressionRules : List (String × Rule) := [
  ("_expressions", oneOf ["expression", "sequence_expression"]),
  ("expression", oneOf [
    "primary_expression", "_jsx_element", "assignment_expression",
    "augmented_assignment_expression", "await_expression", "unary_expression",
    "binary_expression", "ternary_expression", "update_expression", "new_expression",
    "yield_expression"]),
  ("primary_expression", oneOf [
    "subscript_expression", "member_expression", "parenthesized_expression", "_identifier",
    "_reserved_identifier", "this", "super", "number", "string", "template_string", "regex",
    "true", "false", "null", "object", "array", "function_expression", "arrow_function",
    "generator_function", "class_expression", "meta_property", "call_expression"]),
  ("yield_expression", groupRight (.seq [
    "yield", .choice [.seq ["*", "expression"], optional "expression"]])),
  ("object", at_ "object" (.seq [
    "\x7b",
    commaSep "_object_members" (optional (oneOf [
      "pair", "spread_element", "method_definition", "identifier", "_reserved_identifier"])),
    "\x7d"])),
  ("object_pattern", at_ "object" (.seq [
    "\x7b",
    commaSep "_object_pattern_members" (optional (oneOf [
      "pair_pattern", "rest_pattern", "object_assignment_pattern", "identifier",
      "_reserved_identifier"])),
    "\x7d"])),
  ("assignment_pattern", .seq ["pattern", "=", "expression"]),
  ("object_assignment_pattern", .seq [
    oneOf ["_reserved_identifier", "identifier", "_destructuring_pattern"], "=", "expression"]),
  ("array", .seq [
    "[", commaSep "_array_items" (optional (oneOf ["expression", "spread_element"])), "]"]),
  ("array_pattern", .seq [
    "[", commaSep "_array_pattern_items" (optional (oneOf ["pattern", "assignment_pattern"])),
    "]"]),
  ("optional_chain", "?."),
  ("call_expression", .choice [
    at_ "call" (.seq [oneOf ["expression", "import_keyword"], "arguments"]),
    at_ "template_call" (.seq [oneOf ["primary_expression", "new_expression"], "template_string"]),
    at_ "member" (.seq ["primary_expression", "optional_chain", "arguments"])]),
  ("new_expression", rightAt "new" (.seq [
    "new", oneOf ["primary_expression", "new_expression"],
    optional (.dynamic 1 "arguments")])),
  ("await_expression", at_ "unary_void" (.seq ["await", "expression"])),
  ("member_expression", at_ "member" (.seq [
    oneOf ["expression", "primary_expression", "import_keyword"],
    oneOf [".", "optional_chain"],
    .choice ["private_property_identifier", .unreserved "identifier"]])),
  ("subscript_expression", rightAt "member" (.seq [
    oneOf ["expression", "primary_expression"], optional "optional_chain",
    "[", "_expressions", "]"])),
  ("_lhs_expression", oneOf [
    "member_expression", "subscript_expression", "_identifier", "_reserved_identifier",
    "_destructuring_pattern"]),
  ("assignment_expression", rightAt "assign" (.seq [
    optional "using", oneOf ["parenthesized_expression", "_lhs_expression"], "=", "expression"])),
  ("_augmented_assignment_lhs", oneOf [
    "member_expression", "subscript_expression", "_reserved_identifier", "identifier",
    "parenthesized_expression"]),
  ("augmented_assignment_expression", rightAt "assign" (.seq [
    "_augmented_assignment_lhs",
    oneOf [
      "+=", "-=", "*=", "/=", "%=", "^=", "&=", "|=", ">>=", ">>>=", "<<=", "**=", "&&=", "||=",
      "??="],
    "expression"])),
  ("_initializer", .seq ["=", "expression"]),
  ("_destructuring_pattern", oneOf ["object_pattern", "array_pattern"]),
  ("spread_element", .seq ["...", "expression"]),
  ("ternary_expression", rightAt "ternary" (.seq [
    "expression", "ternary_qmark", "expression", ":", "expression"])),
  ("binary_expression", .choice (
    ([("&&", "logical_and"), ("||", "logical_or"), (">>", "binary_shift"),
      (">>>", "binary_shift"), ("<<", "binary_shift"), ("&", "bitwise_and"),
      ("^", "bitwise_xor"), ("|", "bitwise_or"), ("+", "binary_plus"), ("-", "binary_plus"),
      ("*", "binary_times"), ("/", "binary_times"), ("%", "binary_times"),
      ("<", "binary_relation"), ("<=", "binary_relation"), ("==", "binary_equality"),
      ("===", "binary_equality"), ("!=", "binary_equality"), ("!==", "binary_equality"),
      (">=", "binary_relation"), (">", "binary_relation"), ("??", "ternary"),
      ("instanceof", "binary_relation")].map fun (operator, precedence) =>
        leftAt precedence (.seq ["expression", .sym operator, "expression"])) ++ [
    rightAt "binary_exp" (.seq ["expression", "**", "expression"]),
    leftAt "binary_relation" (.seq [
      oneOf ["expression", "private_property_identifier"], "in", "expression"])])),
  ("unary_expression", leftAt "unary_void" (.seq [
    oneOf ["!", "~", "-", "+", "typeof", "void", "delete"], "expression"])),
  ("update_expression", groupLeft (.choice [
    .seq ["expression", oneOf ["++", "--"]],
    .seq [oneOf ["++", "--"], "expression"]])),
  ("sequence_expression", groupRight (commaSep1 "_sequence" "expression"))]

def literalRules : List (String × Rule) := [
  ("string", .choice [
    .seq ["\"", .many "_double_quoted" (oneOf ["double_fragment", "escape_sequence"]), "\""],
    .seq ["'", .many "_single_quoted" (oneOf ["single_fragment", "escape_sequence"]), "'"]]),
  ("template_string", .seq [
    "`",
    .many "_template_parts" (oneOf ["template_chars", "escape_sequence", "template_substitution"]),
    "`"]),
  ("template_substitution", .seq ["$\x7b", "_expressions", "\x7d"]),
  ("regex", .seq ["/", "regex_pattern", "regex_end", optional "regex_flags"]),
  ("_identifier", oneOf ["undefined", "identifier"]),
  ("meta_property", .choice [.seq ["new", ".", "target"], .seq ["import", ".", "meta"]]),
  ("arguments", .seq [
    "(", commaSep "_arguments" (optional (oneOf ["expression", "spread_element"])), ")"])]

def jsxRules : List (String × Rule) := [
  ("_jsx_element", oneOf ["jsx_element", "jsx_self_closing_element"]),
  ("jsx_element", .seq [
    "jsx_opening_element", .many "_jsx_children" "_jsx_child", "jsx_closing_element"]),
  ("jsx_expression", .seq [
    "\x7b", optional (oneOf ["expression", "sequence_expression", "spread_element"]), "\x7d"]),
  ("_jsx_child", oneOf [
    "jsx_text", "html_character_reference", "_jsx_element", "jsx_expression"]),
  ("jsx_opening_element", .dynamic (-1) (.seq [
    "<",
    optional (.seq ["_jsx_element_name", .many "_jsx_attributes" "_jsx_attribute"]),
    ">"])),
  ("_jsx_identifier", oneOf ["jsx_identifier", "identifier"]),
  ("nested_identifier", at_ "member" (.seq [
    oneOf ["identifier", "nested_identifier"], ".", "identifier"])),
  ("jsx_namespace_name", .seq ["_jsx_identifier", ":", "_jsx_identifier"]),
  ("_jsx_element_name", oneOf ["_jsx_identifier", "nested_identifier", "jsx_namespace_name"]),
  ("jsx_closing_element", .seq ["</", optional "_jsx_element_name", ">"]),
  ("jsx_self_closing_element", .seq [
    "<", "_jsx_element_name", .many "_jsx_attributes" "_jsx_attribute", "/>"]),
  ("_jsx_attribute", oneOf ["jsx_attribute", "jsx_expression"]),
  ("_jsx_attribute_name", oneOf ["_jsx_identifier", "jsx_namespace_name"]),
  ("jsx_attribute", .seq ["_jsx_attribute_name", optional (.seq ["=", "_jsx_attribute_value"])]),
  ("_jsx_string", .choice [
    .seq [
      "\"",
      .many "_jsx_double_quoted" (oneOf ["jsx_double_fragment", "html_character_reference"]),
      "\""],
    .seq [
      "'",
      .many "_jsx_single_quoted" (oneOf ["jsx_single_fragment", "html_character_reference"]),
      "'"]]),
  ("_jsx_attribute_value", oneOf ["_jsx_string", "jsx_expression", "_jsx_element"])]

def functionRules : List (String × Rule) := [
  ("class_expression", at_ "literal" (.seq [
    decorators, "class", optional "identifier", optional "class_heritage", "class_body"])),
  ("class_declaration", rightAt "declare" (.seq [
    decorators, "class", "identifier", optional "class_heritage", "class_body",
    optional "automatic_semicolon"])),
  ("class_heritage", .seq ["extends", "expression"]),
  ("function_expression", at_ "literal" (.seq [
    optional "async", "function", optional "identifier", "_call_signature", "statement_block"])),
  ("function_declaration", rightAt "declare" (.seq [
    optional "async", "function", "identifier", "_call_signature", "statement_block",
    optional "automatic_semicolon"])),
  ("generator_function", at_ "literal" (.seq [
    optional "async", "function", "*", optional "identifier", "_call_signature",
    "statement_block"])),
  ("generator_function_declaration", rightAt "declare" (.seq [
    optional "async", "function", "*", "identifier", "_call_signature", "statement_block",
    optional "automatic_semicolon"])),
  ("arrow_function", .seq [
    optional "async",
    oneOf ["_reserved_identifier", "identifier", "_call_signature"],
    "=>",
    oneOf ["expression", "statement_block"]]),
  ("_call_signature", "formal_parameters"),
  ("_formal_parameter", oneOf ["pattern", "assignment_pattern"]),
  ("decorator", .seq [
    "@",
    oneOf ["identifier", "decorator_member_expression", "decorator_call_expression"]]),
  ("decorator_member_expression", at_ "member" (.seq [
    oneOf ["identifier", "decorator_member_expression"], ".", "identifier"])),
  ("decorator_call_expression", at_ "call" (.seq [
    oneOf ["identifier", "decorator_member_expression"], "arguments"])),
  ("class_body", .seq [
    "\x7b",
    .many "_class_members" (.choice [
      .seq ["method_definition", optional ";"],
      .seq ["field_definition", "_semicolon"],
      "class_static_block",
      ";"]),
    "\x7d"]),
  ("field_definition", .seq [
    decorators, optional "static", "_property_name", optional "_initializer"]),
  ("formal_parameters", .seq [
    "(",
    optional (.seq [commaSep1 "_parameters" "_formal_parameter", optional ","]),
    ")"]),
  ("class_static_block", .seq ["static", "statement_block"]),
  ("pattern", .dynamic (-1) (oneOf ["_lhs_expression", "rest_pattern"])),
  ("rest_pattern", groupRight (.seq ["...", "_lhs_expression"])),
  ("method_definition", .seq [
    decorators,
    optional (oneOf ["static", "static_get"]),
    optional "async",
    optional (oneOf ["get", "set", "*"]),
    "_property_name",
    "formal_parameters",
    "statement_block"]),
  ("pair", .seq ["_property_name", ":", "expression"]),
  ("pair_pattern", .seq ["_property_name", ":", oneOf ["pattern", "assignment_pattern"]]),
  ("_property_name", .unreserved (oneOf [
    "identifier", "_reserved_identifier", "private_property_identifier", "string", "number",
    "computed_property_name"])),
  ("computed_property_name", .seq ["[", "expression", "]"]),
  ("_reserved_identifier", oneOf ["get", "set", "async", "static", "export", "let"]),
  ("_semicolon", oneOf ["automatic_semicolon", ";"])]

/-- The rules by which operators and constructs take precedence over each other, the tightest
first. -/
def rankings : List (List Ranked) :=
  let p := Ranked.precedence
  let r := Ranked.rule
  [ [p "member", p "template_call", p "call", r "update_expression", p "unary_void",
      p "binary_exp", p "binary_times", p "binary_plus", p "binary_shift", p "binary_compare",
      p "binary_relation", p "binary_equality", p "bitwise_and", p "bitwise_xor", p "bitwise_or",
      p "logical_and", p "logical_or", p "ternary", r "sequence_expression", r "arrow_function"],
    [p "assign", r "primary_expression"],
    [p "member", p "template_call", p "new", p "call", r "expression"],
    [p "declare", p "literal"],
    [r "primary_expression", r "statement_block", p "object"],
    [r "meta_property", r "import_keyword"],
    [r "import_statement", r "import_keyword"],
    [r "export_statement", r "primary_expression"],
    [r "lexical_declaration", r "primary_expression"] ]

def reservedWords : List String := [
  "await", "break", "case", "catch", "class", "const", "continue", "debugger", "default", "delete",
  "do", "else", "export", "extends", "false", "finally", "for", "function", "if", "import", "in",
  "instanceof", "new", "null", "return", "static", "super", "switch", "this", "throw", "true",
  "try", "typeof", "var", "void", "while", "with", "yield"]

def grammar : Grammar where
  start := "program"
  rules :=
    moduleRules ++ statementRules ++ expressionRules ++ literalRules ++ jsxRules ++ functionRules
  inlined := [
    "_call_signature", "_formal_parameter", "_expressions", "_semicolon", "_identifier",
    "_reserved_identifier", "_jsx_attribute", "_jsx_element_name", "_jsx_child", "_jsx_element",
    "_jsx_attribute_name", "_jsx_attribute_value", "_jsx_identifier", "_lhs_expression"]
  hidden := [
    "_statements", "_from_clause", "_module_export_name", "_for_header",
    "_augmented_assignment_lhs", "_initializer", "_destructuring_pattern", "_jsx_string",
    "_property_name", "statement", "declaration", "expression", "primary_expression", "pattern",
    "automatic_semicolon"]
  kinds := [("class_expression", "class"), ("import_keyword", "import")]
  rankings := rankings
  extras := ["comment", "html_comment"]
  word := "identifier"
  reserved := reservedWords

end CodeIndex.JavaScript
