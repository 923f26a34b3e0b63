import CodeAtlas.Grammar.Tsx.Lexical

/-!
# Statements of TSX

Exports, imports and statements, in the order in which their tokens are numbered.
-/

namespace CodeAtlas.Grammar.Tsx

open Rule

/-- A name or a pattern that takes a value apart. -/
def bindingTarget : Rule := choice [ref "identifier", ref "_destructuring_pattern"]

/-- The rules of exports, declarations and imports. -/
def moduleRules : List (String × Rule) := [
  ("program", seq [opt (ref "hash_bang_line"), rep (ref "statement")]),
  ("hash_bang_line", token (Pattern.chain (Pattern.text "#!")
    (Pattern.star (Pattern.one (CharSet.noneOf "\n"))))),
  ("export_statement", choice [
    seq [lit "export",
      choice [seq [lit "*", ref "_from_clause"], seq [ref "namespace_export", ref "_from_clause"],
        seq [ref "export_clause", ref "_from_clause"], ref "export_clause"],
      ref "_semicolon"],
    seq [rep (labelled "decorator" (ref "decorator")), lit "export",
      choice [labelled "declaration" (ref "declaration"),
        seq [lit "default",
          choice [labelled "declaration" (ref "declaration"),
            seq [labelled "value" (ref "expression"), ref "_semicolon"]]]]],
    seq [lit "export", lit "type", ref "export_clause", opt (ref "_from_clause"),
      ref "_semicolon"],
    seq [lit "export", lit "import", ref "import_alias"],
    seq [lit "export", lit "=", ref "expression", ref "_semicolon"],
    seq [lit "export", lit "as", lit "namespace", ref "identifier", ref "_semicolon"]]),
  ("namespace_export", seq [lit "*", lit "as", ref "_module_export_name"]),
  ("export_clause", seq [lit "\x7b", commaSep (ref "export_specifier"), opt (lit ","),
    lit "\x7d"]),
  ("export_specifier", seq [opt (anyLit ["type", "typeof"]),
    seq [labelled "name" (ref "_module_export_name"),
      opt (seq [lit "as", labelled "alias" (ref "_module_export_name")])]]),
  ("_module_export_name", choice [ref "identifier", ref "string", lit "default"]),
  ("declaration", choice [
    choice [ref "function_declaration", ref "generator_function_declaration",
      ref "class_declaration", ref "lexical_declaration", ref "variable_declaration"],
    ref "function_signature", ref "abstract_class_declaration", ref "module",
    prec "declare" [ref "internal_module"], ref "type_alias_declaration", ref "enum_declaration",
    ref "interface_declaration", ref "import_alias", ref "ambient_declaration"]),
  ("import", lit "import"),
  ("import_statement", seq [lit "import", opt (anyLit ["type", "typeof"]),
    choice [seq [ref "import_clause", ref "_from_clause"], ref "import_require_clause",
      labelled "source" (ref "string")],
    opt (ref "import_attribute"), ref "_semicolon"]),
  ("import_clause", choice [ref "namespace_import", ref "named_imports",
    seq [ref "_import_identifier",
      opt (seq [lit ",", choice [ref "namespace_import", ref "named_imports"]])]]),
  ("_from_clause", seq [lit "from", labelled "source" (ref "string")]),
  ("namespace_import", seq [lit "*", lit "as", ref "identifier"]),
  ("named_imports", seq [lit "\x7b", commaSep (ref "import_specifier"), opt (lit ","),
    lit "\x7d"]),
  ("import_specifier", seq [opt (anyLit ["type", "typeof"]),
    choice [labelled "name" (ref "_import_identifier"),
      seq [labelled "name" (choice [ref "_module_export_name", (lit "default").as "identifier"]),
        lit "as", labelled "alias" (ref "_import_identifier")]]]),
  ("import_attribute", seq [lit "with", ref "object"])]

/-- The rules of statements and of their parts. -/
def statementRules : List (String × Rule) := [
  ("statement", choice [ref "export_statement", ref "import_statement", ref "debugger_statement",
    ref "expression_statement", ref "declaration", ref "statement_block", ref "if_statement",
    ref "switch_statement", ref "for_statement", ref "for_in_statement", ref "while_statement",
    ref "do_statement", ref "try_statement", ref "with_statement", ref "break_statement",
    ref "continue_statement", ref "return_statement", ref "throw_statement", ref "empty_statement",
    ref "labeled_statement"]),
  ("expression_statement", seq [ref "_expressions", ref "_semicolon"]),
  ("variable_declaration", seq [lit "var", commaSep1 (ref "variable_declarator"),
    ref "_semicolon"]),
  ("lexical_declaration", seq [labelled "kind" (anyLit ["let", "const"]),
    commaSep1 (ref "variable_declarator"), ref "_semicolon"]),
  ("variable_declarator", choice [
    seq [labelled "name" bindingTarget, labelled "type" (opt (ref "type_annotation")),
      opt (ref "_initializer")],
    prec "declare" [labelled "name" (ref "identifier"), lit "!",
      labelled "type" (ref "type_annotation")]]),
  ("statement_block", going [lit "\x7b", rep (ref "statement"), lit "\x7d",
    opt (ref "_automatic_semicolon")]),
  ("else_clause", seq [lit "else", ref "statement"]),
  ("if_statement", going [lit "if", labelled "condition" (ref "parenthesized_expression"),
    labelled "consequence" (ref "statement"), opt (labelled "alternative" (ref "else_clause"))]),
  ("switch_statement", seq [lit "switch", labelled "value" (ref "parenthesized_expression"),
    labelled "body" (ref "switch_body")]),
  ("for_statement", seq [lit "for", lit "(",
    choice [
      labelled "initializer" (choice [ref "lexical_declaration", ref "variable_declaration"]),
      seq [labelled "initializer" (ref "_expressions"), lit ";"],
      labelled "initializer" (ref "empty_statement")],
    labelled "condition" (choice [seq [ref "_expressions", lit ";"], ref "empty_statement"]),
    labelled "increment" (opt (ref "_expressions")), lit ")", labelled "body" (ref "statement")]),
  ("for_in_statement", seq [lit "for", opt (lit "await"), ref "_for_header",
    labelled "body" (ref "statement")]),
  ("_for_header", seq [lit "(",
    choice [
      labelled "left" (choice [ref "_lhs_expression", ref "parenthesized_expression"]),
      seq [labelled "kind" (lit "var"), labelled "left" bindingTarget, opt (ref "_initializer")],
      seq [labelled "kind" (anyLit ["let", "const"]), labelled "left" bindingTarget,
        opt (ref "_automatic_semicolon")]],
    labelled "operator" (anyLit ["in", "of"]), labelled "right" (ref "_expressions"), lit ")"]),
  ("while_statement", seq [lit "while", labelled "condition" (ref "parenthesized_expression"),
    labelled "body" (ref "statement")]),
  ("do_statement", going [lit "do", labelled "body" (ref "statement"), lit "while",
    labelled "condition" (ref "parenthesized_expression"), opt (ref "_semicolon")]),
  ("try_statement", seq [lit "try", labelled "body" (ref "statement_block"),
    opt (labelled "handler" (ref "catch_clause")),
    opt (labelled "finalizer" (ref "finally_clause"))]),
  ("with_statement", seq [lit "with", labelled "object" (ref "parenthesized_expression"),
    labelled "body" (ref "statement")]),
  ("break_statement", seq [lit "break",
    labelled "label" (opt ((ref "identifier").as "statement_identifier")), ref "_semicolon"]),
  ("continue_statement", seq [lit "continue",
    labelled "label" (opt ((ref "identifier").as "statement_identifier")), ref "_semicolon"]),
  ("debugger_statement", seq [lit "debugger", ref "_semicolon"]),
  ("return_statement", seq [lit "return", opt (ref "_expressions"), ref "_semicolon"]),
  ("throw_statement", seq [lit "throw", ref "_expressions", ref "_semicolon"]),
  ("empty_statement", lit ";"),
  ("labeled_statement", favoured (-1) (seq [labelled "label" (namedAs "statement_identifier"),
    lit ":", labelled "body" (ref "statement")])),
  ("switch_body", seq [lit "\x7b", rep (choice [ref "switch_case", ref "switch_default"]),
    lit "\x7d"]),
  ("switch_case", seq [lit "case", labelled "value" (ref "_expressions"), lit ":",
    labelled "body" (rep (ref "statement"))]),
  ("switch_default", seq [lit "default", lit ":", labelled "body" (rep (ref "statement"))]),
  ("catch_clause", seq [lit "catch",
    opt (seq [lit "(", labelled "parameter" bindingTarget,
      opt (labelled "type" (ref "type_annotation")), lit ")"]),
    labelled "body" (ref "statement_block")]),
  ("finally_clause", seq [lit "finally", labelled "body" (ref "statement_block")])]

end CodeAtlas.Grammar.Tsx
