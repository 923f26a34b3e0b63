import CodeAtlas.Grammar.Tsx.Lexical

/-!
# Expressions of TSX

Expressions, markup, functions, classes and patterns, in the order in which their tokens are
numbered.
-/

namespace CodeAtlas.Grammar.Tsx

open Rule

/-- The binary operators: the sign, the rank it binds with, and the side it closes on. -/
def binaryOperators : List (String × String × Side) := [
  ("&&", "logical_and", .left), ("||", "logical_or", .left), (">>", "binary_shift", .left),
  (">>>", "binary_shift", .left), ("<<", "binary_shift", .left), ("&", "bitwise_and", .left),
  ("^", "bitwise_xor", .left), ("|", "bitwise_or", .left), ("+", "binary_plus", .left),
  ("-", "binary_plus", .left), ("*", "binary_times", .left), ("/", "binary_times", .left),
  ("%", "binary_times", .left), ("**", "binary_exp", .right), ("<", "binary_relation", .left),
  ("<=", "binary_relation", .left), ("==", "binary_equality", .left),
  ("===", "binary_equality", .left), ("!=", "binary_equality", .left),
  ("!==", "binary_equality", .left), (">=", "binary_relation", .left),
  (">", "binary_relation", .left), ("??", "ternary", .left),
  ("instanceof", "binary_relation", .left), ("in", "binary_relation", .left)]

/-- The expressions that may stand on the left of an assignment. -/
def assignable : Rule := choice [ref "parenthesized_expression", ref "_lhs_expression"]

/-- The rules of expressions, up to the patterns of arrays. -/
def expressionRules : List (String × Rule) := [
  ("parenthesized_expression", seq [lit "(",
    choice [seq [ref "expression", labelled "type" (opt (ref "type_annotation"))],
      ref "sequence_expression"],
    lit ")"]),
  ("_expressions", choice [ref "expression", ref "sequence_expression"]),
  ("expression", choice [ref "as_expression", ref "satisfies_expression",
    ref "instantiation_expression", ref "internal_module", ref "primary_expression",
    ref "_jsx_element", ref "assignment_expression", ref "augmented_assignment_expression",
    ref "await_expression", ref "unary_expression", ref "binary_expression",
    ref "ternary_expression", ref "update_expression", ref "new_expression",
    ref "yield_expression"]),
  ("primary_expression", choice [
    choice [ref "subscript_expression", ref "member_expression", ref "parenthesized_expression",
      ref "_identifier", reservedAsIdentifier, ref "this", ref "super", ref "number", ref "string",
      ref "template_string", ref "regex", ref "true", ref "false", ref "null", ref "object",
      ref "array", ref "function_expression", ref "arrow_function", ref "generator_function",
      ref "class", ref "meta_property", ref "call_expression"],
    ref "non_null_expression"]),
  ("yield_expression", going [lit "yield",
    choice [seq [lit "*", ref "expression"], opt (ref "expression")]]),
  ("object", prec "object" [lit "\x7b",
    commaSep (opt (choice [ref "pair", ref "spread_element", ref "method_definition",
      namedAs "shorthand_property_identifier"])),
    lit "\x7d"]),
  ("object_pattern", prec "object" [lit "\x7b",
    commaSep (opt (choice [ref "pair_pattern", ref "rest_pattern", ref "object_assignment_pattern",
      namedAs "shorthand_property_identifier_pattern"])),
    lit "\x7d"]),
  ("assignment_pattern", seq [labelled "left" (ref "pattern"), lit "=",
    labelled "right" (ref "expression")]),
  ("object_assignment_pattern", seq [
    labelled "left" (choice [namedAs "shorthand_property_identifier_pattern",
      ref "_destructuring_pattern"]),
    lit "=", labelled "right" (ref "expression")]),
  ("array", seq [lit "[", commaSep (opt (choice [ref "expression", ref "spread_element"])),
    lit "]"]),
  ("array_pattern", seq [lit "[", commaSep (opt (choice [ref "pattern", ref "assignment_pattern"])),
    lit "]"])]

/-- The rules of markup. -/
def markupRules : List (String × Rule) := [
  ("_jsx_element", choice [ref "jsx_element", ref "jsx_self_closing_element"]),
  ("jsx_element", seq [labelled "open_tag" (ref "jsx_opening_element"), rep (ref "_jsx_child"),
    labelled "close_tag" (ref "jsx_closing_element")]),
  ("html_character_reference", token characterReferencePattern),
  ("jsx_expression", seq [lit "\x7b",
    opt (choice [ref "expression", ref "sequence_expression", ref "spread_element"]),
    lit "\x7d"]),
  ("_jsx_child", choice [ref "jsx_text", ref "html_character_reference", ref "_jsx_element",
    ref "jsx_expression"]),
  ("jsx_opening_element", favoured (-1) (seq [ref "_jsx_start_opening_element", lit ">"])),
  ("_jsx_identifier", choice [(ref "jsx_identifier").as "identifier", ref "identifier"]),
  ("jsx_identifier", token hyphenatedPattern),
  ("nested_identifier", prec "member" [
    labelled "object" (choice [ref "identifier",
      (ref "nested_identifier").as "member_expression"]),
    lit ".", labelled "property" propertyIdentifier]),
  ("jsx_namespace_name", seq [ref "_jsx_identifier", lit ":", ref "_jsx_identifier"]),
  ("_jsx_element_name", choice [ref "_jsx_identifier",
    (ref "nested_identifier").as "member_expression", ref "jsx_namespace_name"]),
  ("jsx_closing_element", seq [lit "</", opt (labelled "name" (ref "_jsx_element_name")),
    lit ">"]),
  ("jsx_self_closing_element", favoured (-1) (seq [ref "_jsx_start_opening_element", lit "/>"])),
  ("_jsx_attribute", choice [ref "jsx_attribute", ref "jsx_expression"]),
  ("_jsx_attribute_name", choice [(ref "_jsx_identifier").as "property_identifier",
    ref "jsx_namespace_name"]),
  ("jsx_attribute", seq [ref "_jsx_attribute_name",
    opt (seq [lit "=", ref "_jsx_attribute_value"])]),
  ("_jsx_string", choice [
    quoted "\"" "unescaped_double_jsx_string_fragment" "html_character_reference",
    quoted "'" "unescaped_single_jsx_string_fragment" "html_character_reference"]),
  ("unescaped_double_jsx_string_fragment", immediate 1 (attributeText "\"")),
  ("unescaped_single_jsx_string_fragment", immediate 1 (attributeText "'")),
  ("_jsx_attribute_value", choice [(ref "_jsx_string").as "string", ref "jsx_expression",
    ref "_jsx_element"])]

/-- What the heads of functions share: the words in front of the name. -/
def functionHead (star : Bool) (name : Rule) : Rule :=
  seq ([opt (lit "async"), lit "function"] ++ (if star then [lit "*"] else [])
    ++ [labelled "name" name, ref "_call_signature", labelled "body" (ref "statement_block")])

/-- What the heads of classes share: decorators, type parameters, ancestors and the body. -/
def classHead (words : List String) (name : Rule) : Rule :=
  seq ([rep (labelled "decorator" (ref "decorator"))] ++ words.map lit
    ++ [labelled "name" name, labelled "type_parameters" (opt (ref "type_parameters")),
      opt (ref "class_heritage"), labelled "body" (ref "class_body")])

/-- The rules of classes and functions. -/
def functionRules : List (String × Rule) := [
  ("class", prec "literal" [classHead ["class"] (opt (ref "_type_identifier"))]),
  ("class_declaration", precLeft "declare" [classHead ["class"] (ref "_type_identifier"),
    opt (ref "_automatic_semicolon")]),
  ("class_heritage", choice [seq [ref "extends_clause", opt (ref "implements_clause")],
    ref "implements_clause"]),
  ("function_expression", prec "literal" [functionHead false (opt (ref "identifier"))]),
  ("function_declaration", precRight "declare" [functionHead false (ref "identifier"),
    opt (ref "_automatic_semicolon")]),
  ("generator_function", prec "literal" [functionHead true (opt (ref "identifier"))]),
  ("generator_function_declaration", precRight "declare" [functionHead true (ref "identifier"),
    opt (ref "_automatic_semicolon")]),
  ("arrow_function", seq [opt (lit "async"),
    choice [labelled "parameter" (choice [reservedAsIdentifier, ref "identifier"]),
      ref "_call_signature"],
    lit "=>", labelled "body" (choice [ref "expression", ref "statement_block"])]),
  ("_call_signature", seq [labelled "type_parameters" (opt (ref "type_parameters")),
    labelled "parameters" (ref "formal_parameters"),
    labelled "return_type" (opt (choice [ref "type_annotation", ref "asserts_annotation",
      ref "type_predicate_annotation"]))]),
  ("_formal_parameter", choice [ref "required_parameter", ref "optional_parameter"])]

/-- The rules of calls, members and operators. -/
def operatorRules : List (String × Rule) := [
  ("optional_chain", lit "?."),
  ("call_expression", choice [
    prec "call" [labelled "function" (choice [ref "expression", ref "import"]),
      labelled "type_arguments" (opt (ref "type_arguments")),
      labelled "arguments" (ref "arguments")],
    prec "template_call" [
      labelled "function" (choice [ref "primary_expression", ref "new_expression"]),
      labelled "arguments" (ref "template_string")],
    prec "member" [labelled "function" (ref "primary_expression"), lit "?.",
      labelled "type_arguments" (opt (ref "type_arguments")),
      labelled "arguments" (ref "arguments")]]),
  ("new_expression", precRight "new" [lit "new",
    labelled "constructor" (ref "primary_expression"),
    labelled "type_arguments" (opt (ref "type_arguments")),
    labelled "arguments" (opt (ref "arguments"))]),
  ("await_expression", prec "unary_void" [lit "await", ref "expression"]),
  ("member_expression", prec "member" [
    labelled "object" (choice [ref "expression", ref "primary_expression", ref "import"]),
    choice [lit ".", labelled "optional_chain" (ref "optional_chain")],
    labelled "property" (choice [ref "private_property_identifier", propertyIdentifier])]),
  ("subscript_expression", precRight "member" [
    labelled "object" (choice [ref "expression", ref "primary_expression"]),
    opt (labelled "optional_chain" (ref "optional_chain")), lit "[",
    labelled "index" (ref "_expressions"), lit "]"]),
  ("_lhs_expression", choice [
    choice [ref "member_expression", ref "subscript_expression", ref "_identifier",
      reservedAsIdentifier, ref "_destructuring_pattern"],
    ref "non_null_expression"]),
  ("assignment_expression", precRight "assign" [opt (lit "using"), labelled "left" assignable,
    lit "=", labelled "right" (ref "expression")]),
  ("_augmented_assignment_lhs", choice [
    choice [ref "member_expression", ref "subscript_expression", reservedAsIdentifier,
      ref "identifier", ref "parenthesized_expression"],
    ref "non_null_expression"]),
  ("augmented_assignment_expression", precRight "assign" [
    labelled "left" (ref "_augmented_assignment_lhs"),
    labelled "operator" (anyLit ["+=", "-=", "*=", "/=", "%=", "^=", "&=", "|=", ">>=", ">>>=",
      "<<=", "**=", "&&=", "||=", "??="]),
    labelled "right" (ref "expression")]),
  ("_initializer", seq [lit "=", labelled "value" (ref "expression")]),
  ("_destructuring_pattern", choice [ref "object_pattern", ref "array_pattern"]),
  ("spread_element", seq [lit "...", ref "expression"]),
  ("ternary_expression", precRight "ternary" [labelled "condition" (ref "expression"),
    (ref "_ternary_qmark").asToken "?", labelled "consequence" (ref "expression"), lit ":",
    labelled "alternative" (ref "expression")]),
  ("binary_expression", choice (binaryOperators.map (fun (sign, rank, side) ↦
    ranked (.named rank) (some side) (seq [
      labelled "left" (if sign = "in" then
        choice [ref "expression", ref "private_property_identifier"] else ref "expression"),
      labelled "operator" (lit sign), labelled "right" (ref "expression")])))),
  ("unary_expression", precLeft "unary_void" [
    labelled "operator" (anyLit ["!", "~", "-", "+", "typeof", "void", "delete"]),
    labelled "argument" (ref "expression")]),
  ("update_expression", closing [choice [
    seq [labelled "argument" (ref "expression"), labelled "operator" (anyLit ["++", "--"])],
    seq [labelled "operator" (anyLit ["++", "--"]), labelled "argument" (ref "expression")]]]),
  ("sequence_expression", going [commaSep1 (ref "expression")])]

/-- The rules of arguments, decorators, class bodies and parameters. -/
def memberRules : List (String × Rule) := [
  ("arguments", seq [lit "(",
    commaSep (opt (choice [ref "expression", ref "spread_element"])), lit ")"]),
  ("decorator", seq [lit "@",
    choice [ref "identifier", (ref "decorator_member_expression").as "member_expression",
      (ref "decorator_call_expression").as "call_expression",
      (ref "decorator_parenthesized_expression").as "parenthesized_expression"]]),
  ("decorator_member_expression", prec "member" [
    labelled "object" (choice [ref "identifier",
      (ref "decorator_member_expression").as "member_expression"]),
    lit ".", labelled "property" propertyIdentifier]),
  ("decorator_call_expression", prec "call" [
    labelled "function" (choice [ref "identifier",
      (ref "decorator_member_expression").as "member_expression"]),
    opt (labelled "type_arguments" (ref "type_arguments")),
    labelled "arguments" (ref "arguments")]),
  ("class_body", seq [lit "\x7b",
    rep (choice [
      seq [rep (labelled "decorator" (ref "decorator")), ref "method_definition",
        opt (ref "_semicolon")],
      seq [ref "method_signature",
        choice [ref "_function_signature_automatic_semicolon", lit ","]],
      ref "class_static_block",
      seq [choice [ref "abstract_method_signature", ref "index_signature", ref "method_signature",
          ref "public_field_definition"],
        choice [ref "_semicolon", lit ","]],
      lit ";"]),
    lit "\x7d"]),
  ("formal_parameters", seq [lit "(",
    opt (seq [commaSep1 (ref "_formal_parameter"), opt (lit ",")]), lit ")"]),
  ("class_static_block", seq [lit "static", labelled "body" (ref "statement_block")]),
  ("pattern", favoured (-1) (choice [ref "_lhs_expression", ref "rest_pattern"])),
  ("rest_pattern", going [lit "...", ref "_lhs_expression"]),
  ("method_definition", closing [opt (ref "accessibility_modifier"), opt (lit "static"),
    opt (ref "override_modifier"), opt (lit "readonly"), opt (lit "async"),
    opt (anyLit ["get", "set", "*"]), labelled "name" (ref "_property_name"), opt (lit "?"),
    ref "_call_signature", labelled "body" (ref "statement_block")]),
  ("pair", seq [labelled "key" (ref "_property_name"), lit ":",
    labelled "value" (ref "expression")]),
  ("pair_pattern", seq [labelled "key" (ref "_property_name"), lit ":",
    labelled "value" (choice [ref "pattern", ref "assignment_pattern"])]),
  ("_property_name", choice [namedAs "property_identifier", ref "private_property_identifier",
    ref "string", ref "number", ref "computed_property_name"]),
  ("computed_property_name", seq [lit "[", ref "expression", lit "]"]),
  ("_reserved_identifier", anyLit ["declare", "namespace", "type", "public", "private",
    "protected", "override", "readonly", "module", "any", "number", "boolean", "string", "symbol",
    "export", "object", "new", "readonly", "get", "set", "async", "static", "export", "let"]),
  ("_semicolon", choice [ref "_automatic_semicolon", lit ";"])]

end CodeAtlas.Grammar.Tsx
