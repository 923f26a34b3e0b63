import CodeAtlas.Grammar.Tsx.Lexical

/-!
# Types and declarations of TSX

The rules that concern types: annotations, signatures, declarations of types, enumerations and
modules, and the types themselves.
-/

namespace CodeAtlas.Grammar.Tsx

open Rule

/-- An optional modifier that is one of two words. -/
def eitherSign : Rule := anyLit ["-", "+"]

/-- A part of a type query, shown as the expression it looks like. -/
def queried (part : String) : Rule := (ref ("_type_query_" ++ part)).as part

/-- A part of a type query in an annotation, shown as the expression it looks like. -/
def annotated (part : String) : Rule :=
  (ref ("_type_query_" ++ part ++ "_in_type_annotation")).as part

/-- The rules of declarations and signatures. -/
def declarationRules : List (String × Rule) := [
  ("public_field_definition", seq [
    rep (labelled "decorator" (ref "decorator")),
    opt (choice [seq [lit "declare", opt (ref "accessibility_modifier")],
      seq [ref "accessibility_modifier", opt (lit "declare")]]),
    choice [
      seq [opt (lit "static"), opt (ref "override_modifier"), opt (lit "readonly")],
      seq [opt (lit "abstract"), opt (lit "readonly")],
      seq [opt (lit "readonly"), opt (lit "abstract")],
      opt (lit "accessor")],
    labelled "name" (ref "_property_name"), opt (anyLit ["?", "!"]),
    labelled "type" (opt (ref "type_annotation")), opt (ref "_initializer")]),
  ("_jsx_start_opening_element", seq [lit "<",
    opt (seq [
      choice [
        labelled "name" (choice [ref "_jsx_identifier", ref "jsx_namespace_name"]),
        seq [labelled "name" (choice [ref "identifier",
            (ref "nested_identifier").as "member_expression"]),
          labelled "type_arguments" (opt (ref "type_arguments"))]],
      rep (labelled "attribute" (ref "_jsx_attribute"))])]),
  ("_import_identifier", choice [ref "identifier", (lit "type").as "identifier"]),
  ("non_null_expression", precLeft "unary" [ref "expression", lit "!"]),
  ("method_signature", seq [opt (ref "accessibility_modifier"), opt (lit "static"),
    opt (ref "override_modifier"), opt (lit "readonly"), opt (lit "async"),
    opt (anyLit ["get", "set", "*"]), labelled "name" (ref "_property_name"), opt (lit "?"),
    ref "_call_signature"]),
  ("abstract_method_signature", seq [opt (ref "accessibility_modifier"), lit "abstract",
    opt (ref "override_modifier"), opt (anyLit ["get", "set", "*"]),
    labelled "name" (ref "_property_name"), opt (lit "?"), ref "_call_signature"]),
  ("function_signature", seq [opt (lit "async"), lit "function",
    labelled "name" (ref "identifier"), ref "_call_signature",
    choice [ref "_semicolon", ref "_function_signature_automatic_semicolon"]]),
  ("decorator_parenthesized_expression", seq [lit "(",
    choice [ref "identifier", (ref "decorator_member_expression").as "member_expression",
      (ref "decorator_call_expression").as "call_expression"],
    lit ")"]),
  ("as_expression", precLeft "binary" [ref "expression", lit "as",
    choice [lit "const", ref "type"]]),
  ("satisfies_expression", precLeft "binary" [ref "expression", lit "satisfies", ref "type"]),
  ("instantiation_expression", prec "instantiation" [ref "expression",
    labelled "type_arguments" (ref "type_arguments")]),
  ("import_require_clause", seq [ref "identifier", lit "=", lit "require", lit "(",
    labelled "source" (ref "string"), lit ")"]),
  ("extends_clause", seq [lit "extends", commaSep1 (ref "_extends_clause_single")]),
  ("_extends_clause_single", prec "extends" [labelled "value" (ref "expression"),
    labelled "type_arguments" (opt (ref "type_arguments"))]),
  ("implements_clause", seq [lit "implements", commaSep1 (ref "type")]),
  ("ambient_declaration", seq [lit "declare",
    choice [ref "declaration", seq [lit "global", ref "statement_block"],
      seq [lit "module", lit ".", propertyIdentifier, lit ":", ref "type", ref "_semicolon"]]]),
  ("abstract_class_declaration", prec "declare" [
    rep (labelled "decorator" (ref "decorator")), lit "abstract", lit "class",
    labelled "name" (ref "_type_identifier"),
    labelled "type_parameters" (opt (ref "type_parameters")), opt (ref "class_heritage"),
    labelled "body" (ref "class_body")]),
  ("module", seq [lit "module", ref "_module"]),
  ("internal_module", seq [lit "namespace", ref "_module"]),
  ("_module", going [
    labelled "name" (choice [ref "string", ref "identifier", ref "nested_identifier"]),
    labelled "body" (opt (ref "statement_block"))]),
  ("import_alias", seq [lit "import", ref "identifier", lit "=",
    choice [ref "identifier", ref "nested_identifier"], ref "_semicolon"]),
  ("nested_type_identifier", prec "member" [
    labelled "module" (choice [ref "identifier", ref "nested_identifier"]), lit ".",
    labelled "name" (ref "_type_identifier")]),
  ("interface_declaration", seq [lit "interface", labelled "name" (ref "_type_identifier"),
    labelled "type_parameters" (opt (ref "type_parameters")), opt (ref "extends_type_clause"),
    labelled "body" ((ref "object_type").as "interface_body")]),
  ("extends_type_clause", seq [lit "extends",
    commaSep1 (labelled "type" (choice [ref "_type_identifier", ref "nested_type_identifier",
      ref "generic_type"]))]),
  ("enum_declaration", seq [opt (lit "const"), lit "enum", labelled "name" (ref "identifier"),
    labelled "body" (ref "enum_body")]),
  ("enum_body", seq [lit "\x7b",
    opt (seq [commaSep1 (choice [labelled "name" (ref "_property_name"), ref "enum_assignment"]),
      opt (lit ",")]),
    lit "\x7d"]),
  ("enum_assignment", seq [labelled "name" (ref "_property_name"), ref "_initializer"]),
  ("type_alias_declaration", seq [lit "type", labelled "name" (ref "_type_identifier"),
    labelled "type_parameters" (opt (ref "type_parameters")), lit "=",
    labelled "value" (ref "type"), ref "_semicolon"]),
  ("accessibility_modifier", anyLit ["public", "private", "protected"]),
  ("override_modifier", lit "override"),
  ("required_parameter", seq [ref "_parameter_name",
    labelled "type" (opt (ref "type_annotation")), opt (ref "_initializer")]),
  ("optional_parameter", seq [ref "_parameter_name", lit "?",
    labelled "type" (opt (ref "type_annotation")), opt (ref "_initializer")]),
  ("_parameter_name", seq [rep (labelled "decorator" (ref "decorator")),
    opt (ref "accessibility_modifier"), opt (ref "override_modifier"), opt (lit "readonly"),
    labelled "pattern" (choice [ref "pattern", ref "this"])])]

/-- The rules of annotations. -/
def annotationRules : List (String × Rule) := [
  ("omitting_type_annotation", seq [lit "-?:", ref "type"]),
  ("adding_type_annotation", seq [lit "+?:", ref "type"]),
  ("opting_type_annotation", seq [lit "?:", ref "type"]),
  ("type_annotation", seq [lit ":",
    choice [ref "type", annotated "member_expression", annotated "call_expression"]]),
  ("_type_query_member_expression_in_type_annotation", seq [
    labelled "object" (choice [ref "import", annotated "member_expression",
      annotated "call_expression"]),
    lit ".",
    labelled "property" (choice [ref "private_property_identifier", propertyIdentifier])]),
  ("_type_query_call_expression_in_type_annotation", seq [
    labelled "function" (choice [ref "import", annotated "member_expression"]),
    labelled "arguments" (ref "arguments")]),
  ("asserts", seq [lit "asserts", choice [ref "type_predicate", ref "identifier", ref "this"]]),
  ("asserts_annotation", seq [lit ":", ref "asserts"])]

/-- The rules of types. -/
def typeRules : List (String × Rule) := [
  ("type", choice [ref "primary_type", ref "function_type", ref "readonly_type",
    ref "constructor_type", ref "infer_type",
    ranked (.level (-1)) none (annotated "member_expression"),
    ranked (.level (-1)) none (annotated "call_expression")]),
  ("tuple_parameter", seq [labelled "name" (choice [ref "identifier", ref "rest_pattern"]),
    labelled "type" (ref "type_annotation")]),
  ("optional_tuple_parameter", seq [labelled "name" (ref "identifier"), lit "?",
    labelled "type" (ref "type_annotation")]),
  ("optional_type", seq [ref "type", lit "?"]),
  ("rest_type", seq [lit "...", ref "type"]),
  ("_tuple_type_member", choice [(ref "tuple_parameter").as "required_parameter",
    (ref "optional_tuple_parameter").as "optional_parameter", ref "optional_type",
    ref "rest_type", ref "type"]),
  ("constructor_type", closing [opt (lit "abstract"), lit "new",
    labelled "type_parameters" (opt (ref "type_parameters")),
    labelled "parameters" (ref "formal_parameters"), lit "=>", labelled "type" (ref "type")]),
  ("primary_type", choice [ref "parenthesized_type", ref "predefined_type",
    ref "_type_identifier", ref "nested_type_identifier", ref "generic_type", ref "object_type",
    ref "array_type", ref "tuple_type", ref "flow_maybe_type", ref "type_query",
    ref "index_type_query", (ref "this").as "this_type", ref "existential_type",
    ref "literal_type", ref "lookup_type", ref "conditional_type", ref "template_literal_type",
    ref "intersection_type", ref "union_type", lit "const"]),
  ("template_type", seq [lit "$\x7b", choice [ref "primary_type", ref "infer_type"],
    lit "\x7d"]),
  ("template_literal_type", seq [lit "\x60",
    rep (choice [(ref "_template_chars").as "string_fragment", ref "template_type"]),
    lit "\x60"]),
  ("infer_type", going [lit "infer", ref "_type_identifier",
    opt (seq [lit "extends", ref "type"])]),
  ("conditional_type", going [labelled "left" (ref "type"), lit "extends",
    labelled "right" (ref "type"), lit "?", labelled "consequence" (ref "type"), lit ":",
    labelled "alternative" (ref "type")]),
  ("generic_type", prec "call" [
    labelled "name" (choice [ref "_type_identifier", ref "nested_type_identifier"]),
    labelled "type_arguments" (ref "type_arguments")]),
  ("type_predicate", seq [
    labelled "name" (choice [ref "identifier", ref "this",
      (ref "predefined_type").as "identifier"]),
    lit "is", labelled "type" (ref "type")]),
  ("type_predicate_annotation", seq [lit ":", ref "type_predicate"]),
  ("_type_query_member_expression", seq [
    labelled "object" (choice [ref "identifier", ref "this", queried "subscript_expression",
      queried "member_expression", queried "call_expression"]),
    anyLit [".", "?."],
    labelled "property" (choice [ref "private_property_identifier", propertyIdentifier])]),
  ("_type_query_subscript_expression", seq [
    labelled "object" (choice [ref "identifier", ref "this", queried "subscript_expression",
      queried "member_expression", queried "call_expression"]),
    opt (lit "?."), lit "[",
    labelled "index" (choice [ref "predefined_type", ref "string", ref "number"]), lit "]"]),
  ("_type_query_call_expression", seq [
    labelled "function" (choice [ref "import", ref "identifier", queried "member_expression",
      queried "subscript_expression"]),
    labelled "arguments" (ref "arguments")]),
  ("_type_query_instantiation_expression", seq [
    labelled "function" (choice [ref "import", ref "identifier", queried "member_expression",
      queried "subscript_expression"]),
    labelled "type_arguments" (ref "type_arguments")]),
  ("type_query", going [lit "typeof",
    choice [queried "subscript_expression", queried "member_expression",
      queried "call_expression", queried "instantiation_expression", ref "identifier",
      ref "this"]]),
  ("index_type_query", seq [lit "keyof", ref "primary_type"]),
  ("lookup_type", seq [ref "primary_type", lit "[", ref "type", lit "]"]),
  ("mapped_type_clause", seq [labelled "name" (ref "_type_identifier"), lit "in",
    labelled "type" (ref "type"), opt (seq [lit "as", labelled "alias" (ref "type")])]),
  ("literal_type", choice [(ref "_number").as "unary_expression", ref "number", ref "string",
    ref "true", ref "false", ref "null", ref "undefined"]),
  ("_number", ranked (.level 1) (some .left) (seq [labelled "operator" eitherSign,
    labelled "argument" (ref "number")])),
  ("existential_type", lit "*"),
  ("flow_maybe_type", going [lit "?", ref "primary_type"]),
  ("parenthesized_type", seq [lit "(", ref "type", lit ")"]),
  ("predefined_type", choice [lit "any", lit "number", lit "boolean", lit "string", lit "symbol",
    (seq [lit "unique", lit "symbol"]).asToken "unique symbol", lit "void", lit "unknown",
    lit "string", lit "never", lit "object"]),
  ("type_arguments", seq [lit "<", commaSep1 (ref "type"), opt (lit ","), lit ">"]),
  ("object_type", seq [anyLit ["\x7b", "\x7b|"],
    opt (seq [opt (anyLit [",", ";"]),
      sepBy1 (choice [lit ",", ref "_semicolon"])
        (choice [ref "export_statement", ref "property_signature", ref "call_signature",
          ref "construct_signature", ref "index_signature", ref "method_signature"]),
      opt (choice [lit ",", ref "_semicolon"])]),
    anyLit ["\x7d", "|\x7d"]]),
  ("call_signature", ref "_call_signature"),
  ("property_signature", seq [opt (ref "accessibility_modifier"), opt (lit "static"),
    opt (ref "override_modifier"), opt (lit "readonly"), labelled "name" (ref "_property_name"),
    opt (lit "?"), labelled "type" (opt (ref "type_annotation"))]),
  ("type_parameters", seq [lit "<", commaSep1 (ref "type_parameter"), opt (lit ","), lit ">"]),
  ("type_parameter", seq [opt (lit "const"), labelled "name" (ref "_type_identifier"),
    labelled "constraint" (opt (ref "constraint")),
    labelled "value" (opt (ref "default_type"))]),
  ("default_type", seq [lit "=", ref "type"]),
  ("constraint", seq [anyLit ["extends", ":"], ref "type"]),
  ("construct_signature", seq [opt (lit "abstract"), lit "new",
    labelled "type_parameters" (opt (ref "type_parameters")),
    labelled "parameters" (ref "formal_parameters"),
    labelled "type" (opt (ref "type_annotation"))]),
  ("index_signature", seq [
    opt (seq [labelled "sign" (opt eitherSign), lit "readonly"]), lit "[",
    choice [
      seq [labelled "name" (choice [ref "identifier", reservedAsIdentifier]), lit ":",
        labelled "index_type" (ref "type")],
      ref "mapped_type_clause"],
    lit "]",
    labelled "type" (choice [ref "type_annotation", ref "omitting_type_annotation",
      ref "adding_type_annotation", ref "opting_type_annotation"])]),
  ("array_type", seq [ref "primary_type", lit "[", lit "]"]),
  ("tuple_type", seq [lit "[", commaSep (ref "_tuple_type_member"), opt (lit ","), lit "]"]),
  ("readonly_type", seq [lit "readonly", ref "type"]),
  ("union_type", closing [opt (ref "type"), lit "|", ref "type"]),
  ("intersection_type", closing [opt (ref "type"), lit "&", ref "type"]),
  ("function_type", closing [labelled "type_parameters" (opt (ref "type_parameters")),
    labelled "parameters" (ref "formal_parameters"), lit "=>",
    labelled "return_type" (choice [ref "type", ref "asserts", ref "type_predicate"])]),
  ("_type_identifier", (ref "identifier").as "type_identifier")]

end CodeAtlas.Grammar.Tsx
