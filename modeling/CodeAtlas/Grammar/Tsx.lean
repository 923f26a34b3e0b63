import CodeAtlas.Grammar.Tsx.Expression
import CodeAtlas.Grammar.Tsx.Statement
import CodeAtlas.Grammar.Tsx.TypeLevel

/-!
# The grammar of TSX

JavaScript with types and markup: the rules of the modules beside this one in one list, and the
orderings by which operators and keywords that could be read in two ways are decided.
-/

namespace CodeAtlas.Grammar.Tsx

/-- An ordering of named ranks. -/
def ranks (names : List String) : List RankEntry := names.map .rank

/-- An ordering of rules. -/
def rules (names : List String) : List RankEntry := names.map .rule

/-- The orderings that concern values. -/
def valueOrderings : List (List RankEntry) := [
  ranks ["member", "template_call", "call"] ++ rules ["update_expression"]
    ++ ranks ["unary_void", "binary_exp", "binary_times", "binary_plus", "binary_shift",
      "binary_compare", "binary_relation", "binary_equality", "bitwise_and", "bitwise_xor",
      "bitwise_or", "logical_and", "logical_or", "ternary"]
    ++ rules ["sequence_expression", "arrow_function"],
  ranks ["assign"] ++ rules ["primary_expression"],
  ranks ["member", "template_call", "new", "call"] ++ rules ["expression"],
  ranks ["declare", "literal"],
  rules ["primary_expression", "statement_block"] ++ ranks ["object"],
  rules ["meta_property", "import"],
  rules ["import_statement", "import"],
  rules ["export_statement", "primary_expression"],
  rules ["lexical_declaration", "primary_expression"]]

/-- The orderings that concern types. -/
def typeOrderings : List (List RankEntry) := [
  ranks ["call", "instantiation", "unary", "binary"] ++ rules ["await_expression", "arrow_function"],
  ranks ["extends", "instantiation"],
  rules ["intersection_type", "union_type", "conditional_type", "function_type"]
    ++ ranks ["binary"] ++ rules ["type_predicate", "readonly_type"],
  rules ["mapped_type_clause", "primary_expression"],
  rules ["accessibility_modifier", "primary_expression"],
  ranks ["unary_void"] ++ rules ["expression"],
  rules ["extends_clause", "primary_expression"],
  ranks ["unary", "assign"],
  ranks ["declare"] ++ rules ["expression"],
  rules ["predefined_type", "unary_expression"],
  rules ["type", "flow_maybe_type"],
  rules ["tuple_type", "array_type", "pattern", "type"],
  rules ["readonly_type", "pattern"],
  rules ["readonly_type", "primary_expression"],
  rules ["type_query", "subscript_expression", "expression"],
  rules ["type_query", "_type_query_subscript_expression"],
  rules ["nested_type_identifier", "generic_type", "primary_type", "lookup_type",
    "index_type_query", "type"],
  rules ["as_expression", "satisfies_expression", "primary_type"],
  rules ["_type_query_member_expression", "member_expression"],
  rules ["member_expression", "_type_query_member_expression_in_type_annotation"],
  rules ["_type_query_member_expression", "primary_expression"],
  rules ["_type_query_subscript_expression", "subscript_expression"],
  rules ["_type_query_subscript_expression", "primary_expression"],
  rules ["_type_query_call_expression", "primary_expression"],
  rules ["_type_query_instantiation_expression", "primary_expression"],
  rules ["type_query", "primary_expression"],
  rules ["override_modifier", "primary_expression"],
  rules ["decorator_call_expression", "decorator"],
  rules ["literal_type", "pattern"],
  rules ["predefined_type", "pattern"],
  rules ["call_expression", "_type_query_call_expression"],
  rules ["call_expression", "_type_query_call_expression_in_type_annotation"],
  rules ["new_expression", "primary_expression"],
  rules ["meta_property", "primary_expression"],
  rules ["construct_signature", "_property_name"]]

/-- The whole grammar. -/
def grammar : Rulebook where
  rules := moduleRules ++ statementRules ++ expressionRules ++ markupRules ++ functionRules
    ++ operatorRules ++ primitives ++ memberRules ++ declarationRules ++ annotationRules
    ++ typeRules
  extras := ["comment", "html_comment"]
  blanks := blanks
  contextual := [⟨"_automatic_semicolon", false⟩, ⟨"_template_chars", false⟩,
    ⟨"_ternary_qmark", false⟩, ⟨"html_comment", false⟩, ⟨"||", true⟩, ⟨"escape_sequence", true⟩,
    ⟨"regex_pattern", true⟩, ⟨"jsx_text", false⟩,
    ⟨"_function_signature_automatic_semicolon", false⟩, ⟨"__error_recovery", false⟩]
  word := "identifier"
  supertypes := ["statement", "declaration", "expression", "primary_expression", "pattern", "type",
    "primary_type"]
  inlined := ["_expressions", "_semicolon", "_identifier", "_reserved_identifier",
    "_jsx_attribute", "_jsx_element_name", "_jsx_child", "_jsx_element", "_jsx_attribute_name",
    "_jsx_attribute_value", "_jsx_identifier", "_lhs_expression", "_type_identifier",
    "_jsx_start_opening_element"]
  orderings := valueOrderings ++ typeOrderings
  confined := ["unescaped_double_string_fragment", "unescaped_single_string_fragment",
    "unescaped_double_jsx_string_fragment", "unescaped_single_jsx_string_fragment",
    "regex_pattern", "regex_flags", "jsx_identifier", "html_character_reference", "?:"]

end CodeAtlas.Grammar.Tsx
