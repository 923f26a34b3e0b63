import CodeAtlas.Grammar.Rule

/-!
# Tokens of TSX

The tokens that are recognized by a pattern, the blanks between tokens, and the literals that are
built from them: strings, templates, regular expressions and property names.
-/

namespace CodeAtlas.Grammar.Tsx

open Rule Pattern

/-- Space separators other than the plain space. -/
def spaceSeparators : List (Nat × Nat) :=
  [(0xA0, 0xA0), (0x1680, 0x1680), (0x2000, 0x200A), (0x202F, 0x202F), (0x205F, 0x205F),
    (0x3000, 0x3000)]

/-- The ends of a line that are no control characters. -/
def lineSeparators : List (Nat × Nat) := [(0x2028, 0x2029)]

/-- Characters that may stand between two tokens. -/
def blanks : CharSet :=
  ⟨false, [(0x09, 0x0D), (0x20, 0x20), (0xFEFF, 0xFEFF), (0x2060, 0x2060), (0x200B, 0x200B)]
    ++ lineSeparators ++ spaceSeparators⟩

/-- The signs that no identifier holds. -/
def signs : CharSet := CharSet.anyOf ":;\x60\"'@#.,|^&<=>+-*/\\%?!~()[]\x7b\x7d"

/-- What an identifier goes on with. -/
def identifierPart : CharSet :=
  ((CharSet.range 0 0x1F).or (blanks.or signs)).complement

/-- What an identifier begins with. -/
def identifierStart : CharSet :=
  ((CharSet.range 0 0x1F).or (blanks.or (signs.or (CharSet.range 0x30 0x39)))).complement

/-- A decimal digit. -/
def digit : Pattern := one (CharSet.range 0x30 0x39)

/-- A hexadecimal digit. -/
def hexDigit : Pattern := one ⟨false, [(0x30, 0x39), (0x41, 0x46), (0x61, 0x66)]⟩

/-- A code point written by its number. -/
def unicodeEscape : Pattern :=
  anyOf [inOrder [text "\\u", times hexDigit 4 0],
    inOrder [text "\\u\x7b", plus hexDigit, text "\x7d"]]

/-- The pattern of an identifier. -/
def identifierPattern : Pattern :=
  chain (union (one identifierStart) unicodeEscape)
    (star (union (one identifierPart) unicodeEscape))

/-- Digits, with single underscores between them. -/
def digitGroup (d : Pattern) : Pattern := chain d (star (chain (optional (text "_")) d))

/-- The pattern of a number. -/
def numberPattern : Pattern :=
  let hexLiteral := chain (union (text "0x") (text "0X")) (digitGroup hexDigit)
  let binaryLiteral := chain (union (text "0b") (text "0B"))
    (digitGroup (one (CharSet.range 0x30 0x31)))
  let octalLiteral := chain (union (text "0o") (text "0O"))
    (digitGroup (one (CharSet.range 0x30 0x37)))
  let decimalDigits := digitGroup digit
  let exponent := inOrder [one (CharSet.anyOf "eE"), optional (one (CharSet.anyOf "+-")),
    decimalDigits]
  let bigLiteral := chain (anyOf [hexLiteral, binaryLiteral, octalLiteral, decimalDigits])
    (text "n")
  let decimalInteger := union (text "0")
    (inOrder [optional (text "0"), one (CharSet.range 0x31 0x39),
      optional (chain (optional (text "_")) decimalDigits)])
  let decimalLiteral := anyOf [
    inOrder [decimalInteger, text ".", optional decimalDigits, optional exponent],
    inOrder [text ".", decimalDigits, optional exponent],
    chain decimalInteger exponent,
    decimalDigits]
  anyOf [hexLiteral, decimalLiteral, binaryLiteral, octalLiteral, bigLiteral]

/-- The pattern of a comment. -/
def commentPattern : Pattern :=
  let notStar := one (CharSet.noneOf "*")
  let stars := plus (text "*")
  union
    (chain (text "//") (star (one ⟨true, [(0x0A, 0x0A), (0x0D, 0x0D)] ++ lineSeparators⟩)))
    (inOrder [text "/*", star notStar, stars,
      star (inOrder [one (CharSet.noneOf "/*"), star notStar, stars]), text "/"])

/-- The pattern of an escape in a string. -/
def escapePattern : Pattern :=
  let octal := one (CharSet.range 0x30 0x37)
  chain (text "\\") (anyOf [
    one ⟨true, [(0x78, 0x78), (0x75, 0x75), (0x30, 0x37)]⟩,
    times octal 1 2,
    chain (text "x") (times hexDigit 2 0),
    chain (text "u") (times hexDigit 4 0),
    inOrder [text "u\x7b", plus hexDigit, text "\x7d"],
    chain (one (CharSet.anyOf "\x0d?")) (one ⟨false, [(0x0A, 0x0A)] ++ lineSeparators⟩)])

/-- The pattern of the inside of a regular expression. -/
def regexPattern : Pattern :=
  let escaped := chain (text "\\") (one (CharSet.noneOf "\n"))
  plus (anyOf [
    inOrder [text "[", star (union escaped (one (CharSet.noneOf "]\n\\"))), text "]"],
    escaped,
    one (CharSet.noneOf "/\\[\n")])

/-- The pattern of a character written by name or number in markup. -/
def characterReferencePattern : Pattern :=
  let letter := one ⟨false, [(0x41, 0x5A), (0x61, 0x7A)]⟩
  inOrder [text "&",
    union
      (chain (text "#") (union (chain (one (CharSet.anyOf "xX")) (times hexDigit 1 5))
        (times digit 1 4)))
      (times letter 1 29),
    text ";"]

/-- Text of an attribute up to the quote `q` or a character reference. -/
def attributeText (q : String) : Pattern :=
  plus (union (one (CharSet.noneOf (q ++ "&")))
    (chain (text "&") (one ⟨true, [(0x23, 0x23), (0x41, 0x5A), (0x61, 0x7A)]⟩)))

/-- The pattern of a markup name with a hyphen. -/
def hyphenatedPattern : Pattern :=
  let part := CharSet.anyOf "_$" |>.or ⟨false, [(0x30, 0x39), (0x41, 0x5A), (0x61, 0x7A)]⟩
  inOrder [one (CharSet.anyOf "_$" |>.or ⟨false, [(0x41, 0x5A), (0x61, 0x7A)]⟩), star (one part),
    text "-", star (one (part.or (CharSet.anyOf "-")))]

/-- A token that stands alone as a rule. -/
def token (p : Pattern) : Rule := lexeme false 0 none p

/-- A token that follows its predecessor without a blank. -/
def immediate (priority : Int) (p : Pattern) : Rule := lexeme true priority none p

/-- A quoted string whose plain parts are the rule `fragment`, of which the escapes `other` are
shown beside them. -/
def quoted (q fragment other : String) : Rule :=
  seq [lit q, rep (choice [(ref fragment).as "string_fragment", ref other]), lit q]

/-- Any of several tokens. -/
def anyLit (ts : List String) : Rule := choice (ts.map lit)

/-- An identifier, or a word that may be used as one, shown under one name. -/
def namedAs (kind : String) : Rule :=
  (choice [ref "identifier", ref "_reserved_identifier"]).as kind

/-- A property after a point. -/
def propertyIdentifier : Rule := (ref "identifier").as "property_identifier"

/-- A word that may be used as an identifier, shown as one. -/
def reservedAsIdentifier : Rule := (ref "_reserved_identifier").as "identifier"

/-- Strings, templates, regular expressions, numbers and names. -/
def primitives : List (String × Rule) := [
  ("string", choice [quoted "\"" "unescaped_double_string_fragment" "escape_sequence",
    quoted "'" "unescaped_single_string_fragment" "escape_sequence"]),
  ("unescaped_double_string_fragment", immediate 1 (plus (one (CharSet.noneOf "\"\\\x0d\n")))),
  ("unescaped_single_string_fragment", immediate 1 (plus (one (CharSet.noneOf "'\\\x0d\n")))),
  ("escape_sequence", immediate 0 escapePattern),
  ("comment", token commentPattern),
  ("template_string", seq [lit "\x60",
    rep (choice [(ref "_template_chars").as "string_fragment", ref "escape_sequence",
      ref "template_substitution"]),
    lit "\x60"]),
  ("template_substitution", seq [lit "$\x7b", ref "_expressions", lit "\x7d"]),
  ("regex", seq [lit "/", labelled "pattern" (ref "regex_pattern"),
    lexeme true 1 (some "/") (text "/"), opt (labelled "flags" (ref "regex_flags"))]),
  ("regex_pattern", immediate (-1) regexPattern),
  ("regex_flags", immediate 0 (plus (one (CharSet.range 0x61 0x7A)))),
  ("number", token numberPattern),
  ("_identifier", choice [ref "undefined", ref "identifier"]),
  ("identifier", token identifierPattern),
  ("private_property_identifier", token (chain (text "#") identifierPattern)),
  ("meta_property", choice [seq [lit "new", lit ".", lit "target"],
    seq [lit "import", lit ".", lit "meta"]]),
  ("this", lit "this"),
  ("super", lit "super"),
  ("true", lit "true"),
  ("false", lit "false"),
  ("null", lit "null"),
  ("undefined", lit "undefined")]

end CodeAtlas.Grammar.Tsx
