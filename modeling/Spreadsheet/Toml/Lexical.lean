import Spreadsheet.Toml.Reader

namespace Spreadsheet.Toml

open Reader

def isSpace (c : Char) : Bool :=
  c == ' ' || c == '\t'

def spaces : Reader Unit :=
  discard (all isSpace)

/-- A line ends with a line feed, perhaps after a carriage return. -/
def newline : Reader Unit :=
  orElse (exactly ['\n']) (exactly ['\r', '\n'])

/-- The characters of comments and literal strings: no control character but the tab. -/
def isPrintable (c : Char) : Bool :=
  c == '\t' || (c.toNat ≥ 0x20 && c.toNat ≠ 0x7f)

def comment : Reader Unit := do
  discard (char '#')
  discard (all isPrintable)

/-- The end of a statement: perhaps a comment, then the end of the line or of the text. -/
def lineEnd : Reader Unit := do
  spaces
  discard (optional comment)
  fun text => if text.isEmpty then some ((), []) else newline text

/-- Spaces, line ends and comments between the elements of an array. -/
def filler : Reader Unit :=
  discard (many (oneOf
    [discard (satisfying isSpace), newline, comment *> newline]))

def isHexDigit (c : Char) : Bool :=
  c.isDigit || ('a' ≤ c && c ≤ 'f') || ('A' ≤ c && c ≤ 'F')

def digitNumber (c : Char) : Nat :=
  if c.isDigit then c.toNat - '0'.toNat
  else if 'a' ≤ c then c.toNat - 'a'.toNat + 10
  else c.toNat - 'A'.toNat + 10

def ofDigits (base : Nat) (digits : List Char) : Nat :=
  digits.foldl (fun total c => base * total + digitNumber c) 0

def codePoint (count : Nat) : Reader Char := do
  let digits ← times isHexDigit count
  let code := ofDigits 16 digits
  if code.isValidChar then return Char.ofNat code else fail

def escape : Reader Char := do
  discard (char '\\')
  match ← satisfying fun _ => true with
  | 'b' => return '\x08'
  | 't' => return '\t'
  | 'n' => return '\n'
  | 'f' => return '\x0c'
  | 'r' => return '\r'
  | '"' => return '"'
  | '\\' => return '\\'
  | 'u' => codePoint 4
  | 'U' => codePoint 8
  | _ => fail

def basicString : Reader (List Char) := do
  discard (char '"')
  let content ←
    many (orElse escape (satisfying fun c => isPrintable c && c ≠ '"' && c ≠ '\\'))
  discard (char '"')
  return content

/-- A string in single quotes on one line; nothing in it is an escape. -/
def literalString : Reader (List Char) := do
  discard (char '\'')
  let content ← all fun c => isPrintable c && c ≠ '\''
  discard (char '\'')
  return content

/-- Three quotes that end a string, after up to two more that belong to it. -/
def closingQuotes (quote : Char) : Reader (List Char) := do
  exactly [quote, quote, quote]
  upTo (char quote) 2

/-- Text between three quotes, from pieces of content. -/
def betweenTriples (quote : Char) (piece : Reader (List Char)) : Reader (List Char) := do
  exactly [quote, quote, quote]
  discard (optional newline)
  let content ← many (do
    notBefore (exactly [quote, quote, quote])
    oneOf [List.singleton <$> char quote, newline *> pure ['\n'], piece])
  let quotes ← closingQuotes quote
  return content.flatten ++ quotes

/-- A backslash at the end of a line takes the line end and the blanks after it away. -/
def continuation : Reader (List Char) := do
  discard (char '\\')
  spaces
  newline
  discard (many (orElse (discard (satisfying isSpace)) newline))
  return []

/-- A string in three double quotes, which may go over several lines. -/
def multilineBasicString : Reader (List Char) :=
  betweenTriples '"' (oneOf
    [continuation, List.singleton <$> escape,
      List.singleton <$> satisfying fun c => isPrintable c && c ≠ '"' && c ≠ '\\'])

/-- A string in three single quotes, which may go over several lines. -/
def multilineLiteralString : Reader (List Char) :=
  betweenTriples '\'' (List.singleton <$> satisfying fun c => isPrintable c && c ≠ '\'')

def string : Reader (List Char) :=
  oneOf [multilineBasicString, multilineLiteralString, basicString, literalString]

def isBareKey (c : Char) : Bool :=
  c.isAlphanum || c == '_' || c == '-'

def simpleKey : Reader String :=
  String.ofList <$> oneOf [some1 isBareKey, basicString, literalString]

def nestingLimit : Nat := 80

def key : Reader (List String) :=
  verify (separated (spaces *> simpleKey <* spaces) (char '.')) fun names =>
    names.length < nestingLimit

end Spreadsheet.Toml
