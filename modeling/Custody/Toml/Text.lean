import Custody.Text.Number
import Custody.Text.Read

/-!
The small parts of a settings file: blanks, comments, texts in their four spellings, and keys.
-/

namespace Custody.Toml

open Text (Read)
open Text.Read (mark word one run someOf exactly many optional skip refuse)

def isBlank (c : Char) : Bool := c == ' ' || c == '\t'

def isPlain (c : Char) : Bool := c == '\t' || (32 ≤ c.toNat && c.toNat != 127)

def blanks : Read Unit := skip (run isBlank)

def newline : Read Unit := (mark '\n').orElse (word ['\r', '\n'])

def comment : Read Unit := do
  mark '#'
  skip (run isPlain)

def filler : Read Unit :=
  let commentLine : Read Unit := do
    comment
    newline
  skip (many (newline.orElse ((skip (someOf isBlank)).orElse commentLine)))

/-- What stands behind the backslash of an escape, and what it means. -/
def escapes : List (Char × Char) :=
  [('b', '\x08'), ('t', '\t'), ('n', '\n'), ('f', '\x0c'), ('r', '\r'), ('"', '"'), ('\\', '\\')]

def numbered (width : Nat) : Read Char := do
  let ds ← exactly (Text.isDigit 16) width
  let n := Text.numberOf 16 ds
  if n.isValidChar then pure (Char.ofNat n) else refuse

def escape : Read Char := do
  mark '\\'
  let c ← one fun _ => true
  if c == 'u' then numbered 4
  else if c == 'U' then numbered 8
  else
    match escapes.lookup c with
    | some d => pure d
    | none => refuse

def basicChar : Read Char :=
  (one fun c => isPlain c && c != '"' && c != '\\').orElse escape

def basic : Read String := do
  mark '"'
  let cs ← many basicChar
  mark '"'
  pure (String.ofList cs)

def literal : Read String := do
  mark '\''
  let cs ← run fun c => isPlain c && c != '\''
  mark '\''
  pure (String.ofList cs)

/-- One or two quotes within a text that three quotes end. -/
def innerQuotes (quote : Char) : Read (List Char) := do
  let qs ← run (· == quote)
  if 1 ≤ qs.length && qs.length ≤ 2 then pure qs else refuse

/-- The quotes that end a text of several lines, and up to two in front that belong to it. -/
def closingQuotes (quote : Char) : Read (List Char) := do
  let qs ← run (· == quote)
  if 3 ≤ qs.length && qs.length ≤ 5 then pure (qs.drop 3) else refuse

def textNewline : Read (List Char) := do
  newline
  pure ['\n']

/-- A backslash at the end of a line, which takes the blanks and line ends that follow with it. -/
def joint : Read (List Char) := do
  mark '\\'
  blanks
  newline
  skip (many (newline.orElse (skip (someOf isBlank))))
  pure []

/-- A text of several lines, from its pieces. A line end right at its start does not count. -/
def several (quote : Char) (piece : Read (List Char)) : Read String := do
  word [quote, quote, quote]
  skip (optional newline)
  let pieces ← many (textNewline.orElse (piece.orElse (innerQuotes quote)))
  let rest ← closingQuotes quote
  pure (String.ofList (pieces.flatten ++ rest))

def severalBasic : Read String :=
  several '"' <| joint.orElse do
    let c ← basicChar
    pure [c]

def severalLiteral : Read String :=
  several '\'' do
    let c ← one fun c => isPlain c && c != '\''
    pure [c]

def string : Read String := severalBasic.orElse (basic.orElse (severalLiteral.orElse literal))

def isBare (c : Char) : Bool := c.isAlphanum || c == '_' || c == '-'

def keyPart : Read String := do
  blanks
  let bare : Read String := do
    let cs ← someOf isBare
    pure (String.ofList cs)
  let k ← basic.orElse (literal.orElse bare)
  blanks
  pure k

def maxDepth : Nat := 79

/-- A key: its parts from the outermost table inward, with points between them. -/
def key : Read (List String) := do
  let k ← keyPart
  let more ← many do
    mark '.'
    keyPart
  if more.length < maxDepth then pure (k :: more) else refuse

end Custody.Toml
