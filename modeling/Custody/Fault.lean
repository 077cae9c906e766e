import Custody.Text.Quoted

/-!
Why a document that was asked for some type of value is refused. A fault says what was found and
what was expected, or repeats the words of the check that failed.
-/

namespace Custody

inductive Found where
  | null
  | boolean (b : Bool)
  | integer (i : Int)
  | real (shown : String)
  | text (s : String)
  | sequence
  | map
deriving DecidableEq, Repr

def Found.describe : Found → String
  | .null => "null"
  | .boolean b => s!"boolean `{b}`"
  | .integer i => s!"integer `{i}`"
  | .real shown => s!"floating point `{shown}`"
  | .text s => "string " ++ Text.quoted s
  | .sequence => "sequence"
  | .map => "map"

inductive Fault where
  /-- The text is no document, or holds a string or number that means nothing. -/
  | malformed
  | missingField (name : String)
  | duplicateField (name : String)
  | unknownField (name : String) (expected : List String)
  | unknownVariant (name : String) (expected : List String)
  | invalidType (found : Found) (expected : String)
  | invalidValue (found : Found) (expected : String)
  | invalidLength (length : Nat) (expected : String)
  | refused (reason : String)
deriving DecidableEq, Repr

namespace Fault

def ticked (s : String) : String := s!"`{s}`"

def choice : List String → String
  | [a] => "expected " ++ ticked a
  | [a, b] => "expected " ++ ticked a ++ " or " ++ ticked b
  | names => "expected one of " ++ ", ".intercalate (names.map ticked)

def message : Fault → String
  | .malformed => "invalid JSON"
  | .missingField name => "missing field " ++ ticked name
  | .duplicateField name => "duplicate field " ++ ticked name
  | .unknownField name expected => "unknown field " ++ ticked name ++ ", " ++ choice expected
  | .unknownVariant name expected => "unknown variant " ++ ticked name ++ ", " ++ choice expected
  | .invalidType found expected => "invalid type: " ++ found.describe ++ ", expected " ++ expected
  | .invalidValue found expected => "invalid value: " ++ found.describe ++ ", expected " ++ expected
  | .invalidLength length expected => s!"invalid length {length}, expected " ++ expected
  | .refused reason => reason

end Fault

end Custody
