import Custody.Json.Token

/-!
From tokens to the tree. A machine takes one token at a time and keeps the arrays and objects that
are still open, innermost first, so that nesting may be of any depth.
-/

namespace Custody.Json

/-- An array or object that is still open. Its parts are kept latest first; an object also keeps the
name whose value comes next. -/
inductive Layer where
  | array (items : List Json)
  | object (members : List (Option String × Json)) (name : Option String)

inductive Reader where
  | value (layers : List Layer)
  | firstItem (layers : List Layer)
  | firstName (layers : List Layer)
  | name (members : List (Option String × Json)) (layers : List Layer)
  | colon (members : List (Option String × Json)) (name : Option String) (layers : List Layer)
  | done (j : Json) (layers : List Layer)

namespace Reader

def start (layers : List Layer) : Token → Option Reader
  | .null => some (.done .null layers)
  | .bool b => some (.done (.bool b) layers)
  | .number n => some (.done (.number n) layers)
  | .string t => some (.done (.string t) layers)
  | .beginArray => some (.firstItem layers)
  | .beginObject => some (.firstName layers)
  | _ => none

def step : Reader → Token → Option Reader
  | .value layers, t => start layers t
  | .firstItem layers, .endArray => some (.done (.array []) layers)
  | .firstItem layers, t => start (.array [] :: layers) t
  | .firstName layers, .endObject => some (.done (.object []) layers)
  | .firstName layers, .string s => some (.colon [] s layers)
  | .name members layers, .string s => some (.colon members s layers)
  | .colon members s layers, .colon => some (.value (.object members s :: layers))
  | .done j (.array items :: layers), .comma => some (.value (.array (j :: items) :: layers))
  | .done j (.array items :: layers), .endArray =>
    some (.done (.array (j :: items).reverse) layers)
  | .done j (.object members s :: layers), .comma => some (.name ((s, j) :: members) layers)
  | .done j (.object members s :: layers), .endObject =>
    some (.done (.object ((s, j) :: members).reverse) layers)
  | _, _ => none

def finish : Reader → Option Json
  | .done j [] => some j
  | _ => none

end Reader

def ofTokens? (ts : List Token) : Option Json :=
  (ts.foldlM Reader.step (.value [])).bind Reader.finish

def parse? (s : Bytes) : Option Json := (Token.ofBytes? s).bind ofTokens?

end Custody.Json
