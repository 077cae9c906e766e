import Custody.Json.Basic

/-!
The written form of a document: no blanks, members in their order, and in strings only the quote,
the backslash and control characters escaped.
-/

namespace Custody.Json

def hexByte (d : Nat) : UInt8 := if d < 10 then (48 + d).toUInt8 else (87 + d).toUInt8

def escape (c : UInt8) : Bytes :=
  if c = 34 then [92, 34]
  else if c = 92 then [92, 92]
  else if c = 8 then [92, 98]
  else if c = 12 then [92, 102]
  else if c = 10 then [92, 110]
  else if c = 13 then [92, 114]
  else if c = 9 then [92, 116]
  else if c < 32 then [92, 117, 48, 48, hexByte (c.toNat / 16), hexByte (c.toNat % 16)]
  else [c]

def renderText (s : String) : Bytes := 34 :: (Bytes.ofText s).flatMap escape ++ [34]

/-- A string; one that holds no text is written as a lone surrogate. -/
def renderString : Option String → Bytes
  | some s => renderText s
  | none => [34, 92, 117, 100, 56, 48, 48, 34]

mutual

def render : Json → Bytes
  | .null => [110, 117, 108, 108]
  | .bool true => [116, 114, 117, 101]
  | .bool false => [102, 97, 108, 115, 101]
  | .number n => n.render
  | .string s => renderString s
  | .array [] => [91, 93]
  | .array (j :: rest) => 91 :: render j ++ renderItems rest
  | .object [] => [123, 125]
  | .object ((s, j) :: rest) => 123 :: renderString s ++ 58 :: render j ++ renderMembers rest

/-- The items after the first, and the closing bracket. -/
def renderItems : List Json → Bytes
  | [] => [93]
  | j :: rest => 44 :: render j ++ renderItems rest

/-- The members after the first, and the closing brace. -/
def renderMembers : List (Option String × Json) → Bytes
  | [] => [125]
  | (s, j) :: rest => 44 :: renderString s ++ 58 :: render j ++ renderMembers rest

end

/-- The written form as a text; it is one, because strings hold texts and all else is ASCII. -/
def compact (j : Json) : String := (Bytes.text? j.render).getD ""

end Custody.Json
