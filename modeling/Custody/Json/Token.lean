import Custody.Json.Basic

/-!
The tokens of a document. Bytes are taken one at a time by a small machine, which is between tokens,
inside a bare word, or inside a string. Blanks separate tokens; a string is decoded when it closes.
-/

namespace Custody.Json

/-- A token of a document. -/
inductive Token where
  | beginArray
  | endArray
  | beginObject
  | endObject
  | colon
  | comma
  | null
  | bool (b : Bool)
  | number (n : Numeral)
  | string (text : Option String)

namespace Token

/-- A part of a string: a byte that stands for itself, or a code unit written as an escape. -/
inductive Piece where
  | byte (b : UInt8)
  | unit (u : Nat)

/-- The bytes of a string, from its pieces in reverse, in front of those already made. Two code
units make one character when the first is a leading and the second a trailing surrogate; a
surrogate that stands alone makes none. -/
def assemble : List Piece → Bytes → Option Bytes
  | [], done => some done
  | .byte b :: rest, done => assemble rest (b :: done)
  | .unit u :: rest, done =>
    if 0xDC00 ≤ u ∧ u < 0xE000 then
      match rest with
      | .unit lead :: rest =>
        if 0xD800 ≤ lead ∧ lead < 0xDC00 then
          let c := Char.ofNat (0x10000 + (lead - 0xD800) * 0x400 + (u - 0xDC00))
          assemble rest (String.utf8EncodeChar c ++ done)
        else none
      | _ => none
    else if 0xD800 ≤ u ∧ u < 0xDC00 then none
    else assemble rest (String.utf8EncodeChar (Char.ofNat u) ++ done)

def text? (reversed : List Piece) : Option String := (assemble reversed []).bind Bytes.text?

def unescape? (c : UInt8) : Option UInt8 :=
  if c = 34 ∨ c = 92 ∨ c = 47 then some c
  else if c = 98 then some 8
  else if c = 102 then some 12
  else if c = 110 then some 10
  else if c = 114 then some 13
  else if c = 116 then some 9
  else none

def hexValue? (c : UInt8) : Option Nat :=
  if 48 ≤ c ∧ c ≤ 57 then some (c.toNat - 48)
  else if 97 ≤ c ∧ c ≤ 102 then some (c.toNat - 87)
  else if 65 ≤ c ∧ c ≤ 70 then some (c.toNat - 55)
  else none

/-- Bytes that bare words are made of: letters, digits, signs and the point. -/
def isWordByte (c : UInt8) : Bool :=
  (48 ≤ c && c ≤ 57) || (65 ≤ c && c ≤ 90) || (97 ≤ c && c ≤ 122) || c == 43 || c == 45 || c == 46

def ofWord? (w : Bytes) : Option Token :=
  if w = [110, 117, 108, 108] then some .null
  else if w = [116, 114, 117, 101] then some (.bool true)
  else if w = [102, 97, 108, 115, 101] then some (.bool false)
  else (Numeral.ofBytes? w).map .number

def ofMark? (c : UInt8) : Option Token :=
  if c = 91 then some .beginArray
  else if c = 93 then some .endArray
  else if c = 123 then some .beginObject
  else if c = 125 then some .endObject
  else if c = 58 then some .colon
  else if c = 44 then some .comma
  else none

def isBlank (c : UInt8) : Bool := c == 32 || c == 9 || c == 10 || c == 13

/-- Where the machine stands. What has been read of a token is kept in reverse. -/
inductive Mode where
  | between
  | word (read : Bytes)
  | string (read : List Piece)
  | escape (read : List Piece)
  | unit (read : List Piece) (value count : Nat)

/-- The machine: where it stands, and the tokens made so far, latest first. -/
structure Lexer where
  mode : Mode
  made : List Token

namespace Lexer

def fresh (made : List Token) (c : UInt8) : Option Lexer :=
  if isBlank c then some ⟨.between, made⟩
  else if c = 34 then some ⟨.string [], made⟩
  else if isWordByte c then some ⟨.word [c], made⟩
  else (ofMark? c).map fun t => ⟨.between, t :: made⟩

/-- Takes one byte; `none` if no document goes on with it. -/
def step (l : Lexer) (c : UInt8) : Option Lexer :=
  match l.mode with
  | .between => fresh l.made c
  | .word read =>
    if isWordByte c then some ⟨.word (c :: read), l.made⟩
    else (ofWord? read.reverse).bind fun t => fresh (t :: l.made) c
  | .string read =>
    if c = 34 then some ⟨.between, .string (text? read) :: l.made⟩
    else if c = 92 then some ⟨.escape read, l.made⟩
    else if c < 32 then none
    else some ⟨.string (.byte c :: read), l.made⟩
  | .escape read =>
    if c = 117 then some ⟨.unit read 0 0, l.made⟩
    else (unescape? c).map fun b => ⟨.string (.byte b :: read), l.made⟩
  | .unit read value count =>
    (hexValue? c).map fun d =>
      let value := value * 16 + d
      if count = 3 then ⟨.string (.unit value :: read), l.made⟩
      else ⟨.unit read value (count + 1), l.made⟩

def finish (l : Lexer) : Option (List Token) :=
  match l.mode with
  | .between => some l.made.reverse
  | .word read => (ofWord? read.reverse).map fun t => (t :: l.made).reverse
  | _ => none

end Lexer

def ofBytes? (s : Bytes) : Option (List Token) :=
  (s.foldlM Lexer.step ⟨.between, []⟩).bind Lexer.finish

end Token

end Custody.Json
