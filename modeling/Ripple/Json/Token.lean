import Ripple.Json.Value

/-!
# JSON tokens

The text of a JSON value is cut into tokens by a machine that reads one character at a time. Outside
strings it collects the characters of a literal word or number until another kind of character ends
it. Inside a string it knows the text read so far and whether a high surrogate escape waits for its
low partner.
-/

namespace Ripple.Json

open Text

/-- A token: a bracket, a separator, a string, or another value without parts. -/
inductive Token
  | openArray
  | closeArray
  | openObject
  | closeObject
  | comma
  | colon
  | string (text : LiteralText)
  | scalar (value : Json)

/-! ## String literals -/

/-- The code unit is the first half of a surrogate pair. -/
def isHighSurrogate (unit : Nat) : Bool := 0xD800 ≤ unit && unit < 0xDC00

/-- The code unit is the second half of a surrogate pair. -/
def isLowSurrogate (unit : Nat) : Bool := 0xDC00 ≤ unit && unit < 0xE000

/-- A string literal under way: its characters, latest first, a high surrogate that waits for its
partner, and whether some surrogate has been left alone. -/
structure Quoted where
  chars : List Char
  waiting : Option Nat
  broken : Bool

namespace Quoted

def empty : Quoted := ⟨[], none, false⟩

def push (q : Quoted) (c : Char) : Quoted := ⟨c :: q.chars, none, q.broken || q.waiting.isSome⟩

/-- One more code unit, written as an escape. -/
def pushUnit (q : Quoted) (unit : Nat) : Quoted :=
  match q.waiting with
  | some high =>
    if isLowSurrogate unit then
      ⟨Char.ofNat (0x10000 + 0x400 * (high - 0xD800) + (unit - 0xDC00)) :: q.chars, none, q.broken⟩
    else ⟨q.chars, none, true⟩
  | none =>
    if isHighSurrogate unit then ⟨q.chars, some unit, q.broken⟩
    else if isLowSurrogate unit then ⟨q.chars, none, true⟩
    else ⟨Char.ofNat unit :: q.chars, none, q.broken⟩

/-- The text when the literal ends here. -/
def text (q : Quoted) : LiteralText :=
  if q.broken || q.waiting.isSome then none else some (String.ofList q.chars.reverse)

end Quoted

/-! ## The machine -/

/-- Where the machine stands. -/
inductive Mode
  | between
  /-- Inside a word or number; its characters, latest first. -/
  | word (chars : List Char)
  | quoted (q : Quoted)
  | escape (q : Quoted)
  /-- Inside a four-digit escape, with the digits still to come and the value so far. -/
  | unit (q : Quoted) (digits : Nat) (value : Nat)

/-- The machine between two characters; the tokens read, latest first. -/
structure Lexer where
  mode : Mode
  tokens : List Token

/-- The four blank characters of JSON. -/
def isSpace (c : Char) : Bool := c == ' ' || c == '\n' || c == '\t' || c == '\r'

/-- The character may stand in a word or a number. -/
def isWordPart (c : Char) : Bool :=
  ('a' ≤ c && c ≤ 'z') || ('A' ≤ c && c ≤ 'Z') || ('0' ≤ c && c ≤ '9') || c == '+' || c == '-' ||
    c == '.'

/-- The value that a word or number stands for. -/
def ofWord? (word : List Char) : Option Json :=
  if word = "null".toList then some .null
  else if word = "true".toList then some (.bool true)
  else if word = "false".toList then some (.bool false)
  else (Numeral.read word).map .number

/-- The token that a character is by itself. -/
def punctuation? (c : Char) : Option Token :=
  match c with
  | '[' => some .openArray
  | ']' => some .closeArray
  | '{' => some .openObject
  | '}' => some .closeObject
  | ',' => some .comma
  | ':' => some .colon
  | _ => none

/-- The character that a backslash and the given one stand for. -/
def escaped? (c : Char) : Option Char :=
  match c with
  | '"' => some '"'
  | '\\' => some '\\'
  | '/' => some '/'
  | 'b' => some '\x08'
  | 'f' => some '\x0c'
  | 'n' => some '\n'
  | 'r' => some '\r'
  | 't' => some '\t'
  | _ => none

/-- The value of a hexadecimal digit in either case. -/
def hexValue? (c : Char) : Option Nat :=
  if '0' ≤ c ∧ c ≤ '9' then some (c.toNat - '0'.toNat)
  else if 'a' ≤ c ∧ c ≤ 'f' then some (c.toNat - 'a'.toNat + 10)
  else if 'A' ≤ c ∧ c ≤ 'F' then some (c.toNat - 'A'.toNat + 10)
  else none

/-- A character between two tokens. -/
def Lexer.between (tokens : List Token) (c : Char) : Option Lexer :=
  if isSpace c then some ⟨.between, tokens⟩
  else if c = '"' then some ⟨.quoted .empty, tokens⟩
  else if isWordPart c then some ⟨.word [c], tokens⟩
  else (punctuation? c).map fun token => ⟨.between, token :: tokens⟩

def Lexer.step (l : Lexer) (c : Char) : Option Lexer :=
  match l.mode with
  | .between => Lexer.between l.tokens c
  | .word chars =>
    if isWordPart c then some ⟨.word (c :: chars), l.tokens⟩
    else (ofWord? chars.reverse).bind fun value => Lexer.between (.scalar value :: l.tokens) c
  | .quoted q =>
    if c = '"' then some ⟨.between, .string q.text :: l.tokens⟩
    else if c = '\\' then some ⟨.escape q, l.tokens⟩
    else if c.toNat < 0x20 then none
    else some ⟨.quoted (q.push c), l.tokens⟩
  | .escape q =>
    if c = 'u' then some ⟨.unit q 4 0, l.tokens⟩
    else (escaped? c).map fun e => ⟨.quoted (q.push e), l.tokens⟩
  | .unit q digits value =>
    (hexValue? c).map fun d =>
      if digits ≤ 1 then ⟨.quoted (q.pushUnit (16 * value + d)), l.tokens⟩
      else ⟨.unit q (digits - 1) (16 * value + d), l.tokens⟩

/-- The tokens when the text ends here. -/
def Lexer.finish (l : Lexer) : Option (List Token) :=
  match l.mode with
  | .between => some l.tokens.reverse
  | .word chars =>
    (ofWord? chars.reverse).map fun value => (.scalar value :: l.tokens).reverse
  | _ => none

/-- The tokens of a text. -/
def tokens? (text : List Char) : Option (List Token) :=
  (text.foldlM Lexer.step ⟨.between, []⟩).bind Lexer.finish

end Ripple.Json
