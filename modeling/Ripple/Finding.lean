import Ripple.Text.Blank
import Ripple.Text.Lines
import Ripple.Text.Word

/-!
# Findings

A finding is what an analyzer says about a place in a file. Analyzers print one per line:

    file:line:column: severity: message [checker]

`LineStyle.finding?` recognises such a line. The file is the shortest beginning of the line after
which the rest has the form above; it may hold colons. Between the second number and the severity,
and on both sides of the message, there may be several blank characters, and blank characters may
follow the closing bracket. The message may hold colons and brackets, since the checker is what the
last brackets hold. A number that does not fit into 32 bits, or is not written with ASCII digits,
counts as zero.
-/

namespace Ripple

open Text

/-- What an analyzer says about a place in a file. -/
structure Finding where
  file : String
  line : UInt32
  column : UInt32
  severity : String
  message : String
  checker : String
  deriving DecidableEq, Repr

/-- The line that shows a finding. -/
def Finding.render (f : Finding) : String :=
  f.file ++ ":" ++ toString f.line.toNat ++ ":" ++ toString f.column.toNat ++ ": " ++ f.severity ++
    ": " ++ f.message ++ " [" ++ f.checker ++ "]"

/-- How an analyzer writes its findings. -/
structure LineStyle where
  severities : List String
  /-- The characters that names of checkers consist of. -/
  isCheckerChar : Char → Bool
  /-- Whether the file may be empty. -/
  allowsNoFile : Bool

namespace LineStyle

/-- A colon and a run of digits at the start of a text: the digits and the rest. -/
def number? : List Char → Option (List Char × List Char)
  | ':' :: rest =>
    let digits := rest.takeWhile isDecimalDigit
    if digits = [] then none else some (digits, rest.dropWhile isDecimalDigit)
  | _ => none

/-- One of the severities and a colon at the start of a text: the severity and the rest. -/
def severity? (style : LineStyle) (text : List Char) : Option (String × List Char) :=
  style.severities.findSome? fun severity =>
    let opening := severity.toList ++ [':']
    if opening.isPrefixOf text then some (severity, text.drop opening.length) else none

/-- The end of a line, a checker in brackets: what stands before the brackets, which has to end in a
blank character, and the checker. -/
def ending? (style : LineStyle) (line : List Char) : Option (List Char × List Char) :=
  match (trimEnd line).reverse with
  | ']' :: inner =>
    let checker := (inner.takeWhile style.isCheckerChar).reverse
    match inner.dropWhile style.isCheckerChar with
    | '[' :: before =>
      if checker ≠ [] ∧ before.head?.any isBlank then some (before.reverse, checker) else none
    | _ => none
  | _ => none

/-- The message in what stands between the severity and the brackets, which ends in a blank
character and has to begin with another one. -/
def message? (framed : List Char) : Option (List Char) :=
  match framed with
  | first :: _ :: _ => if isBlank first then some (trim framed) else none
  | _ => none

/-- The value of a run of digits, if it fits into 32 bits, else zero. -/
def numberValue (digits : List Char) : UInt32 :=
  UInt32.ofNat ((readNumber UInt32.size digits).getD 0)

/-- The finding that is told by the text between its file and the brackets with its checker. The
file itself is left empty. -/
def after? (style : LineStyle) (checker : List Char) (text : List Char) : Option Finding := do
  let (line, rest) ← number? text
  let (column, rest) ← number? rest
  match rest with
  | ':' :: rest =>
    if rest.head?.any isBlank then
      let (severity, framed) ← style.severity? (trimStart rest)
      let message ← message? framed
      some ⟨"", numberValue line, numberValue column, severity, String.ofList message,
        String.ofList checker⟩
    else none
  | _ => none

/-- The finding with the shortest file that begins with `front`, whose characters are listed last
one first. -/
def findingFrom? (style : LineStyle) (checker : List Char) (front : List Char) :
    List Char → Option Finding
  | [] => none
  | c :: rest =>
    let found? :=
      if front = [] ∧ ¬ style.allowsNoFile then none else style.after? checker (c :: rest)
    match found? with
    | some finding => some { finding with file := String.ofList front.reverse }
    | none => style.findingFrom? checker (c :: front) rest

/-- The finding that a line shows. -/
def finding? (style : LineStyle) (line : List Char) : Option Finding :=
  match style.ending? line with
  | some (body, checker) => style.findingFrom? checker [] body
  | none => none

/-- The findings that the lines of a text show. -/
def findings (style : LineStyle) (text : List Char) : List Finding :=
  (lines text).filterMap style.finding?

end LineStyle

end Ripple
