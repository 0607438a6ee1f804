import Ripple.Language
import Ripple.Names

/-!
# Arguments

The arguments of a command are options and words, in any order. An option is written with its long
name after two hyphens or with its letter after one; several letters may stand behind one hyphen. An
option that takes a value finds it after an equals sign, directly behind its letter, or in the next
argument. Two hyphens alone make words of all arguments after them, and a single hyphen is a word.

Every option may be given once. A command says what the values of its options and its words have to
be, and how many words there may be at most. Nothing is looked at behind an option that ends the
arguments, such as a question for help, but what stands before it has to be in order.
-/

namespace Ripple.CommandLine

/-- What the value of an option, or a word, has to be. -/
inductive ValueKind
  | text
  /-- A path, which must not be empty. -/
  | path
  | language
  deriving DecidableEq, Repr

/-- The text can be such a value. -/
def ValueKind.accepts : ValueKind → String → Bool
  | .text, _ => true
  | .path, value => value != ""
  | .language, value => (Language.parse? value).isSome

/-- What follows an option. -/
inductive OptionKind
  | flag
  /-- The value of the option. -/
  | valued (value : ValueKind)
  /-- Nothing that is looked at. -/
  | last
  deriving DecidableEq, Repr

/-- An option that a command understands. -/
structure OptionSpec where
  name : String
  letter : Option Char
  kind : OptionKind
  deriving DecidableEq, Repr

/-- What the words of a command have to be. -/
structure WordSpec where
  kind : ValueKind
  /-- How many words there may be, unless any number is fine. -/
  limit : Option Nat
  deriving DecidableEq, Repr

def WordSpec.many (kind : ValueKind) : WordSpec := ⟨kind, none⟩

def WordSpec.atMost (limit : Nat) : WordSpec := ⟨.text, some limit⟩

/-- The arguments of a command: the options that were given, with their values, and the words. -/
structure Arguments where
  given : List (String × Option String)
  words : List String
  deriving DecidableEq, Repr

/-- What a single argument says. -/
inductive Argument
  /-- Only words follow. -/
  | separator
  | word
  | options (given : List (String × Option String))
  /-- Options, the last of which has its value in the next argument. -/
  | awaiting (given : List (String × Option String)) (name : String)
  | invalid
  deriving DecidableEq, Repr

namespace Argument

/-- An option with a long name, after the hyphens. -/
def ofLong (specs : List OptionSpec) (text : List Char) : Argument :=
  let name := String.ofList (text.takeWhile (· != '='))
  match (specs.find? (·.name == name)).map OptionSpec.kind, text.dropWhile (· != '=') with
  | none, _ => .invalid
  | some (.valued _), [] => .awaiting [] name
  | some (.valued _), _ :: value => .options [(name, some (String.ofList value))]
  | some _, [] => .options [(name, none)]
  | some _, _ :: _ => .invalid

/-- Options in the form of letters, after the hyphen and the options that were there before. -/
def ofLetters (specs : List OptionSpec) (given : List (String × Option String)) :
    List Char → Argument
  | [] => .options given
  | letter :: rest =>
    match specs.find? (·.letter == some letter) with
    | none => .invalid
    | some spec =>
      match spec.kind, rest with
      | .last, _ => .options (given ++ [(spec.name, none)])
      | .flag, _ => ofLetters specs (given ++ [(spec.name, none)]) rest
      | .valued _, [] => .awaiting given spec.name
      | .valued _, '=' :: value => .options (given ++ [(spec.name, some (String.ofList value))])
      | .valued _, value => .options (given ++ [(spec.name, some (String.ofList value))])

def ofText (specs : List OptionSpec) (text : List Char) : Argument :=
  match text with
  | ['-', '-'] => .separator
  | '-' :: '-' :: long => ofLong specs long
  | ['-'] => .word
  | '-' :: letters => ofLetters specs [] letters
  | _ => .word

end Argument

/-- The argument looks like an option: it starts with a hyphen and is not a hyphen alone. -/
def looksLikeOption (text : String) : Bool := text.toList.head? == some '-' && text != "-"

/-- One of the options given ends the arguments. -/
def endsWith (specs : List OptionSpec) (given : List (String × Option String)) : Bool :=
  given.any fun (name, _) => specs.any fun spec => spec.kind == .last && spec.name == name

namespace Arguments

/-- Reads arguments one after the other, adding to what was read before. -/
def readFrom (specs : List OptionSpec) (a : Arguments) : List String → Option Arguments
  | [] => some a
  | text :: rest =>
    match Argument.ofText specs text.toList with
    | .separator => some { a with words := a.words ++ rest }
    | .word => readFrom specs { a with words := a.words ++ [text] } rest
    | .options given =>
      let a := { a with given := a.given ++ given }
      if endsWith specs given then some a else readFrom specs a rest
    | .awaiting given name =>
      match rest with
      | [] => none
      | value :: rest =>
        -- An option never serves as the value of another one.
        if looksLikeOption value then none
        else readFrom specs { a with given := a.given ++ given ++ [(name, some value)] } rest
    | .invalid => none

/-- The option with a name may have the value. -/
def acceptsValue (specs : List OptionSpec) (name : String) (value : Option String) : Bool :=
  match (specs.find? (·.name == name)).map OptionSpec.kind, value with
  | some (.valued kind), some text => kind.accepts text
  | _, _ => true

/-- The arguments are in order: no option is given twice, every value and every word is what it has
to be, and there are not too many words. -/
def isSound (specs : List OptionSpec) (words : WordSpec) (a : Arguments) : Bool :=
  decide (a.given.map (·.1)).Nodup &&
    a.given.all (fun (name, value) => acceptsValue specs name value) &&
    a.words.all words.kind.accepts && words.limit.all (a.words.length ≤ ·)

def read (specs : List OptionSpec) (words : WordSpec) (texts : List String) : Option Arguments :=
  (readFrom specs ⟨[], []⟩ texts).filter (isSound specs words)

def has (a : Arguments) (name : String) : Bool := (a.given.lookup name).isSome

def value? (a : Arguments) (name : String) : Option String := (a.given.lookup name).join

end Arguments

end Ripple.CommandLine
