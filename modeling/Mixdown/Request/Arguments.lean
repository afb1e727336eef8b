import Mixdown.Decimal

/-! Command-line arguments taken apart into positions, flags and options with values. -/

namespace Mixdown

/-- What may stand behind the name of an option. -/
inductive OptionShape where
  /-- The name alone. -/
  | flag
  /-- A value, behind an equals sign or as the next argument. -/
  | valued
  deriving DecidableEq, Repr

/-- Arguments by their role; a flag is listed with an empty value. -/
structure Arguments where
  positions : List String
  options : List (String × String)
  deriving DecidableEq, Repr

namespace Arguments

/-- An argument that begins with a hyphen and is not the hyphen alone. -/
def looksLikeOption (argument : String) : Bool :=
  argument.startsWith "-" && argument ≠ "-"

/-- The arguments with one more position. -/
def addPosition (arguments : Arguments) (position : String) : Arguments :=
  { arguments with positions := arguments.positions ++ [position] }

/-- The arguments with one more option, of which each may be given once. -/
def addOption? (arguments : Arguments) (name value : String) : Option Arguments :=
  -- A name that was given before refuses the whole line.
  if arguments.options.any (·.1 = name) then none
  else some { arguments with options := arguments.options ++ [(name, value)] }

/-- The name of an option and the value behind its equals sign, if it has one. -/
def splitName (argument : String) : String × Option String :=
  let text := argument.toList
  let name := String.ofList (text.takeWhile (· ≠ '='))
  match text.dropWhile (· ≠ '=') with
  | [] => (name, none)
  | _ :: value => (name, some (String.ofList value))

/-- Takes arguments apart, given the options there are; behind two hyphens all are positions. -/
def scan? (shapes : List (String × OptionShape)) :
    List String → Arguments → Option Arguments
  | [], arguments => some arguments
  | argument :: rest, arguments =>
    if argument = "--" then
      some { arguments with positions := arguments.positions ++ rest }
    else if !looksLikeOption argument then scan? shapes rest (arguments.addPosition argument)
    else
      let (name, inline) := splitName argument
      match shapes.lookup name, inline, rest with
      | some .flag, none, rest => do scan? shapes rest (← arguments.addOption? name "")
      | some .valued, some value, rest => do scan? shapes rest (← arguments.addOption? name value)
      | some .valued, none, value :: rest =>
        -- A value with a hyphen in front has to stand behind an equals sign.
        if looksLikeOption value then none
        else do scan? shapes rest (← arguments.addOption? name value)
      | _, _, _ => none

/-- The arguments of a request with the given options. -/
def ofList? (shapes : List (String × OptionShape)) (arguments : List String) :
    Option Arguments :=
  scan? shapes arguments ⟨[], []⟩

/-- The value of an option, read by `parse?`, or its default if it is not given. -/
def value? (arguments : Arguments) (name : String) (parse? : String → Option α) (default : α) :
    Option α :=
  match arguments.options.lookup name with
  | none => some default
  | some text => parse? text

/-- Whether a flag is given. -/
def hasFlag (arguments : Arguments) (name : String) : Bool :=
  arguments.options.any (·.1 = name)

end Arguments

/-- The value of a nonempty digit string. -/
def digits? (text : List Char) : Option Nat :=
  if !text.isEmpty && text.all Char.isDigit then some (Decimal.ofDigits text) else none

/-- A natural number below a bound, which may have a plus sign. -/
def naturalBelow? (bound : Nat) (text : String) : Option Nat := do
  let value ←
    match text.toList with
    | '+' :: digits => digits? digits
    | digits => digits? digits
  guard (value < bound)
  pure value

/-- A natural number below a bound that is read as an integer, so that zero may have any sign. -/
def integerBelow? (bound : Nat) (text : String) : Option Nat :=
  match text.toList with
  | '-' :: digits => do
    guard ((← digits? digits) = 0)
    pure 0
  | _ => naturalBelow? bound text

end Mixdown
