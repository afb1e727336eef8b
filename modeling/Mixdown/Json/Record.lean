import Mixdown.Json.Text

/-! Values of known kinds in a structured text; the first misfit in the text decides the error. -/

namespace Mixdown.Json

/-- Refuses the next value for its kind, unless the text breaks the grammar right there. -/
def misfit : Parser α := do
  match ← peek with
  | none => throw .ending
  | some 'n' => word "null".toList
  | some 't' => word "true".toList
  | some 'f' => word "false".toList
  | some '"' => let _ ← string true
  | some '[' | some '{' => pure ()
  | some c =>
    if c = '-' || c.isDigit then let _ ← number
    else throw .grammar
  throw .value

/-- A number, refusing values of other kinds. -/
def anyNumber : Parser Number := do
  match ← peek with
  | none => throw .ending
  | some c => if c = '-' || c.isDigit then number else misfit

/-- A natural number below two to the 32nd. -/
def natural32 : Parser UInt32 := do
  match ← anyNumber with
  | .natural value => if value < UInt32.size then pure (UInt32.ofNat value) else throw .value
  | _ => throw .value

/-- An integer of sixteen bits. -/
def integer16 : Parser Int16 := do
  let value : Int ←
    match ← anyNumber with
    | .natural value => pure (value : Int)
    | .negative magnitude => pure (-magnitude : Int)
    -- A number with a fraction or an exponent is no integer, whatever its value is.
    | .real _ => throw .value
  if Int16.minValue.toInt ≤ value ∧ value ≤ Int16.maxValue.toInt then pure (Int16.ofInt value)
  else throw .value

/-- A number in single precision; an integer is rounded once, any other by way of double. -/
def single : Parser Single := do
  match ← anyNumber with
  | .natural value => pure (.ofFloat value.toUInt64.toFloat32)
  | .negative magnitude => pure (.ofFloat (-magnitude.toUInt64.toFloat32))
  | .real value => pure (.ofFloat value.toFloat32)

/-- A truth value. -/
def truth : Parser Bool := do
  match ← peek with
  | none => throw .ending
  | some 't' => word "true".toList; pure true
  | some 'f' => word "false".toList; pure false
  | some _ => misfit

/-- Passes the way to the next item of a list, or finds that there is none. -/
def nextItem (first : Bool) : Parser Bool := do
  match ← peek with
  | none => throw .ending
  | some ']' => pure false
  | some c =>
    if first then pure true
    else if c = ',' then
      pass
      match ← peek with
      | none => throw .ending
      -- A comma promises an item.
      | some ']' => throw .grammar
      | some _ => pure true
    else throw .grammar

/-- Passes the end of a list, behind which no further item may stand. -/
def endList : Parser Unit := do
  match ← peek with
  | some ']' => pass
  | some _ => throw .grammar
  | none => throw .ending

/-- Passes the beginning of a list. -/
def beginList : Parser Unit := do
  match ← peek with
  | none => throw .ending
  | some '[' => pass
  | some _ => misfit

/-- Items up to the end of a list; every item passes a character. -/
def itemsFrom (item : Parser α) : (most : Nat) → (first : Bool) → Parser (List α)
  | 0, _ => throw .ending
  | most + 1, first => do
    if ← nextItem first then
      let head ← item
      let tail ← itemsFrom item most false
      pure (head :: tail)
    else pure []

/-- A list of any length. -/
def list (item : Parser α) : Parser (List α) := do
  beginList
  let most := (← get).length + 1
  let items ← itemsFrom item most true
  endList
  pure items

/-- A number of items of a list, all of which must be there. -/
def exactly (item : Parser α) : (n : Nat) → Parser (Vector α n)
  | 0 => pure #v[]
  | n + 1 => do
    let items ← exactly item n
    -- Only the first item of a list stands without a comma before it.
    if ← nextItem (n = 0) then
      let last ← item
      pure (items.push last)
    else throw .value

/-- A list of exactly so many items. -/
def vector (item : Parser α) (n : Nat) : Parser (Vector α n) := do
  beginList
  let items ← exactly item n
  endList
  pure items

/-- A field of a record that is being read into a draft of type `σ`. -/
structure Field (σ : Type) where
  name : String
  /-- A record without this field is refused. -/
  required : Bool
  /-- The draft holds this field already. -/
  present : σ → Bool
  /-- Reads the field into the draft. -/
  read : σ → Parser σ

/-- A field that holds one value of the draft. -/
def Field.ofValue (name : String) (required : Bool) (get : σ → Option α) (set : σ → Option α → σ)
    (value : Parser α) : Field σ where
  name
  required
  present draft := (get draft).isSome
  read draft := do
    let value ← value
    pure (set draft (some value))

/-- Whether a record with unknown fields is refused. -/
inductive Unknown where
  | refused
  | passed
  deriving DecidableEq

/-- Passes the colon behind a name. -/
def colon : Parser Unit := do
  match ← peek with
  | some ':' => pass
  | some _ => throw .grammar
  | none => throw .ending

/-- Passes the way to the next named field, or finds that there is none. -/
def nextName (first : Bool) : Parser (Option (List Char)) := do
  match ← peek with
  | none => throw .ending
  | some '}' => pure none
  | some c =>
    -- Names behind the first one stand behind a comma.
    if !first then
      if c = ',' then pass else throw .grammar
    match ← peek with
    | some '"' => some <$> string true
    | some _ => throw .grammar
    | none => throw .ending

/-- Named fields up to the end of a record; a field named twice is refused. -/
def namedFrom (fields : List (Field σ)) (unknown : Unknown) :
    (most : Nat) → (first : Bool) → σ → Parser σ
  | 0, _, _ => throw .ending
  | most + 1, first, draft => do
    match ← nextName first with
    | none => pure draft
    | some name =>
      match fields.find? (fun field => field.name.toList = name) with
      | none =>
        if unknown = .refused then throw .value
        colon
        -- The value of an unknown field is passed whatever its kind is.
        passValue
        namedFrom fields unknown most false draft
      | some field =>
        if field.present draft then throw .value
        colon
        let draft ← field.read draft
        namedFrom fields unknown most false draft

/-- Fields in their order without names; those that may be left out may be missing at the end. -/
def orderedFrom : (fields : List (Field σ)) → (first : Bool) → σ → Parser σ
  | [], _, draft => pure draft
  | field :: fields, first, draft => do
    if ← nextItem first then
      let draft ← field.read draft
      orderedFrom fields false draft
    -- The list has ended before this field.
    else if field.required then throw .value
    else orderedFrom fields first draft

/-- A record with named fields, or a list of the same fields in their order. -/
def record (fields : List (Field σ)) (unknown : Unknown) (empty : σ) : Parser σ := do
  match ← peek with
  | none => throw .ending
  | some '{' =>
    pass
    let most := (← get).length + 1
    let draft ← namedFrom fields unknown most true empty
    -- Missing fields are noticed at the end, behind any fault in those that are there.
    if fields.any fun field => field.required && !field.present draft then throw .value
    pass
    pure draft
  | some '[' =>
    pass
    let draft ← orderedFrom fields true empty
    endList
    pure draft
  | some _ => misfit

/-- One of several cases, each written as a record with the case's name as its only field. -/
def oneOf (cases : List (String × Parser α)) : Parser α := do
  match ← peek with
  | none => throw .ending
  | some '"' =>
    -- A name alone names no case, since every case has fields.
    misfit
  | some '{' =>
    pass
    match ← peek with
    | some '"' =>
      let name ← string true
      match cases.find? (fun (known, _) => known.toList = name) with
      | none => throw .value
      | some (_, value) =>
        colon
        let value ← value
        match ← peek with
        | some '}' =>
          pass
          pure value
        | some _ => throw .grammar
        | none => throw .ending
    -- The case's name is a field's name, for which nothing but a string is grammatical.
    | some _ => throw .grammar
    | none => throw .ending
  | some _ => throw .grammar

/-- The value that a whole text writes. -/
def parseAll (value : Parser α) (text : String) : Except TextError α := do
  let (value, rest) ← value text.toList
  if rest.all isBlank then pure value else throw .grammar

end Mixdown.Json
