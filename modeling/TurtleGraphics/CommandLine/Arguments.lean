/-!
# Arguments of a command

A command takes values by position, options with a value (`--name value` or `--name=value`) and
flags (`--name`). They may stand in any order, each at most once; after `--` every argument is a
value by position.

Arguments are looked at from left to right. An option or a position that has its value is not
settled before the next one is met, so an argument that is not known is reported before a value that
does not fit. The first fault counts.
-/

namespace TurtleGraphics.CommandLine

/-- What the value of an argument has to be. -/
inductive Kind where
  /-- The path of a file, which is not empty. -/
  | path
  /-- A whole number below `2 ^ 32`. -/
  | levelId
  /-- A whole number below `2 ^ 64`. -/
  | stepLimit
  | text
deriving DecidableEq, Repr

/-- Why a command line does not say what to do. Asking for help or the version is one reason. -/
inductive Usage where
  | help
  | version
  /-- There is nothing on the command line. -/
  | nothing
  | unknownCommand
  | unknownArgument
  | missingArgument
  | repeatedArgument
  /-- An option without its value, or a path without a character. -/
  | missingValue
  /-- A value for something that takes none. -/
  | unwantedValue
  /-- A value that is not of its kind. -/
  | malformedValue
deriving DecidableEq, Repr

/-- The exit status of the program: asking for help or the version is a success. -/
def Usage.exitStatus : Usage → Nat
  | help | version => 0
  | _ => 2

/-! ## Values -/

/-- The number that decimal digits denote, if there is a digit and nothing else. -/
def digits? : List Char → Option Nat
  | [] => none
  | cs =>
    if cs.all Char.isDigit then some (cs.foldl (fun n c ↦ 10 * n + (c.toNat - '0'.toNat)) 0)
    else none

/-- The limit of steps that a text denotes. It may have a plus sign and leading zeros. -/
def stepLimit? (s : String) : Option Nat :=
  let n? := match s.toList with
    | '+' :: cs => digits? cs
    | cs => digits? cs
  n?.filter (· < UInt64.size)

/-- The id that a text denotes. It may have a sign and leading zeros; of the numbers with a minus
sign only zero is an id. -/
def levelId? (s : String) : Option Nat :=
  match s.toList with
  | '+' :: cs => (digits? cs).filter (· < UInt32.size)
  | '-' :: cs => (digits? cs).filter (· = 0)
  | cs => (digits? cs).filter (· < UInt32.size)

/-- Whether the value is of the given kind, and what is wrong if it is not. -/
def Kind.check (value : String) : Kind → Except Usage Unit
  | path => if value = "" then .error .missingValue else .ok ()
  | levelId => if (levelId? value).isSome then .ok () else .error .malformedValue
  | stepLimit => if (stepLimit? value).isSome then .ok () else .error .malformedValue
  | text => .ok ()

/-! ## Shapes of arguments -/

/-- How an argument is written, whatever command it is for. -/
inductive Shape where
  /-- The argument `--`. -/
  | dashes
  /-- An argument `--name` or `--name=value`. -/
  | long (name : String) (value : Option String)
  /-- An argument that begins with one dash and the given character. -/
  | short (c : Char)
  | plain
deriving DecidableEq, Repr

/-- The name and the value of a long argument, given without its dashes. -/
def splitLong (cs : List Char) : Shape :=
  .long (String.ofList (cs.takeWhile (· ≠ '='))) <|
    match cs.dropWhile (· ≠ '=') with
    | [] => none
    | _ :: value => some (String.ofList value)

/-- How an argument is written. -/
def Shape.of (s : String) : Shape :=
  match s.toList with
  | ['-', '-'] => dashes
  | '-' :: '-' :: cs => splitLong cs
  | '-' :: c :: _ => short c
  | _ => plain

/-! ## Forms -/

/-- A value that a command takes. -/
structure Field where
  name : String
  kind : Kind
deriving DecidableEq, Repr

/-- What a command takes. -/
structure Form where
  /-- The values by position, all of them required. -/
  positions : List Field := []
  /-- The options, which are named without their dashes. -/
  options : List Field := []
  flags : List String := []
  /-- The names of the options that have to be there. -/
  required : List String := []
deriving DecidableEq, Repr

/-- The arguments looked at so far. -/
structure Reading where
  /-- The settled fields with their values, the last one first. A flag has an empty value. -/
  settled : List (String × String) := []
  /-- The field met last and its value, if that has been met. -/
  pending : Option (Field × Option String) := none
  /-- The positions that are still open. -/
  left : List Field
  /-- Whether `--` has been met. -/
  onlyValues : Bool := false
deriving DecidableEq, Repr

namespace Reading

/-- Records the value of a field. -/
def put (r : Reading) (field : Field) (value : String) : Except Usage Reading := do
  if (r.settled.lookup field.name).isSome then throw .repeatedArgument
  field.kind.check value
  return { r with settled := (field.name, value) :: r.settled }

/-- Settles what is pending. -/
def settle (r : Reading) : Except Usage Reading :=
  match r.pending with
  | none => .ok r
  | some (_, none) => .error .missingValue
  | some (field, some value) => { r with pending := none }.put field value

/-- Takes a value by position. -/
def position (r : Reading) (value : String) : Except Usage Reading :=
  match r.left with
  | [] => .error .unknownArgument
  | field :: rest => do
    return { ← r.settle with pending := some (field, some value), left := rest }

/-- Takes a long argument. -/
def long (form : Form) (r : Reading) (name : String) (value : Option String) :
    Except Usage Reading :=
  if name = "help" ∨ name ∈ form.flags then
    match value with
    | some _ => .error .unwantedValue
    | none => do
      let r ← r.settle
      if name = "help" then throw .help
      r.put ⟨name, .text⟩ ""
  else match form.options.find? (·.name = name) with
    | none => .error .unknownArgument
    | some field => do
      let r ← r.settle
      match value with
      | some value => r.put field value
      | none => return { r with pending := some (field, none) }

/-- Takes the next argument. -/
def next (form : Form) (r : Reading) (arg : String) : Except Usage Reading :=
  if r.onlyValues then r.position arg
  else match Shape.of arg with
    | .dashes => .ok { r with onlyValues := true }
    | .long name value => r.long form name value
    | .short 'h' => do
      let _ ← r.settle
      throw .help
    | .short _ => .error .unknownArgument
    | .plain =>
      match r.pending with
      | some (field, none) => .ok { r with pending := some (field, some arg) }
      | _ => r.position arg

end Reading

/-- The values that a command line gives to the fields of a command. -/
structure Values where
  given : List (String × String)
deriving DecidableEq, Repr

namespace Values

/-- The value of a field, if it was given. -/
def get? (v : Values) (name : String) : Option String := v.given.lookup name

/-- Whether a flag was given. -/
def has (v : Values) (name : String) : Bool := (v.get? name).isSome

end Values

/-- Reads the arguments of a command. -/
def Form.read (form : Form) (args : List String) : Except Usage Values := do
  let r ← args.foldlM (Reading.next form) { left := form.positions }
  let r ← r.settle
  if (form.positions.map Field.name ++ form.required).all fun name ↦
      (r.settled.lookup name).isSome then
    return ⟨r.settled⟩
  else throw .missingArgument

end TurtleGraphics.CommandLine
