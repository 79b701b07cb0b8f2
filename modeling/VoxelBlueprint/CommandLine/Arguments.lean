/-
# Arguments of the command line

An argument that starts with a hyphen may be an option; every other one is an
operand. An option has a long spelling, which may be cut short as long as no other
option starts the same, and may have a short one of a single letter; several short
ones may be joined, with or without an equals sign behind the first. The value of an
option is the next argument, or stands behind an equals sign. A negative number, an
argument with a space and whatever comes behind `--` are operands.

The first operand names the command. What comes before it is read with the options
of the program and what comes behind it with those of the command.

Key definitions: `Flag`, `classify`, `collect`, `Invocation.parse`.
-/
import VoxelBlueprint.Numeral

namespace VoxelBlueprint
namespace CommandLine

/-- What an option is followed by, or does. -/
inductive FlagKind where
  | help
  | switch
  | text
  | number
  deriving DecidableEq, Repr

/-- An option of a command: its long spelling, and the letter of its short one. -/
structure Flag where
  name : String
  kind : FlagKind
  letter : Option Char := none
  deriving DecidableEq, Repr

/-- Why there is no command to execute. -/
inductive Stop where
  /-- Help is asked for. -/
  | help
  /-- The program is started without a command. -/
  | noCommand
  /-- The arguments are not understood. -/
  | misuse
  deriving DecidableEq, Repr

/-! ### Classification -/

/-- What an argument is. -/
inductive Shape where
  | operand
  /-- The two hyphens behind which every argument is an operand. -/
  | separator
  /-- An option in its long spelling, and what stands behind an equals sign. -/
  | long (flag : Flag) (value : Option String)
  /-- An option in its short spelling, and what is joined to it or stands behind an equals
  sign. -/
  | short (flag : Flag) (joined : Option (List Char))
  /-- An option of no known spelling. -/
  | unknown
  deriving DecidableEq, Repr

/-- An argument and what it is. -/
abbrev Argument := String × Shape

/-- Whether the text is a negative number, whole or with a point. A line feed may follow it. -/
def isNegativeNumber (text : List Char) : Bool :=
  match Text.dropFinalNewline text with
  | '-' :: number =>
    match number.dropWhile Text.isDigit with
    | [] => !number.isEmpty
    | '.' :: fraction => !fraction.isEmpty && fraction.all Text.isDigit
    | _ => false
  | _ => false

/-- The text before the first equals sign, and the text behind it if there is one. -/
def splitAtEquals (text : List Char) : List Char × Option String :=
  match text.dropWhile (· ≠ '=') with
  | [] => (text, none)
  | _ :: value => (text.takeWhile (· ≠ '='), some (String.ofList value))

/-- What an argument is that starts with a hyphen and is spelled like no option. -/
def classifyOther (text : List Char) : Shape :=
  if isNegativeNumber text || text.contains ' ' then .operand else .unknown

/-- What an argument is that starts with two hyphens. -/
def classifyLong (flags : List Flag) (text : List Char) : Except Stop Shape :=
  let (spelling, value) := splitAtEquals text
  match flags.find? (·.name.toList = spelling) with
  | some flag => .ok (.long flag value)
  | none =>
    match flags.filter fun flag => spelling.isPrefixOf flag.name.toList with
    | [] => .ok (classifyOther text)
    | [flag] => .ok (.long flag value)
    | _ => .error .misuse

/-- What an argument is that starts with one hyphen and a letter. -/
def classifyShort (flags : List Flag) (letter : Char) (rest : List Char) : Shape :=
  match flags.find? (·.letter = some letter) with
  | none => classifyOther ('-' :: letter :: rest)
  | some flag =>
    match rest with
    | [] => .short flag none
    | '=' :: joined => .short flag (some joined)
    | joined => .short flag (some joined)

/-- What an argument is. -/
def classify (flags : List Flag) (text : String) : Except Stop Shape :=
  match text.toList with
  | '-' :: '-' :: rest => classifyLong flags ('-' :: '-' :: rest)
  | '-' :: letter :: rest => .ok (classifyShort flags letter rest)
  | _ => .ok .operand

/-- What each of the arguments is. -/
def classifyAll (flags : List Flag) : List String → Except Stop (List Argument)
  | [] => .ok []
  | text :: rest =>
    if text = "--" then .ok ((text, .separator) :: rest.map fun text => (text, .operand))
    else do
      let shape ← classify flags text
      return (text, shape) :: (← classifyAll flags rest)

/-! ### Options without a value -/

/-- The options that are joined by their letters. -/
def joinedFlags (flags : List Flag) : List Char → Except Stop (List Flag)
  | [] => .ok []
  | letter :: rest =>
    match flags.find? (·.letter = some letter) with
    | none => .error .misuse
    | some flag => return flag :: (← joinedFlags flags rest)

/-- Turns options on that have no value, unless one of them asks for help. -/
def turnOn (switches : List Flag) : Except Stop Unit :=
  if switches.any (·.kind = .help) then .error .help else .ok ()

/-- Turns on an option in its short spelling and those joined to it. -/
def turnOnShort (flags : List Flag) (flag : Flag) (joined : Option (List Char)) :
    Except Stop Unit := do
  match joined with
  | none => turnOn [flag]
  | some [] => .error .misuse
  | some letters => turnOn (flag :: (← joinedFlags flags letters))

/-- Turns on an option in its long spelling, which may have no value. -/
def turnOnLong (flag : Flag) (value : Option String) : Except Stop Unit :=
  if value.isSome then .error .misuse else turnOn [flag]

/-! ### Arguments of a command -/

/-- What has been read of the arguments of a command. -/
structure Collected where
  /-- The operand, if there is one. -/
  operand : Option String := none
  /-- The values of options, the latest first. -/
  values : List (String × String) := []
  /-- Whether something was not understood. -/
  leftOver : Bool := false

namespace Collected

/-- Takes the value of an option. The two hyphens of a separator are no value: the option
counts as not given. -/
def take (c : Collected) (flag : Flag) (value : String) : Except Stop Collected :=
  if value = "--" then .ok { c with values := c.values.filter (·.1 ≠ flag.name) }
  else if flag.kind = .number ∧ (Numeral.read? value.toList).isNone then .error .misuse
  else .ok { c with values := (flag.name, value) :: c.values }

/-- The value of the option with the given name. -/
def text? (c : Collected) (name : String) : Option String :=
  c.values.lookup name

/-- The value of the option with the given name as an integer. -/
def integer? (c : Collected) (name : String) : Option Int :=
  (c.text? name).bind fun value => Numeral.read? value.toList

end Collected

/-- Reads the arguments of a command, which has an operand if `hasOperand`. -/
def collect (flags : List Flag) (hasOperand : Bool) (c : Collected) :
    List Argument → Except Stop Collected
  | [] => .ok c
  | (text, .operand) :: rest =>
    if hasOperand && c.operand.isNone then
      match rest with
      | (_, .separator) :: rest => collect flags hasOperand { c with operand := some text } rest
      | rest => collect flags hasOperand { c with operand := some text } rest
    else collect flags hasOperand { c with leftOver := true } rest
  | (_, .separator) :: rest =>
    match rest with
    | (text, .operand) :: rest =>
      if hasOperand && c.operand.isNone then
        collect flags hasOperand { c with operand := some text } rest
      else .ok { c with leftOver := true }
    | _ => .ok { c with leftOver := true }
  | (_, .unknown) :: rest => collect flags hasOperand { c with leftOver := true } rest
  | (_, .short flag joined) :: rest => do
    turnOnShort flags flag joined
    collect flags hasOperand c rest
  | (_, .long flag value) :: rest =>
    if flag.kind = .help ∨ flag.kind = .switch then do
      turnOnLong flag value
      collect flags hasOperand c rest
    else
      match value, rest with
      | some value, rest => do collect flags hasOperand (← c.take flag value) rest
      | none, (value, .operand) :: rest => do collect flags hasOperand (← c.take flag value) rest
      | none, _ => .error .misuse

/-! ### Commands -/

/-- What the program can be told to do. -/
inductive Command where
  | expand (file : String) (catalog : Option String) (maxBlocks chunkSize : Option Int)
  | validate (file : String)
  | catalog (file : String)
  | serve (host : String) (portNumber : Int)
  deriving DecidableEq, Repr

/-- A command, and whether all events are to be shown. -/
structure Invocation where
  command : Command
  verbose : Bool := false
  deriving DecidableEq, Repr

/-- The option that asks for help. -/
def helpFlag : Flag := ⟨"--help", .help, some 'h'⟩

/-- The options of the program. -/
def programFlags : List Flag :=
  [helpFlag, ⟨"--verbose", .switch, some 'v'⟩]

/-- The options of the command to expand a document. -/
def expandFlags : List Flag :=
  [helpFlag, ⟨"--catalog", .text, none⟩, ⟨"--max-blocks", .number, none⟩,
   ⟨"--chunk-size", .number, none⟩]

/-- The options of the command to serve requests. -/
def serveFlags : List Flag :=
  [helpFlag, ⟨"--host", .text, none⟩, ⟨"--port", .number, none⟩]

/-- Reads the arguments of a command with an operand. -/
def withOperand (flags : List Flag) (arguments : List String)
    (command : String → Collected → Command) : Except Stop (Command × Bool) := do
  let c ← collect flags true {} (← classifyAll flags arguments)
  match c.operand with
  | some operand => return (command operand c, c.leftOver)
  | none => .error .misuse

/-- Reads the arguments of the command of the given name. The truth value tells whether
something was not understood. -/
def Command.parse (name : String) (arguments : List String) : Except Stop (Command × Bool) :=
  match name with
  | "expand" =>
    withOperand expandFlags arguments fun file c =>
      .expand file (c.text? "--catalog") (c.integer? "--max-blocks") (c.integer? "--chunk-size")
  | "validate" => withOperand [helpFlag] arguments fun file _ => .validate file
  | "catalog" => withOperand [helpFlag] arguments fun file _ => .catalog file
  | "serve" => do
    let c ← collect serveFlags false {} (← classifyAll serveFlags arguments)
    let host := (c.text? "--host").getD "127.0.0.1"
    return (.serve host ((c.integer? "--port").getD 8000), c.leftOver)
  | _ => .error .misuse

/-- Reads the arguments before the name of the command, and then the command. -/
def parseFrom (verbose leftOver : Bool) : List Argument → Except Stop Invocation
  | [] => .error (if leftOver then .misuse else .noCommand)
  | (name, .operand) :: rest => do
    let (command, unread) ← Command.parse name (rest.map (·.1))
    if leftOver || unread then .error .misuse else return { command, verbose }
  | (_, .separator) :: _ => .error .misuse
  | (_, .unknown) :: rest => parseFrom verbose true rest
  | (_, .short flag joined) :: rest => do
    turnOnShort programFlags flag joined
    parseFrom true leftOver rest
  | (_, .long flag value) :: rest => do
    turnOnLong flag value
    parseFrom true leftOver rest

/-- Reads the arguments of the program. -/
def Invocation.parse (arguments : List String) : Except Stop Invocation := do
  parseFrom false false (← classifyAll programFlags arguments)

end CommandLine
end VoxelBlueprint
