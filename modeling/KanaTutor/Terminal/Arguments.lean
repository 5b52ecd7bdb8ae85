/-
The command line: options, a command, and what the command is about. The layout and the settings file
can be named before the command and after it; the name after it counts.
-/
import KanaTutor.Text.Basic

namespace KanaTutor

namespace Terminal

/-- What the program is asked to do. -/
inductive Task where
  /-- Shows the keystrokes of a kana text. -/
  | romanize (t : Text)
  /-- Splits an annotated text into what is typed and what is read. -/
  | parse (t : Text)
  /-- Shows the practice history, or deletes it. -/
  | stats (reset : Bool)
  /-- Practises a lesson. -/
  | run (lesson : Text)
deriving DecidableEq, Repr

/-- The options that a command line may give before its command and after it. -/
structure Options where
  layout : Option Text := none
  config : Option Text := none
deriving DecidableEq, Repr

/-- A command line that can be carried out. -/
structure Invocation where
  options : Options
  task : Task
deriving DecidableEq, Repr

/-- What a command line comes to. -/
inductive Request where
  | invoke (i : Invocation)
  | help
  | version
  | misuse
deriving DecidableEq, Repr

/-! ## Single arguments -/

/-- The options and flags. -/
inductive Flag where
  | layout
  | config
  | help
  | version
  | reset
deriving DecidableEq, Repr

/-- An argument by its form: what ends the options; a flag, with the value written on to it; a flag that
does not exist; or something else, a single hyphen included. -/
inductive Argument where
  | endOfOptions
  | flag (f : Flag) (value : Option Text)
  | unknownFlag
  | plain (t : Text)
deriving DecidableEq, Repr

/-- The flags with long names. -/
def longFlags : List (String × Flag) :=
  [("layout", .layout), ("config", .config), ("help", .help), ("version", .version), ("reset", .reset)]

/-- The flags with short names. -/
def shortFlags : List (Char × Flag) := [('l', .layout), ('c', .config), ('h', .help), ('V', .version)]

/-- A long flag after its hyphens; an equals sign begins its value. -/
def readLong (t : Text) : Argument :=
  let (name, value) := match t.cutAt '=' with
    | some (name, value) => (name, some value)
    | none => (t, none)
  match longFlags.find? (·.1.toList = name) with
  | some (_, f) => .flag f value
  | none => .unknownFlag

/-- A short flag after its hyphen; its value may follow, with an equals sign or without. What follows a
request for help or for the version does not matter any more. -/
def readShort (c : Char) (rest : Text) : Argument :=
  match shortFlags.find? (·.1 = c) with
  | some (_, .help) => .flag .help none
  | some (_, .version) => .flag .version none
  | some (_, f) => .flag f (if rest.isEmpty then none else some ((rest.afterStart? ['=']).getD rest))
  | none => .unknownFlag

/-- Reads an argument by its form. -/
def Argument.read : Text → Argument
  | ['-', '-'] => .endOfOptions
  | '-' :: '-' :: rest => readLong rest
  | '-' :: c :: rest => readShort c rest
  | t => .plain t

/-- The argument can be the value of an option before it. -/
def Argument.isValue (t : Text) : Bool :=
  match Argument.read t with
  | .plain _ => true
  | _ => false

/-! ## Options -/

/-- Sets an option, which must not have been set at the same place; a settings file has a name. -/
def Options.set? (options : Options) (f : Flag) (value : Text) : Option Options :=
  match f, options.layout, options.config with
  | .layout, none, _ => some { options with layout := some value }
  | .config, _, none => if value.isEmpty then none else some { options with config := some value }
  | _, _, _ => none

/-- The options after the command with those before it where it has none. -/
def Options.over (after before : Options) : Options :=
  ⟨after.layout.or before.layout, after.config.or before.config⟩

/-! ## Commands -/

/-- The commands. -/
inductive Verb where
  | romanize
  | parse
  | stats
  | run
deriving DecidableEq, Repr

/-- Asks for help in the place of a command. -/
def helpName : Text := "help".toList

/-- The command with a name. -/
def Verb.ofName? (name : Text) : Option Verb :=
  (([("romanize", romanize), ("parse", parse), ("stats", stats), ("run", run)] : List (String × Verb)).find?
    (·.1.toList = name)).map (·.2)

/-- What a command is about, as far as it has been read. -/
structure Details where
  options : Options := {}
  operand : Option Text := none
  reset : Bool := false

/-- Adds an operand: a command takes one, or none. -/
def Details.addOperand? (d : Details) (verb : Verb) (t : Text) : Option Details :=
  if verb = .stats ∨ d.operand.isSome then none else some { d with operand := some t }

/-- Adds operands. -/
def Details.addOperands? (d : Details) (verb : Verb) (operands : List Text) : Option Details :=
  operands.foldlM (·.addOperand? verb ·) d

/-- The task of a command with its details. -/
def Details.task? (d : Details) : Verb → Option Task
  | .romanize => d.operand.map .romanize
  | .parse => d.operand.map .parse
  | .stats => some (.stats d.reset)
  | .run => d.operand.map .run

/-- What a command line comes to whose command has been read. -/
def Details.request (d : Details) (before : Options) (verb : Verb) : Request :=
  match d.task? verb with
  | some task => .invoke ⟨d.options.over before, task⟩
  | none => .misuse

/-- Reads what follows the command. -/
def readDetails (before : Options) (verb : Verb) (d : Details) : List Text → Request
  | [] => d.request before verb
  | first :: rest =>
    match Argument.read first, rest with
    | .endOfOptions, operands =>
      match d.addOperands? verb operands with
      | some d => d.request before verb
      | none => .misuse
    | .plain t, rest =>
      match d.addOperand? verb t with
      | some d => readDetails before verb d rest
      | none => .misuse
    | .flag .help none, _ => .help
    | .flag .reset none, rest =>
      if verb = .stats ∧ !d.reset then readDetails before verb { d with reset := true } rest else .misuse
    | .flag f (some value), rest =>
      match d.options.set? f value with
      | some options => readDetails before verb { d with options } rest
      | none => .misuse
    | .flag f none, value :: rest =>
      if Argument.isValue value then
        match d.options.set? f value with
        | some options => readDetails before verb { d with options } rest
        | none => .misuse
      else .misuse
    | .flag _ none, [] | .unknownFlag, _ => .misuse

/-- What a request for help about some commands comes to: one at most can be named, `help` itself
included. -/
def readHelp : List Text → Request
  | [] => .help
  | [name] => if (Verb.ofName? name).isSome || name = helpName then .help else .misuse
  | _ => .misuse

/-- Reads a command and what follows it. -/
def readCommand (before : Options) (name : Text) (rest : List Text) : Request :=
  match Verb.ofName? name with
  | some verb => readDetails before verb {} rest
  | none => if name = helpName then readHelp rest else .misuse

/-- Reads a command line after an option whose value is not possible. The value is looked at only once the
command has been read, so a request for help with the command is answered. -/
def readAfterFault : List Text → Request
  | [] => .misuse
  | first :: rest =>
    match Argument.read first with
    | .plain name => if readCommand {} name rest = .help then .help else .misuse
    | _ => .misuse

/-- Reads a command line after some options. -/
def readFrom (options : Options) : List Text → Request
  | [] => .misuse
  | first :: rest =>
    match Argument.read first, rest with
    | .plain name, rest => readCommand options name rest
    | .flag .help none, _ => .help
    | .flag .version none, _ => .version
    | .flag .reset _, _ => .misuse
    | .flag f (some value), rest =>
      match options.set? f value with
      | some options => readFrom options rest
      | none => .misuse
    | .flag _ none, [] => .misuse
    | .flag f none, value :: rest =>
      if Argument.isValue value then
        match options.set? f value with
        | some options => readFrom options rest
        | none => readAfterFault rest
      else .misuse
    | .unknownFlag, _ | .endOfOptions, _ => .misuse

/-- Reads a command line. -/
def Request.read (arguments : List Text) : Request := readFrom {} arguments

end Terminal

end KanaTutor
