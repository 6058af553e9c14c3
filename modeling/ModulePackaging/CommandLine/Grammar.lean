import ModulePackaging.Decimal.Whole

/-!
# Grammars of command lines

One level of a command line: options in any place, operands in order, and at the end perhaps the
name of a command, to which all that follows belongs. Options may be cut short as long as it is
clear which one is meant; a value follows its option, or stands behind `=`; options of one letter
may share a dash. Nothing behind a double dash is an option.
-/

namespace ModulePackaging.CommandLine

/-- What an option does. -/
inductive Effect
  | flag
  | help
  | value
  | number
  | choice (names : List Text)
  deriving DecidableEq

/-- An option: its names, what it does, and whether it must be given. -/
structure Choice where
  names : List Text
  effect : Effect
  required : Bool
  deriving DecidableEq

/-- Something that a command line may hold. The command takes all that follows its name. -/
inductive Item
  | choice (c : Choice)
  | operand (name : Text)
  | command (name : Text) (names : List Text)

/-- One level of a command line: the program as messages name it, and the items in the order in
which they are declared. -/
structure Grammar where
  program : Text
  items : List Item

/-- Why a command line is refused. -/
inductive UsageError
  | refused (program message : Text)
  | help (program : Text)

/-- What is read on a level: what was given under which name, the name of a command with what
follows it, and what was not understood. -/
structure Reading where
  given : List (Text × Text)
  command : List Text
  extras : List Text

/-- An option as it is given: the option, the name it was given by, and the value that stands with
it, together with whether an equals sign stands before the value. -/
structure Given where
  choice : Choice
  name : Text
  attached : Option (Bool × Text)

/-- What an argument is taken for. -/
inductive Role
  | operand
  | separator
  | unknownOption
  | option (g : Given)

namespace Choice

/-- The option as messages name it. -/
def shown (c : Choice) : Text := Text.joined "/" c.names

/-- The name under which an option is kept: the last one. -/
def key (c : Choice) : Text := c.names.getLastD []

/-- Whether an option takes a value. -/
def takesValue (c : Choice) : Bool :=
  match c.effect with
  | .value | .number | .choice _ => true
  | .flag | .help => false

end Choice

namespace Reading

/-- Before anything is read. -/
def nothing : Reading := ⟨[], [], []⟩

/-- Adds something that was given. -/
def give (r : Reading) (name value : Text) : Reading :=
  { r with given := r.given ++ [(name, value)] }

/-- Adds something that was not understood. -/
def leave (r : Reading) (texts : List Text) : Reading := { r with extras := r.extras ++ texts }

/-- All values that were given under a name. -/
def values (r : Reading) (name : Text) : List Text :=
  r.given.filterMap fun (n, value) => if n = name then some value else none

/-- The last value that was given under a name. -/
def value? (r : Reading) (name : Text) : Option Text := (r.values name).getLast?

/-- Whether something was given under a name. -/
def has (r : Reading) (name : Text) : Bool := !(r.values name).isEmpty

end Reading

namespace Grammar

variable (g : Grammar)

/-- A refusal on this level. -/
def refuse {α : Type} (message : Text) : Except UsageError α :=
  .error (.refused g.program message)

/-- A refusal of something that was given. -/
def refuseAt {α : Type} (name message : Text) : Except UsageError α :=
  g.refuse ("argument " ++ name ++ ": " ++ message)

/-- The options with their names, in the order of declaration. -/
def named : List (Text × Choice) :=
  g.items.flatMap fun
    | .choice c => c.names.map fun name => (name, c)
    | _ => []

/-- The option with a name. -/
def find? (name : Text) : Option Choice := g.named.lookup name

/-- The sign before options. -/
def dash : CodePoint := 0x2D

/-- A text before its first equals sign, and what stands behind it if there is one. -/
def cutAtEquals (t : Text) : Text × Option (Bool × Text) :=
  let before := t.takeWhile fun c => c ≠ 0x3D
  match t.drop before.length with
  | [] => (before, none)
  | _ :: rest => (before, some (true, rest))

/-- The options that an argument may mean which is no option's whole name. -/
def candidates (argument : Text) : List Given :=
  if argument.startsWith "--" then
    let (start, attached) := cutAtEquals argument
    g.named.filterMap fun (name, c) =>
      if start.isPrefixOf name then some ⟨c, name, attached⟩ else none
  else
    g.named.filterMap fun (name, c) =>
      if name = argument.take 2 then some ⟨c, name, some (false, argument.drop 2)⟩
      else if argument.isPrefixOf name then some ⟨c, name, none⟩
      else none

/-- Whether a text is a negative number: digits, with at most one point before the last of them, and
at most one line end after them. -/
def isNegativeNumber : Text → Bool
  | [] => false
  | sign :: rest =>
    let digits := if rest.getLast? = some 0x0A then rest.dropLast else rest
    let fraction := (digits.dropWhile CodePoint.isDecimal).drop 1
    sign = dash && !digits.isEmpty &&
      (digits.all CodePoint.isDecimal ||
        ((digits.dropWhile CodePoint.isDecimal).head? = some 0x2E && !fraction.isEmpty &&
          fraction.all CodePoint.isDecimal))

/-- What an argument is taken for that begins with a dash and is no option's whole name. -/
def roleOfStart (argument : Text) : Except UsageError Role :=
  let (start, attached) := cutAtEquals argument
  match attached, g.find? start with
  | some _, some c => .ok (.option ⟨c, start, attached⟩)
  | _, _ =>
    match g.candidates argument with
    | [given] => .ok (.option given)
    | [] =>
      if isNegativeNumber argument || argument.contains 0x20 then .ok .operand
      else .ok .unknownOption
    | several =>
      g.refuse ("ambiguous option: " ++ argument ++ " could match " ++
        Text.listed (several.map Given.name))

/-- What an argument is taken for. -/
def role (argument : Text) : Except UsageError Role :=
  match argument with
  | first :: _ :: _ =>
    if first ≠ dash then .ok .operand
    else match g.find? argument with
      | some c => .ok (.option ⟨c, argument, none⟩)
      | none => g.roleOfStart argument
  | _ => .ok .operand

/-- What the arguments are taken for. Nothing behind a double dash is an option. -/
def roles : List Text → Except UsageError (List (Text × Role))
  | [] => .ok []
  | argument :: rest =>
    if argument = ("--" : Text) then
      .ok ((argument, .separator) :: rest.map fun t => (t, Role.operand))
    else do
      let role ← g.role argument
      return (argument, role) :: (← roles rest)

/-- Whether an argument is taken for an option. -/
def isOption : Text × Role → Bool
  | (_, .unknownOption) | (_, .option _) => true
  | _ => false

/-- Whether an argument is the double dash. -/
def isSeparator : Text × Role → Bool
  | (_, .separator) => true
  | _ => false

/-- The operand at the start of arguments, with the double dash on either side of it, and the
arguments behind. -/
def takeOperand? (arguments : List (Text × Role)) : Option (Text × List (Text × Role)) :=
  match arguments.dropWhile isSeparator with
  | (t, .operand) :: rest => some (t, rest.dropWhile isSeparator)
  | _ => none

/-- The refusal of a name that is none of some. -/
def notAmong (t : Text) (names : List Text) : Text :=
  "invalid choice: " ++ t.quoted ++ " (choose from " ++ Text.listed (names.map Text.quoted) ++ ")"

/-- Takes as many operands as stand at the start of arguments: what is read, the items that are
still to come and the arguments behind. -/
def takeOperands (r : Reading) (arguments : List (Text × Role)) :
    List Item → Except UsageError (Reading × List Item × List (Text × Role))
  | [] => .ok (r, [], arguments)
  | .choice _ :: items => takeOperands r arguments items
  | .operand name :: items =>
    match takeOperand? arguments with
    | some (t, rest) => takeOperands (r.give name t) rest items
    | none => .ok (r, .operand name :: items, arguments)
  | .command name names :: items =>
    match takeOperand? arguments with
    | some _ =>
      let texts := arguments.map Prod.fst
      let called := texts.headD []
      if names.contains called then .ok ({ r.give name called with command := texts }, items, [])
      else g.refuseAt name (notAmong called names)
    | none => .ok (r, .command name names :: items, arguments)

/-- Gives an option its value. -/
def giveValue (r : Reading) (c : Choice) (t : Text) : Except UsageError Reading :=
  match c.effect with
  | .choice names =>
    if names.contains t then .ok (r.give c.key t) else g.refuseAt c.shown (notAmong t names)
  | .number =>
    match Decimal.whole t with
    | .ok _ => .ok (r.give c.key t)
    | .error _ => g.refuseAt c.shown ("invalid int value: " ++ t.quoted)
  | _ => .ok (r.give c.key t)

/-- Gives an option that takes no value. -/
def giveFlag (r : Reading) (c : Choice) : Except UsageError Reading :=
  match c.effect with
  | .help => .error (.help g.program)
  | _ => .ok (r.give c.key [])

/-- The refusal of a value for an option that takes none. -/
def ignored {α : Type} (c : Choice) (t : Text) : Except UsageError α :=
  g.refuseAt c.shown ("ignored explicit argument " ++ t.quoted)

/-- Reads the letters that share a dash with an option of one letter. The flags among them take
effect together, after the last letter is read. -/
def takeLetters (r : Reading) (c : Choice) (joined : Bool) (pending : List Choice) :
    Text → Except UsageError Reading
  | [] => if joined then g.ignored c [] else (pending ++ [c]).foldlM g.giveFlag r
  | letter :: rest =>
    if c.takesValue then do
      let r ← pending.foldlM g.giveFlag r
      g.giveValue r c (letter :: rest)
    else if joined || letter = dash then g.ignored c (letter :: rest)
    else match g.find? [dash, letter] with
      | none => do
        let r ← (pending ++ [c]).foldlM g.giveFlag r
        return r.leave [dash :: letter :: rest]
      | some next =>
        match rest with
        | [] => takeLetters r next false (pending ++ [c]) []
        | sign :: after =>
          if sign = 0x3D then takeLetters r next true (pending ++ [c]) after
          else takeLetters r next false (pending ++ [c]) (sign :: after)

/-- Takes an option, and the argument behind it if that is its value. -/
def takeOption (r : Reading) (given : Given) (rest : List (Text × Role)) :
    Except UsageError (Reading × List (Text × Role)) := do
  let c := given.choice
  match given.attached with
  | some (joined, t) =>
    if c.takesValue then return (← g.giveValue r c t, rest)
    else if given.name.startsWith "--" || t.isEmpty then g.ignored c t
    else return (← g.takeLetters r c joined [] t, rest)
  | none =>
    if !c.takesValue then return (← g.giveFlag r c, rest)
    else match rest with
      | (t, .operand) :: after => return (← g.giveValue r c t, after)
      | _ => g.refuseAt c.shown "expected one argument"

/-- Reads arguments: operands as they come, and options between them. -/
def takeAll : Nat → Reading → List Item → List (Text × Role) →
    Except UsageError (Reading × List Item)
  | 0, r, items, _ => .ok (r, items)
  | fuel + 1, r, items, arguments =>
    if !arguments.any isOption then do
      let (r, items, rest) ← g.takeOperands r arguments items
      return (r.leave (rest.map Prod.fst), items)
    else match arguments with
      | [] => .ok (r, items)
      | (t, .unknownOption) :: rest => takeAll fuel (r.leave [t]) items rest
      | (_, .option given) :: rest => do
        let (r, rest) ← g.takeOption r given rest
        takeAll fuel r items rest
      | _ => do
        let (read, left, rest) ← g.takeOperands r arguments items
        if rest.length < arguments.length then takeAll fuel read left rest
        else
          let before := arguments.takeWhile fun a => !isOption a
          takeAll fuel (r.leave (before.map Prod.fst)) items (arguments.drop before.length)

/-- The names of the items that must be given and are not. -/
def missing (r : Reading) : List Text :=
  g.items.filterMap fun
    | .choice c => if c.required && !r.has c.key then some c.shown else none
    | .operand name | .command name _ => if r.has name then none else some name

/-- Reads one level of a command line. -/
def read (arguments : List Text) : Except UsageError Reading := do
  let roles ← g.roles arguments
  let (r, _) ← g.takeAll (2 * arguments.length + 2) .nothing g.items roles
  if r.command.isEmpty then
    let missing := g.missing r
    if !missing.isEmpty then
      g.refuse ("the following arguments are required: " ++ Text.listed missing)
  return r

end Grammar

end ModulePackaging.CommandLine
