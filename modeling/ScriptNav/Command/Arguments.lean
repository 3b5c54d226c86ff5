import ScriptNav.Text.Quoted

/-! The arguments of the program: flags, a command, and the operands of that command. Flags may
stand anywhere before `--`, and those of every command before the command too. -/
namespace ScriptNav.Command

open Text

inductive Name where
  | definition
  | hover
  | includes
  | dependencies
  | server
  | init
deriving DecidableEq, Repr

namespace Name

def all : List Name := [definition, hover, includes, dependencies, server, init]

def toText : Name → Text
  | definition => "def"
  | hover => "hover"
  | includes => "includes"
  | dependencies => "deps"
  | server => "lsp"
  | init => "init"

def ofText? (t : Text) : Option Name := all.find? fun name => name.toText == t

end Name

/-- The values of the flags. -/
structure Options where
  root : Text := "."
  config : Text := []
  color : Text := "auto"
  format : Text := []
  isVerbose : Bool := false
  isDryRun : Bool := false
  wantsVersion : Bool := false
  wantsHelp : Bool := false
deriving DecidableEq, Repr

/-- What a flag sets: a text, or a switch. -/
inductive Setting where
  | value (set : Options → Text → Options)
  | switch (set : Options → Bool → Options)

structure Flag where
  name : Text
  /-- The letter of the short form; only switches have one. -/
  letter : Option UInt8 := none
  setting : Setting

namespace Flag

def isSwitch (f : Flag) : Bool :=
  match f.setting with
  | .switch _ => true
  | .value _ => false

/-- How a flag is named in messages. -/
def title (f : Flag) : Text :=
  match f.letter with
  | some letter => minus :: letter :: ", --" ++ f.name
  | none => "--" ++ f.name

/-- The flags that every command knows. -/
def shared : List Flag := [
  ⟨"root", none, .value fun o t => { o with root := t }⟩,
  ⟨"config", none, .value fun o t => { o with config := t }⟩,
  ⟨"color", none, .value fun o t => { o with color := t }⟩,
  ⟨"format", none, .value fun o t => { o with format := t }⟩,
  ⟨"verbose", some 118, .switch fun o b => { o with isVerbose := b }⟩]

def help : Flag := ⟨"help", some 104, .switch fun o b => { o with wantsHelp := b }⟩

def version : Flag := ⟨"version", none, .switch fun o b => { o with wantsVersion := b }⟩

def dryRun : Flag := ⟨"dry-run", none, .switch fun o b => { o with isDryRun := b }⟩

/-- The flags of a command, or of the program itself. -/
def ofCommand : Option Name → List Flag
  | none => shared ++ [help, version]
  | some .init => shared ++ [help, dryRun]
  | some _ => shared ++ [help]

end Flag

/-- What is wrong with arguments. -/
inductive ArgumentError where
  | unknownCommand (name path : Text)
  | badSyntax (argument : Text)
  | unknownFlag (name : Text)
  | unknownLetter (letter : UInt8) (letters : Text)
  | missingValue (name : Text)
  | badSwitch (value title : Text)
  | wrongCount (wanted received : Nat)
  | tooMany (most received : Nat)
deriving DecidableEq, Repr

namespace ArgumentError

def message : ArgumentError → Text
  | unknownCommand name path => "unknown command " ++ quoted name ++ " for " ++ quoted path
  | badSyntax argument => "bad flag syntax: " ++ argument
  | unknownFlag name => "unknown flag: --" ++ name
  | unknownLetter letter letters =>
    let shown := if letter < 128 then letter.toNat else 0xC3
    "unknown shorthand flag: " ++ quotedChar shown ++ " in -" ++ letters
  | missingValue name => "flag needs an argument: --" ++ name
  | badSwitch value title =>
    "invalid argument " ++ quoted value ++ " for " ++ quoted title ++
      " flag: strconv.ParseBool: parsing " ++ quoted value ++ ": invalid syntax"
  | wrongCount wanted received =>
    "accepts " ++ ofNat wanted ++ " arg(s), received " ++ ofNat received
  | tooMany most received =>
    "accepts at most " ++ ofNat most ++ " arg(s), received " ++ ofNat received

end ArgumentError

/-- The spellings of a switch that is on or off. -/
def parseSwitch? (t : Text) : Option Bool :=
  if [("1" : Text), "t", "T", "TRUE", "true", "True"].contains t then some true
  else if [("0" : Text), "f", "F", "FALSE", "false", "False"].contains t then some false
  else none

/-- Whether an argument is a flag that takes the next argument for its value, as it looks before the
command is known. -/
def takesNext (flags : List Flag) (argument : Text) : Bool :=
  match argument with
  | a :: b :: rest =>
    if a != minus || argument.contains equals then false
    else if b == minus then !flags.any fun f => f.name == rest && f.isSwitch
    else rest.isEmpty && !flags.any fun f => f.letter == some b && f.isSwitch
  | _ => false

/-- The arguments that are neither flags nor values of flags. A value at the very end hides what
stands before it. -/
def operands (flags : List Flag) : List Text → List Text
  | [] => []
  | a :: rest =>
    if a == "--" then []
    else if takesNext flags a then
      match rest with
      | _ :: next :: rest => operands flags (next :: rest)
      | _ => []
    else if a.isEmpty || startsWith "-" a then operands flags rest
    else a :: operands flags rest

/-- The arguments without the first operand that is `name`. -/
def without (flags : List Flag) (name : Text) : List Text → List Text
  | [] => []
  | a :: rest =>
    if a == "--" then a :: rest
    else if takesNext flags a then
      match rest with
      | [] => [a]
      | value :: rest => a :: value :: without flags name rest
    else if a == name then rest
    else a :: without flags name rest

/-- The command that arguments name, with the other arguments. -/
def findCommand (arguments : List Text) : Except ArgumentError (Option Name × List Text) :=
  match operands Flag.shared arguments with
  | [] => .ok (none, arguments)
  | name :: _ =>
    match Name.ofText? name with
    | some command => .ok (some command, without Flag.shared name arguments)
    | none => .error (.unknownCommand name "gscnav")

/-- The options and operands read so far, the operands last first. -/
structure Reading where
  options : Options := {}
  operands : List Text := []

namespace Reading

def set (r : Reading) (flag : Flag) (value : Text) : Except ArgumentError Reading :=
  match flag.setting with
  | .value set => .ok { r with options := set r.options value }
  | .switch set =>
    match parseSwitch? value with
    | some b => .ok { r with options := set r.options b }
    | none => .error (.badSwitch value flag.title)

/-- Reads the letters of short flags. A value after an equals sign goes to the letter before it.
What is meant for a test runner is passed over. -/
def letters (flags : List Flag) (r : Reading) : Text → Except ArgumentError Reading
  | [] => .ok r
  | letter :: rest =>
    if startsWith "test." (letter :: rest) then .ok r
    else
      match flags.find? fun f => f.letter == some letter with
      | none => .error (.unknownLetter letter (letter :: rest))
      | some flag =>
        if startsWith "=" rest && 2 ≤ rest.length then r.set flag rest.tail
        else do letters flags (← r.set flag "true") rest

/-- Reads arguments one after another. -/
def arguments (flags : List Flag) (r : Reading) : List Text → Except ArgumentError Reading
  | [] => .ok r
  | a :: rest =>
    match a with
    | first :: second :: tail =>
      if first != minus then arguments flags { r with operands := a :: r.operands } rest
      else if second != minus then do arguments flags (← r.letters flags (second :: tail)) rest
      else if tail.isEmpty then .ok { r with operands := rest.reverse ++ r.operands }
      else if startsWith "-" tail || startsWith "=" tail then .error (.badSyntax a)
      else
        let name := tail.takeWhile (· != equals)
        match flags.find? (·.name == name), cut? equals tail with
        | none, _ => .error (.unknownFlag name)
        | some flag, some (_, value) => do arguments flags (← r.set flag value) rest
        | some flag, none =>
          if flag.isSwitch then do arguments flags (← r.set flag "true") rest
          else
            match rest with
            | [] => .error (.missingValue name)
            | value :: rest => do arguments flags (← r.set flag value) rest
    | _ => arguments flags { r with operands := a :: r.operands } rest

end Reading

/-- What the arguments ask for. -/
structure Call where
  /-- Without a command the program only tells about itself. -/
  command : Option Name
  options : Options
  operands : List Text
deriving DecidableEq, Repr

namespace Call

/-- Checks the number of operands. -/
def check (c : Call) : Except ArgumentError Unit :=
  let received := c.operands.length
  let exactly := fun n => if received == n then .ok () else .error (.wrongCount n received)
  let atMost := fun n => if received ≤ n then .ok () else .error (.tooMany n received)
  match c.command with
  | some .definition => exactly 2
  | some .hover => exactly 2
  | some .includes => exactly 1
  | some .dependencies => atMost 1
  | some .init => atMost 1
  | some .server =>
    match c.operands with
    | [] => .ok ()
    | operand :: _ => .error (.unknownCommand operand "gscnav lsp")
  | none => .ok ()

/-- Reads the arguments of the program. -/
def parse (arguments : List Text) : Except ArgumentError Call := do
  let (command, arguments) ← findCommand arguments
  let reading ← Reading.arguments (Flag.ofCommand command) {} arguments
  return ⟨command, reading.options, reading.operands.reverse⟩

end Call
end ScriptNav.Command
