/-!
# The command line

The first words of a command line are options of the program itself; a command follows,
and after it come the options and words of that command.  An option has a long name after
two hyphens and perhaps a short one after one hyphen; short ones may stand together in one
argument, and the value of an option may be joined to it or stand in the next argument.
After `--` every argument is a word.

An option or word takes effect only when the next one is met, or the line ends.  So an
unknown argument is what is reported even if the one before it lacks its value.
-/

namespace Folio.Command

inductive Request where
  /-- Make a new site, perhaps in a directory of this name. -/
  | create (name : Option String)
  /-- Build the site; what is given here counts instead of what the settings say. -/
  | build (clean : Bool) (output : Option String) (content : List String)
  deriving DecidableEq, Repr, Inhabited

structure Invocation where
  /-- The directory of the site. -/
  root : Option String
  /-- The name of the settings file. -/
  settings : String
  request : Request
  deriving DecidableEq, Repr, Inhabited

/-- Why a command line asks for nothing that can be done, or only for a text. -/
inductive Refusal where
  | help
  | version
  /-- Nothing is asked for, so the help is shown. -/
  | nothingAsked
  | commandMissing
  | unknownCommand
  | unknownArgument
  /-- An option without a value, or an empty value. -/
  | valueMissing
  /-- An option that takes no value is given one. -/
  | valueUnwanted
  /-- An option is given twice. -/
  | repeated
  deriving DecidableEq, Repr, Inhabited

def defaultSettings : String := "marksite.toml"

/-! ## Options -/

/-- The options of the program and its commands. -/
inductive Switch where
  | root
  | settings
  | clean
  | output
  | help
  | version
  deriving DecidableEq, Repr, Inhabited

def Switch.takesValue : Switch → Bool
  | .root | .settings | .output => true
  | .clean | .help | .version => false

/-- Where arguments are read: before the command, or after it. -/
inductive Part where
  | program
  | create
  | build
  deriving DecidableEq, Repr, Inhabited

def Part.long? : Part → String → Option Switch
  | .program, "root" => some .root
  | .program, "config" => some .settings
  | .program, "version" => some .version
  | .build, "clean" => some .clean
  | .build, "output" => some .output
  | _, "help" => some .help
  | _, _ => none

def Part.short? : Part → Char → Option Switch
  | .program, 'r' => some .root
  | .program, 'C' => some .settings
  | .program, 'V' => some .version
  | .build, 'o' => some .output
  | _, 'h' => some .help
  | _, _ => none

def part? : String → Option Part
  | "init" => some .create
  | "build" => some .build
  | _ => none

/-! ## Reading arguments -/

/-- What has been met but has not taken effect. -/
inductive Unsettled where
  | nothing
  | option (switch : Switch) (value : Option String)
  | words (words : List String)
  deriving DecidableEq, Repr, Inhabited

/-- What has been read of the arguments of a part. -/
structure Reading where
  values : List (Switch × String)
  words : List String
  unsettled : Unsettled
  /-- `--` has been read. -/
  wordsOnly : Bool
  deriving DecidableEq, Repr, Inhabited

namespace Reading

def start : Reading :=
  ⟨[], [], .nothing, false⟩

def give (reading : Reading) (switch : Switch) (value : String) : Except Refusal Reading :=
  if (reading.values.lookup switch).isSome then .error .repeated
  else if switch.takesValue && value.isEmpty then .error .valueMissing
  else .ok { reading with values := reading.values ++ [(switch, value)], unsettled := .nothing }

def settle (reading : Reading) : Except Refusal Reading :=
  match reading.unsettled with
  | .nothing => .ok reading
  | .option _ none => .error .valueMissing
  | .option switch (some value) => reading.give switch value
  | .words words =>
    if words.any String.isEmpty then .error .valueMissing
    else .ok { reading with words := reading.words ++ words, unsettled := .nothing }

def wantsValue (reading : Reading) : Bool :=
  match reading.unsettled with
  | .option _ none => true
  | _ => false

/-- Meets an option, with the value that is joined to it. -/
def meet (reading : Reading) (switch : Switch) (joined : Option String) :
    Except Refusal Reading := do
  let reading ← reading.settle
  match switch, joined with
  | .help, _ => .error .help
  | .version, _ => .error .version
  | .clean, _ => reading.give .clean ""
  | _, some value => reading.give switch value
  | _, none => .ok { reading with unsettled := .option switch none }

/-- Meets the options of one argument after its hyphen, each by its short name. -/
def meetShort (part : Part) (reading : Reading) : List Char → Except Refusal Reading
  | [] => .ok reading
  | c :: cs =>
    match part.short? c with
    | none => .error .unknownArgument
    | some switch =>
      if switch.takesValue then
        match cs with
        | [] => reading.meet switch none
        | '=' :: value => reading.meet switch (some (String.ofList value))
        | value => reading.meet switch (some (String.ofList value))
      else do
        let reading ← reading.meet switch none
        reading.meetShort part cs

/-- Meets an option by its long name, with the value after `=`. -/
def meetLong (part : Part) (reading : Reading) (cs : List Char) : Except Refusal Reading :=
  let name := cs.takeWhile (· != '=')
  let joined := match cs.drop name.length with
    | _ :: value => some (String.ofList value)
    | [] => none
  match part.long? (String.ofList name) with
  | none => .error .unknownArgument
  | some switch =>
    if joined.isSome && !switch.takesValue then .error .valueUnwanted
    else reading.meet switch joined

def meetWord (part : Part) (reading : Reading) (word : String) : Except Refusal Reading :=
  match part, reading.unsettled with
  | .program, _ =>
    .error (if reading.wordsOnly && ((part? word).isSome || word == "help") then .unknownArgument
      else .unknownCommand)
  | .create, .words _ => .error .unknownArgument
  | .create, _ =>
    if reading.words.isEmpty then do
      let reading ← reading.settle
      .ok { reading with unsettled := .words [word] }
    else .error .unknownArgument
  | .build, .words words => .ok { reading with unsettled := .words (words ++ [word]) }
  | .build, _ => do
    let reading ← reading.settle
    .ok { reading with unsettled := .words [word] }

def meetArgument (part : Part) (reading : Reading) (argument : String) :
    Except Refusal Reading :=
  if reading.wordsOnly then reading.meetWord part argument
  else
    match argument.toList with
    | ['-', '-'] => .ok { reading with wordsOnly := true }
    | '-' :: '-' :: cs => reading.meetLong part cs
    | '-' :: c :: cs => reading.meetShort part (c :: cs)
    | _ =>
      match reading.unsettled with
      | .option switch none =>
        .ok { reading with unsettled := .option switch (some argument) }
      | _ => reading.meetWord part argument

def readAll (part : Part) (reading : Reading) : List String → Except Refusal Reading
  | [] => reading.settle
  | argument :: rest => do
    let reading ← reading.meetArgument part argument
    reading.readAll part rest

def isCommandHere (reading : Reading) (argument : String) : Bool :=
  !reading.wordsOnly && !reading.wantsValue && ((part? argument).isSome || argument == "help")

/-- Reads the arguments up to the command: the command and what follows it, if there is one.
What was met before a command takes effect only after the command is read. -/
def readProgram (reading : Reading) : List String →
    Except Refusal (Reading × Option (String × List String))
  | [] => do
    let reading ← reading.settle
    .ok (reading, none)
  | argument :: rest =>
    if reading.isCommandHere argument then .ok (reading, some (argument, rest))
    else do
      let reading ← reading.meetArgument .program argument
      reading.readProgram rest

end Reading

/-! ## Command lines -/

def refuseHelp : List String → Refusal
  | [] => .help
  | ["init"] | ["build"] | ["help"] => .help
  | _ => .unknownCommand

def readRequest (part : Part) (arguments : List String) : Except Refusal Request := do
  let reading ← Reading.start.readAll part arguments
  match part with
  | .build =>
    .ok (.build (reading.values.lookup .clean).isSome (reading.values.lookup .output) reading.words)
  | _ => .ok (.create reading.words.head?)

def parse (arguments : List String) : Except Refusal Invocation := do
  let (reading, command) ← Reading.start.readProgram arguments
  match command with
  | none => .error (if reading.values.isEmpty then .nothingAsked else .commandMissing)
  | some (name, rest) =>
    match part? name with
    | none => .error (refuseHelp rest)
    | some part => do
      let request ← readRequest part rest
      let reading ← reading.settle
      .ok
        { root := reading.values.lookup .root
          settings := (reading.values.lookup .settings).getD defaultSettings
          request }

def Invocation.isCreate (i : Invocation) : Bool :=
  match i.request with
  | .create _ => true
  | .build .. => false

end Folio.Command
