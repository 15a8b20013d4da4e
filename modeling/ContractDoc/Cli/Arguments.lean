import ContractDoc.Text.Digit
import ContractDoc.Text.Quoted
import ContractDoc.Text.Segment

/-!
# Command line arguments

The arguments are a list of paths and some options.  An option is spelled out,
or shortened to a beginning that fits no other option; its value follows as an
argument of its own, behind an equals sign, or, for a short option, right behind
the letter.  Short options without a value may share one argument with the
option behind them.

Two dashes alone end the options.  As a value that is part of its argument they
leave the option blank.

The paths have to stand together: those behind a later option are refused.
-/

namespace ContractDoc
namespace Cli

open Text

/-- The options of the command. -/
inductive Switch where
  | help
  | format
  | output
  | noMerge
  | contract
  | includePath
  | quiet
  | verbose
  deriving DecidableEq, Repr

namespace Switch

/-- All options in the order of the usage text. -/
def all : List Switch :=
  [help, format, output, noMerge, contract, includePath, quiet, verbose]

/-- The spellings of an option. -/
def spellings : Switch → List String
  | help => ["-h", "--help"]
  | format => ["--format"]
  | output => ["-o", "--output"]
  | noMerge => ["--no-merge"]
  | contract => ["--contract"]
  | includePath => ["-I", "--include-path"]
  | quiet => ["--quiet"]
  | verbose => ["--verbose"]

/-- Whether an option has a value. -/
def takesValue : Switch → Bool
  | format | output | contract | includePath => true
  | help | noMerge | quiet | verbose => false

/-- How an option is called in messages. -/
def label (switch : Switch) : String :=
  "/".intercalate switch.spellings

/-- Every spelling with its option, in the order of the usage text. -/
def table : List (String × Switch) :=
  all.flatMap fun switch => switch.spellings.map (·, switch)

/-- The option with a spelling. -/
def ofSpelling? (spelling : String) : Option Switch :=
  table.lookup spelling

end Switch

/-- The formats of the output. -/
inductive Format where
  | json
  | yaml
  | summary
  deriving DecidableEq, Repr

namespace Format

/-- All formats in the order of the usage text. -/
def all : List Format := [json, yaml, summary]

/-- The name of a format. -/
def label : Format → String
  | json => "json"
  | yaml => "yaml"
  | summary => "summary"

/-- The format with a name. -/
def ofLabel? (label : String) : Option Format :=
  all.find? (·.label == label)

end Format

/-- What is asked for on the command line. -/
structure Request where
  paths : List String
  /-- The format, unless it is left blank. -/
  format : Option Format
  output : Option String
  merges : Bool
  contract : Option String
  /-- The include paths, with nothing for one that is left blank. -/
  includePaths : List (Option String)
  quiet : Bool
  verbose : Bool
  deriving DecidableEq, Repr

/-- Why the arguments do not make up a request. -/
inductive Refusal where
  /-- The help text is asked for. -/
  | help
  | missingPaths
  | invalidFormat (given : String)
  | missingValue (switch : Switch)
  | ignoredValue (switch : Switch) (given : String)
  | ambiguous (given : String) (matching : List String)
  | unrecognized (arguments : List String)
  deriving DecidableEq, Repr

namespace Refusal

/-- The wording of a refusal. -/
def message : Refusal → String
  | help => ""
  | missingPaths => "the following arguments are required: paths"
  | invalidFormat given =>
      let choices := ", ".intercalate (Format.all.map (quotedString ·.label))
      s!"argument {Switch.format.label}: invalid choice: {quotedString given} " ++
        s!"(choose from {choices})"
  | missingValue switch => s!"argument {switch.label}: expected one argument"
  | ignoredValue switch given =>
      s!"argument {switch.label}: ignored explicit argument {quotedString given}"
  | ambiguous given matching =>
      let options := ", ".intercalate matching
      s!"ambiguous option: {given} could match {options}"
  | unrecognized arguments =>
      "unrecognized arguments: " ++ " ".intercalate arguments

end Refusal

/-- One use of an option, with the rest of its argument. -/
structure Use where
  switch : Switch
  isShort : Bool
  attached : Option String
  deriving DecidableEq, Repr

/-- What an argument can be. -/
inductive Word where
  | plain (text : String)
  /-- The two dashes that end the options. -/
  | separator
  | option (use : Use)
  /-- An argument that looks like an option and is none. -/
  | unknown (text : String)
  deriving DecidableEq, Repr

/-- The spelling before an equals sign, and the value behind it. -/
def splitEquals (argument : List Char) : List Char × Option String :=
  let (spelling, value) := cutAt '=' argument
  (spelling, if argument.contains '=' then some (String.ofList value) else none)

/-- A text without the line feed at its end, if there is one. -/
def dropLineEnd (text : List Char) : List Char :=
  if text.getLast? = some '\n' then text.dropLast else text

/-- Whether an argument is a negative number, which may end with a line feed. -/
def isNegativeNumber : List Char → Bool
  | '-' :: text =>
      let number := dropLineEnd text
      match number.dropWhile isDigit with
      | [] => !number.isEmpty
      | '.' :: fraction => !fraction.isEmpty && fraction.all isDigit
      | _ => false
  | _ => false

/-- The options that a shortened spelling may stand for. -/
def matchingUses (argument : List Char) : List (String × Use) :=
  match argument with
  | '-' :: '-' :: _ =>
      let (beginning, attached) := splitEquals argument
      (Switch.table.filter fun (spelling, _) => beginning.isPrefixOf spelling.toList).map
        fun (spelling, switch) => (spelling, ⟨switch, false, attached⟩)
  | _ =>
      Switch.table.filterMap fun (spelling, switch) =>
        if spelling.toList = argument.take 2 then
          some (spelling, ⟨switch, true, some (String.ofList (argument.drop 2))⟩)
        else if argument.isPrefixOf spelling.toList then
          some (spelling, ⟨switch, true, none⟩)
        else none

/-- Whether a spelling is a single dash and a letter. -/
def isShortSpelling (spelling : List Char) : Bool :=
  spelling.drop 1 |>.head?.any (· != '-')

/-- The option that an argument spells out, with a value behind an equals sign. -/
def exactUse? (argument : List Char) : Option Use :=
  match Switch.ofSpelling? (String.ofList argument) with
  | some switch => some ⟨switch, isShortSpelling argument, none⟩
  | none =>
      let (spelling, attached) := splitEquals argument
      if attached.isNone then none
      else (Switch.ofSpelling? (String.ofList spelling)).map fun switch =>
        ⟨switch, isShortSpelling spelling, attached⟩

/-- What an argument before the separator is. -/
def classify (argument : String) : Except Refusal Word :=
  let text := argument.toList
  if text.head? ≠ some '-' ∨ text = ['-'] then .ok (.plain argument)
  else
    match exactUse? text with
    | some use => .ok (.option use)
    | none =>
        match matchingUses text with
        | [(_, use)] => .ok (.option use)
        | [] =>
            if isNegativeNumber text ∨ text.contains ' ' then .ok (.plain argument)
            else .ok (.unknown argument)
        | several => .error (.ambiguous argument (several.map Prod.fst))

/-- What the arguments are.  Behind the separator all are plain. -/
def classifyAll : List String → Except Refusal (List Word)
  | [] => .ok []
  | "--" :: rest => .ok (.separator :: rest.map .plain)
  | argument :: rest => do return (← classify argument) :: (← classifyAll rest)

/-- What has been read of the arguments. -/
structure Reading where
  request : Request
  /-- Whether the paths have been read. -/
  hasPaths : Bool
  /-- The arguments that nothing takes. -/
  extras : List String
  deriving DecidableEq, Repr

namespace Reading

/-- Before the first argument. -/
def start : Reading where
  request := {
    paths := [], format := some .summary, output := none, merges := true, contract := none,
    includePaths := [], quiet := false, verbose := false }
  hasPaths := false
  extras := []

/-- Adds an argument that nothing takes. -/
def addExtras (reading : Reading) (arguments : List String) : Reading :=
  { reading with extras := reading.extras ++ arguments }

/-- Applies an option with its value.  There is none if the option takes none or
is left blank. -/
def apply (reading : Reading) (switch : Switch) (value : Option String) :
    Except Refusal Reading :=
  let set (change : Request → Request) : Except Refusal Reading :=
    .ok { reading with request := change reading.request }
  match switch with
  | .help => .error .help
  | .format =>
      match value, value.bind Format.ofLabel? with
      | some label, none => .error (.invalidFormat label)
      | _, format => set ({ · with format })
  | .output => set ({ · with output := value })
  | .noMerge => set ({ · with merges := false })
  | .contract => set ({ · with contract := some (value.getD "") })
  | .includePath =>
      set fun request => { request with includePaths := request.includePaths ++ [value] }
  | .quiet => set ({ · with quiet := true })
  | .verbose => set ({ · with verbose := true })

/-- Applies options with their values in order. -/
def applyAll (reading : Reading) (uses : List (Switch × Option String)) :
    Except Refusal Reading :=
  uses.foldlM (fun reading (switch, value) => reading.apply switch value) reading

/-- Takes plain arguments that stand together: as the paths, if there are none
yet.  The separator is no path. -/
def takePlain (reading : Reading) (arguments : List String) : Reading :=
  if reading.hasPaths ∨ arguments = ["--"] then reading.addExtras arguments
  else { reading with
    request := { reading.request with paths := arguments.erase "--" }, hasPaths := true }

end Reading

/-- The options in one argument.  All but the last one take no value. -/
structure Group where
  front : List Switch
  last : Switch
  /-- The value of the last option, if it is in the argument too. -/
  value : Option String
  deriving DecidableEq, Repr

/-- Divides the letters behind the short option `switch`, which the options
`front` precede.  They are its value, if it takes one, and further options
otherwise. -/
def splitGroup (front : List Switch) (switch : Switch) :
    List Char → Except Refusal Group
  | [] => .ok ⟨front, switch, none⟩
  | letter :: rest =>
      if switch.takesValue then .ok ⟨front, switch, some (String.ofList (letter :: rest))⟩
      else
        match Switch.ofSpelling? (String.ofList ['-', letter]) with
        | some next => splitGroup (front ++ [switch]) next rest
        | none => .error (.ignoredValue switch (String.ofList (letter :: rest)))

/-- The options that a use stands for. -/
def Use.group (use : Use) : Except Refusal Group :=
  match use.attached with
  | none => .ok ⟨[], use.switch, none⟩
  | some text =>
      if use.switch.takesValue then .ok ⟨[], use.switch, some text⟩
      else if use.isShort ∧ text ≠ "" then splitGroup [] use.switch text.toList
      else .error (.ignoredValue use.switch text)

/-- A value, which two dashes leave blank. -/
def valueOf (text : String) : Option String :=
  if text = "--" then none else some text

/-- Whether the value of the last option is the next argument. -/
def Group.needsValue (group : Group) : Bool :=
  group.value.isNone && group.last.takesValue

/-- The options of a group with their values, of which the last is given. -/
def Group.uses (group : Group) (value : Option String) : List (Switch × Option String) :=
  group.front.map (·, none) ++ [(group.last, value)]

/-- Takes the plain arguments before an option or at the end, if there are any. -/
def Reading.flush (reading : Reading) (plain : List String) : Reading :=
  if plain.isEmpty then reading else reading.takePlain plain

/-- Reads the arguments from left to right.  `plain` holds the plain arguments
just read, which end at the next option. -/
def readWords (reading : Reading) (plain : List String) :
    List Word → Except Refusal Reading
  | [] => .ok (reading.flush plain)
  | .plain text :: rest => readWords reading (plain ++ [text]) rest
  | .separator :: rest => readWords reading (plain ++ ["--"]) rest
  | .unknown text :: rest => readWords ((reading.flush plain).addExtras [text]) [] rest
  | .option use :: rest => do
      let group ← use.group
      let reading := reading.flush plain
      if group.needsValue then
        match rest with
        | .plain text :: rest =>
            readWords (← reading.applyAll (group.uses (valueOf text))) [] rest
        | _ => throw (.missingValue group.last)
      else
        readWords (← reading.applyAll (group.uses (group.value.bind valueOf))) [] rest

/-- Reads the command line. -/
def parseArguments (arguments : List String) : Except Refusal Request := do
  let words ← classifyAll arguments
  let reading ← readWords .start [] words
  if !reading.hasPaths then throw .missingPaths
  if !reading.extras.isEmpty then throw (.unrecognized reading.extras)
  return reading.request

end Cli
end ContractDoc
