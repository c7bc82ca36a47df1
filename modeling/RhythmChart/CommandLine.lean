/-
The command: its arguments, and what it prints.

Two arguments name the chart and the directory; options may stand anywhere before `--`. An option takes its value
after `=` or from the next argument, and at most once. Arguments are taken from left to right, so what stands behind
`--help` or `--version` no longer counts. A failure is printed with its causes, the outermost first.
-/
import RhythmChart.Conversion

namespace RhythmChart.CommandLine

open Conversion (Options Summary)
open Storage (Host)

/-- what the command is asked to do -/
inductive Request where
  | convert (o : Options)
  | help
  | version
  deriving DecidableEq, Repr

/-! ## Arguments -/

/-- an option that takes a value -/
inductive Setting where
  | settings
  | encoder
  deriving DecidableEq, Repr

/-- what the arguments so far say -/
structure Arguments where
  chart : Option String
  out : Option String
  settings : Option String
  encoder : Option String
  skipAudio : Bool
  /-- the option whose value comes next -/
  awaited : Option Setting
  /-- whether `--` has been met -/
  optionsOver : Bool
  deriving DecidableEq, Repr

namespace Arguments

/-- before the first argument -/
def none : Arguments := ⟨.none, .none, .none, .none, false, .none, false⟩

/-- the value of an option, which must have none yet -/
def set? (a : Arguments) (value : String) : Setting → Option Arguments
  | .settings => if value = "" || a.settings.isSome then .none else some { a with settings := value, awaited := .none }
  | .encoder => if value = "" || a.encoder.isSome then .none else some { a with encoder := value, awaited := .none }

/-- an argument that is no option -/
def place? (a : Arguments) (text : String) : Option Arguments :=
  if text = "" then .none
  else match a.awaited, a.chart, a.out with
    | some setting, _, _ => if a.optionsOver then .none else a.set? text setting
    | .none, .none, _ => some { a with chart := text }
    | .none, some _, .none => some { a with out := text }
    | .none, some _, some _ => .none

/-- the request, when all arguments have been read -/
def request? (a : Arguments) : Option Request :=
  match a.awaited, a.chart, a.out with
  | .none, some chart, some out => some (.convert ⟨chart, out, a.settings, a.encoder, a.skipAudio⟩)
  | _, _, _ => .none

/-- an option that takes a value, given or still to come -/
def setting? (a : Arguments) (setting : Setting) : Option String → Option Arguments
  | some value => a.set? value setting
  | .none => some { a with awaited := setting }

end Arguments

/-- what one argument does: it answers the command, or is taken in -/
inductive Step where
  | answer (r : Request)
  | goOn (a : Arguments)

/-- the step for an option with two dashes; `name` stands before `=`, the value after it -/
def longStep? (a : Arguments) (name : List Char) (value : Option String) : Option Step :=
  if name = "notation".toList then (a.setting? .settings value).map .goOn
  else if name = "ffmpeg".toList then (a.setting? .encoder value).map .goOn
  else if value.isSome then none
  else if name = "skip-audio".toList then
    if a.skipAudio then none else some (.goOn { a with skipAudio := true })
  else if name = "help".toList then some (.answer .help)
  else if name = "version".toList then some (.answer .version)
  else none

/-- the step for one argument; none if it is wrong there -/
def step? (a : Arguments) (argument : String) : Option Step :=
  if a.optionsOver then (a.place? argument).map .goOn
  else match argument.toList with
    | ['-', '-'] => some (.goOn { a with optionsOver := true })
    | '-' :: '-' :: name =>
      if a.awaited.isSome then none
      else match Text.cutAt? '=' name with
        | some (name, value) => longStep? a name (some (.ofList value))
        | none => longStep? a name none
    | '-' :: c :: _ =>
      if a.awaited.isSome then none
      else if c = 'h' then some (.answer .help)
      else if c = 'V' then some (.answer .version)
      else none
    | _ => (a.place? argument).map .goOn

/-- what arguments ask for after others -/
def readFrom (a : Arguments) : List String → Option Request
  | [] => a.request?
  | argument :: rest =>
    match step? a argument with
    | none => none
    | some (.answer r) => some r
    | some (.goOn a) => readFrom a rest

/-- what arguments ask for; none if they are wrong -/
def read (arguments : List String) : Option Request := readFrom .none arguments

/-! ## Texts -/

def versionText : String := "textsaber 0.1.0\n"

def usageText : String := "Usage: textsaber [OPTIONS] <INPUT> <OUT_DIR>\n"

def helpText : String :=
  "Convert a TextSaber notation file into level files\n\n" ++ usageText ++
  "\nArguments:\n" ++
  "  <INPUT>    Notation file to convert\n" ++
  "  <OUT_DIR>  Directory to write the level into (created if missing)\n" ++
  "\nOptions:\n" ++
  "      --notation <FILE>  Notation config overriding the symbol alphabets\n" ++
  "      --ffmpeg <PATH>    ffmpeg executable used for audio transcoding\n" ++
  "      --skip-audio       Do not copy or transcode the song audio\n" ++
  "  -h, --help             Print help\n" ++
  "  -V, --version          Print version\n"

/-- a natural number -/
def count (n : Nat) : String := .ofList (Text.digitsOf n)

/-- what a conversion made -/
def summaryText (s : Summary) : String :=
  count s.notes ++ " notes, " ++ count s.walls ++ " obstacles across " ++ count s.difficulties.length ++
    " difficulties\n" ++ String.join (s.written.map fun path => "  wrote " ++ path ++ "\n")

/-- the lines of a cause, the first behind its mark and the others below the first -/
def causeText (mark : String) (cause : String) : String :=
  let (first, rest) := Text.pieces '\n' cause.toList
  let below := "\n".toList ++ List.replicate mark.length ' '
  .ofList (mark.toList ++ first ++ (rest.map (below ++ ·)).flatten)

/-- the mark of a cause: its number when there are several, right-aligned -/
def causeMark (several : Bool) (index : Nat) : String :=
  if several then .ofList (List.replicate (5 - (count index).length) ' ') ++ count index ++ ": " else "    "

/-- an error and its causes -/
def failureText (error : String) (causes : List String) : String :=
  let several := 1 < causes.length
  let texts := causes.zipIdx.map fun (cause, index) => "\n" ++ causeText (causeMark several index) cause
  "Error: " ++ error ++ (if causes.isEmpty then "" else "\n\nCaused by:" ++ String.join texts) ++ "\n"

/-! ## Running -/

/-- how the command ended, and what it printed -/
structure Outcome where
  status : UInt8
  output : String
  complaint : String
  deriving DecidableEq, Repr

variable {m : Type → Type} [Monad m] [Host m]

/-- do what is asked -/
def perform : Request → m Outcome
  | .help => return ⟨0, helpText, ""⟩
  | .version => return ⟨0, versionText, ""⟩
  | .convert o => do
    match ← (Conversion.convert o).run with
    | .ok summary => return ⟨0, summaryText summary, ""⟩
    | .error e => return ⟨1, "", failureText (e.texts.headD "") e.texts.tail⟩

/-- run the command -/
def run (arguments : List String) : m Outcome :=
  match read arguments with
  | some request => perform request
  | none => return ⟨2, "", usageText⟩

end RhythmChart.CommandLine
