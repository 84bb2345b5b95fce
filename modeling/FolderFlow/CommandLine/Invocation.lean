import FolderFlow.CommandLine.Options
import FolderFlow.Restriction.Listing

/-!
# Invocations

What the words of a command line ask for. The options `verbose` and `config` may stand before the
command or behind it, where they count more. `verbose` is read and asks for nothing more.
-/

namespace FolderFlow

inductive Command where
  | check
  | rules (format : ListingFormat) (output : Option String)
  | docs (format : Bool) (cacheDir : Option String)
  | init (force : Bool)
  deriving DecidableEq, Repr

inductive Invocation where
  | run (config : Option String) (command : Command)
  | help
  | version
  | usageError
  deriving DecidableEq, Repr

namespace ListingFormat

def name : ListingFormat → String
  | text => "text"
  | json => "json"
  | eslint => "eslint"

def all : List ListingFormat :=
  [text, json, eslint]

def ofName? (name : String) : Option ListingFormat :=
  all.find? fun format => format.name == name

end ListingFormat

namespace Invocation

/-! ## The options -/

/-- Options that may stand on both sides of the command. -/
def sharedOptions : List OptionSpec :=
  [⟨"verbose", some 'v', .flag⟩, ⟨"config", some 'c', .path⟩, ⟨"help", some 'h', .help⟩]

def outerOptions : List OptionSpec :=
  ⟨"version", some 'V', .version⟩ :: sharedOptions

def commandNames : List String :=
  ["check", "rules", "docs", "init", "help"]

def ownOptions (command : String) : List OptionSpec :=
  match command with
  | "rules" =>
    [⟨"format", some 'f', .choice (ListingFormat.all.map ListingFormat.name)⟩,
      ⟨"output", some 'o', .path⟩]
  | "docs" => [⟨"no-format", none, .flag⟩, ⟨"cache-dir", none, .path⟩]
  | "init" => [⟨"force", none, .flag⟩]
  | _ => []

/-! ## Reading -/

def isSet (settings : Settings) (name : String) : Bool :=
  (settings.lookup name).isSome

def commandOf? (name : String) (settings : Settings) : Option Command :=
  match name with
  | "check" => some .check
  | "rules" =>
    some (.rules (((settings.lookup "format").bind ListingFormat.ofName?).getD .text)
      (settings.lookup "output"))
  | "docs" => some (.docs (!isSet settings "no-format") (settings.lookup "cache-dir"))
  | "init" => some (.init (isSet settings "force"))
  | _ => none

def ofStop : OptionStop → Invocation
  | .usage => usageError
  | .help => help
  | .version => version

/-- Help may be asked for on a command. -/
def ofHelpWords : List String → Invocation
  | [] => help
  | [name] => if commandNames.contains name then help else usageError
  | _ => usageError

def ofCommand (outer : Settings) (name : String) (words : List String) : Invocation :=
  match OptionSpec.readWords (sharedOptions ++ ownOptions name) [] ([], none) words with
  | .error stop => ofStop stop
  | .ok (inner, _) =>
    match commandOf? name inner with
    | some command => run (inner.lookup "config" <|> outer.lookup "config") command
    | none => usageError

/-- What the words behind the name of the program ask for; a command must be among them. -/
def ofArgs (args : List String) : Invocation :=
  match OptionSpec.readWords outerOptions commandNames ([], none) args with
  | .error stop => ofStop stop
  | .ok (_, none) => usageError
  | .ok (outer, some (name, words)) =>
    if name == "help" then ofHelpWords words else ofCommand outer name words

end Invocation

end FolderFlow
