import ApiDescription.Text.Search

/-!
# Command lines

Options stand anywhere among the words of a command line.  A short option takes the rest of its word
or the next word as its value, a long one what follows the equals sign or the next word; long names
may be shortened as long as they stay unambiguous.  The last value given to an option counts, other
words are passed over, and everything behind a bare `--` is.
-/

namespace ApiDescription.Command

inductive OptionName where
  | file | url | method | output
  | special
  deriving DecidableEq, Repr

/-- An option with its names; one without a value name asks for help. -/
structure OptionSpec where
  short : Char
  long : String
  name : Option OptionName

/-- The options of a command whose special option is given by its names. -/
def optionSpecs (short : Char) (long : String) : List OptionSpec :=
  [⟨'h', "help", none⟩, ⟨'f', "file", some .file⟩, ⟨'u', "url", some .url⟩,
    ⟨'m', "method", some .method⟩, ⟨'o', "output", some .output⟩, ⟨short, long, some .special⟩]

abbrev Options := List (OptionName × String)

def Options.value? (options : Options) (name : OptionName) : Option String :=
  ((options.find? fun option => option.1 == name).map Prod.snd).filter fun value => !value.isEmpty

/-- What a command line asks for. -/
inductive Request where
  | run (options : Options)
  | help
  | invalid

def findLong (specs : List OptionSpec) (name : String) : Option OptionSpec :=
  match specs.find? fun spec => spec.long == name with
  | some spec => some spec
  | none =>
    match specs.filter fun spec => Text.startsWith spec.long name with
    | [spec] => some spec
    | _ => none

/-- Divide a long option at its first equals sign. -/
def splitValue (characters : List Char) : String × Option String :=
  match characters.dropWhile (· != '=') with
  | [] => (String.ofList characters, none)
  | _ :: value => (String.ofList (characters.takeWhile (· != '=')), some (String.ofList value))

/-- How a word of a command line begins. -/
inductive WordKind where
  | plain
  | stop
  | long (characters : List Char)
  | short (characters : List Char)

def WordKind.of (word : String) : WordKind :=
  match word.toList with
  | ['-', '-'] => stop
  | '-' :: '-' :: characters => long characters
  | '-' :: first :: rest => short (first :: rest)
  | _ => plain

def findShort (specs : List OptionSpec) (letter : Char) : Option OptionSpec :=
  specs.find? fun spec => spec.short == letter

/-- What one option word does: it asks for help, it is wrong, or it sets a value, which may be in
the word or still to come. -/
inductive Effect where
  | help
  | invalid
  | set (name : OptionName) (value : String)
  | setNext (name : OptionName)

def longEffect (specs : List OptionSpec) (characters : List Char) : Effect :=
  let (name, value) := splitValue characters
  match findLong specs name with
  | none => .invalid
  | some spec =>
    match spec.name, value with
    | none, none => .help
    | none, some _ => .invalid
    | some name, some value => .set name value
    | some name, none => .setNext name

def shortEffect (specs : List OptionSpec) : List Char → Effect
  | [] => .invalid
  | letter :: rest =>
    match findShort specs letter with
    | none => .invalid
    | some spec =>
      match spec.name with
      | none => .help
      | some name => if rest.isEmpty then .setNext name else .set name (String.ofList rest)

def readOptions (specs : List OptionSpec) (options : Options) : List String → Request
  | [] => .run options
  | word :: rest =>
    let apply : Effect → Request
      | .help => .help
      | .invalid => .invalid
      | .set name value => readOptions specs ((name, value) :: options) rest
      | .setNext name =>
        match rest with
        | [] => .invalid
        | value :: others => readOptions specs ((name, value) :: options) others
    match WordKind.of word with
    | .stop => .run options
    | .plain => readOptions specs options rest
    | .long characters => apply (longEffect specs characters)
    | .short characters => apply (shortEffect specs characters)

end ApiDescription.Command
