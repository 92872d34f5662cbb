/-
Arguments of a command line.

Long options are written `--name value` or `--name=value`, short ones `-n value`, `-nvalue` or `-n=value`; several
short flags may stand together. An option cannot be given twice unless it collects its values. What follows `--` is
taken as it is. `-v` is known everywhere, any number of times.

Arguments are read from left to right, and each is checked before the next one is looked at: what is wrong in front of
a call for help counts, what is missing does not.
-/

namespace RoadRules

/-- why the arguments lead to no command -/
inductive Stop where
  /-- they are not understood -/
  | rejected
  /-- they ask for help -/
  | help
  /-- they ask for the version -/
  | version
  deriving DecidableEq, Repr

/-- an option that is followed by a value -/
structure OptionSpec where
  name : String
  short : Option Char := none
  /-- may it be given several times? -/
  collects : Bool := false
  /-- can this text be its value? -/
  accepts : String → Bool := fun _ => true

/-- what a command understands -/
structure ArgumentSpec where
  flags : List String := []
  options : List OptionSpec := []
  /-- the number of file names, given as plain arguments -/
  plain : Nat := 0
  /-- can it be asked for the version? -/
  versioned : Bool := false

structure Arguments where
  flags : List String := []
  /-- options with their values, in the order in which they were given -/
  options : List (String × String) := []
  plain : List String := []

namespace Arguments

/-- the values of an option -/
def values (a : Arguments) (name : String) : List String := (a.options.filter (·.1 == name)).map (·.2)

def value? (a : Arguments) (name : String) : Option String := (a.values name).head?

def hasFlag (a : Arguments) (name : String) : Bool := a.flags.contains name

/-- notes a flag; a second time is an error -/
def addFlag (a : Arguments) (name : String) : Except Stop Arguments :=
  if a.hasFlag name then .error .rejected else .ok { a with flags := a.flags ++ [name] }

/-- notes an option; a second time is an error unless it collects its values -/
def addOption (a : Arguments) (o : OptionSpec) (value : String) : Except Stop Arguments :=
  if !o.accepts value || !o.collects && (a.value? o.name).isSome then .error .rejected
  else .ok { a with options := a.options ++ [(o.name, value)] }

/-- notes a file name, which cannot be empty -/
def addPlain (spec : ArgumentSpec) (a : Arguments) (text : String) : Except Stop Arguments :=
  if text.isEmpty || spec.plain ≤ a.plain.length then .error .rejected else .ok { a with plain := a.plain ++ [text] }

/-- what one argument says -/
inductive Item where
  | plain (text : String)
  | flags (names : List String)
  /-- an option with its value -/
  | option (o : OptionSpec) (value : String)
  /-- an option whose value is the next argument -/
  | awaits (o : OptionSpec)
  /-- everything from here on is plain -/
  | rest

/-- the part before the first `=`, and the part behind it if there is one -/
def splitEquals (s : List Char) : String × Option String :=
  let name := String.ofList (s.takeWhile (· != '='))
  match s.dropWhile (· != '=') with
  | [] => (name, none)
  | _ :: value => (name, some (String.ofList value))

def longItem (spec : ArgumentSpec) (s : List Char) : Except Stop Item :=
  let (name, value) := splitEquals s
  match spec.options.find? (·.name == name), value with
  | some o, some value => .ok (.option o value)
  | some o, none => .ok (.awaits o)
  | none, some _ => .error .rejected
  | none, none =>
    if name == "help" then .error .help
    else if spec.versioned && name == "version" then .error .version
    else if name == "verbose" then .ok (.flags [])
    else if spec.flags.contains name then .ok (.flags [name])
    else .error .rejected

def shortItem (spec : ArgumentSpec) : List Char → Except Stop Item
  | [] => .ok (.flags [])
  | 'v' :: rest => shortItem spec rest
  | 'h' :: _ => .error .help
  | c :: rest =>
    if spec.versioned && c == 'V' then .error .version else
    match spec.options.find? (·.short == some c), rest with
    | none, _ => .error .rejected
    | some o, [] => .ok (.awaits o)
    | some o, '=' :: value => .ok (.option o (String.ofList value))
    | some o, value => .ok (.option o (String.ofList value))

def item (spec : ArgumentSpec) (s : String) : Except Stop Item :=
  match s.toList with
  | ['-', '-'] => .ok .rest
  | '-' :: '-' :: long => longItem spec long
  | ['-'] => .ok (.plain s)
  | '-' :: short => shortItem spec short
  | _ => .ok (.plain s)

/-- can the argument be the value of an option before it? -/
def isValue (s : String) : Bool :=
  match s.toList with
  | '-' :: _ :: _ => false
  | _ => true

/-- reads arguments from left to right; `pending` is an option that waits for its value -/
def read (spec : ArgumentSpec) : (pending : Option OptionSpec) → List String → Arguments → Except Stop Arguments
  | none, [], a => .ok a
  | some _, [], _ => .error .rejected
  | some o, s :: rest, a => do
    if isValue s then read spec none rest (← a.addOption o s) else .error .rejected
  | none, s :: rest, a => do
    match ← item spec s with
    | .plain text => read spec none rest (← addPlain spec a text)
    | .flags names => read spec none rest (← names.foldlM addFlag a)
    | .option o value => read spec none rest (← a.addOption o value)
    | .awaits o => read spec (some o) rest a
    | .rest => rest.foldlM (addPlain spec) a

end Arguments

end RoadRules
