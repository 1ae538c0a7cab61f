/-!
The arguments of the command line. They are read from left to right; the first that is wrong, or
asks for the version or for help, ends the reading.
-/

namespace SqlSelect.Command

inductive OutputFormat where
  | script
  | query
  | json
deriving DecidableEq

def OutputFormat.ofName? : String → Option OutputFormat
  | "script" => some script
  | "query" => some query
  | "json" => some json
  | _ => none

inductive Task where
  | build (document : String) (schema? : Option String) (format : OutputFormat) (crlf : Bool)
  | explain (document : String)
  | demo (format : OutputFormat) (crlf : Bool)

structure Arguments where
  config? : Option String
  verbose : Bool
  task : Task

inductive Stop where
  | refused
  | version
  | help
deriving DecidableEq

inductive Switch where
  | verbose
  | crlf
  | version
  | help
deriving DecidableEq

inductive Setting where
  | config
  | schema
  | format
deriving DecidableEq

def Switch.long : Switch → String
  | verbose => "verbose"
  | crlf => "crlf"
  | version => "version"
  | help => "help"

def Switch.short? : Switch → Option Char
  | verbose => some 'v'
  | crlf => none
  | version => some 'V'
  | help => some 'h'

def Setting.long : Setting → String
  | config => "config"
  | schema => "schema"
  | format => "format"

def Setting.short? : Setting → Option Char
  | config => none
  | schema => some 's'
  | format => some 'f'

-- The options that can stand at one place: before the name of a task, or behind it.
structure Level where
  switches : List Switch
  settings : List Setting

-- What was given at one level, of settings the first first.
structure Given where
  switches : List Switch := []
  settings : List (Setting × String) := []
  words : List String := []

namespace Given

def value? (g : Given) (s : Setting) : Option String :=
  (g.settings.find? (·.1 == s)).map (·.2)

-- A switch stands once; two of them end the reading.
def addSwitch (g : Given) (s : Switch) : Except Stop Given :=
  if g.switches.contains s then .error .refused
  else match s with
    | .version => .error .version
    | .help => .error .help
    | s => .ok { g with switches := g.switches ++ [s] }

def isValue (s : Setting) (value : String) : Bool :=
  match s with
  | .format => (OutputFormat.ofName? value).isSome
  | _ => !value.isEmpty

def addSetting (g : Given) (s : Setting) (value : String) : Except Stop Given :=
  if (g.value? s).isSome || !isValue s value then .error .refused
  else .ok { g with settings := g.settings ++ [(s, value)] }

def addWord (g : Given) (limit : Nat) (word : String) : Except Stop Given :=
  if word.isEmpty || limit ≤ g.words.length then .error .refused
  else .ok { g with words := g.words ++ [word] }

end Given

-- A lone hyphen is a word.
def isWord (argument : List Char) : Bool :=
  match argument with
  | '-' :: _ :: _ => false
  | _ => true

def nextValue (rest : List String) : Except Stop (String × List String) :=
  match rest with
  | value :: rest => if isWord value.toList then .ok (value, rest) else .error .refused
  | [] => .error .refused

def addLong (level : Level) (g : Given) (body : List Char) (rest : List String) :
    Except Stop (Given × List String) :=
  let (name, value) := body.span (· != '=')
  let name := String.ofList name
  match level.switches.find? (·.long == name), level.settings.find? (·.long == name) with
  | some s, _ => do
    if !value.isEmpty then throw .refused
    pure (← g.addSwitch s, rest)
  | none, some s =>
    match value with
    | _ :: value => do pure (← g.addSetting s (String.ofList value), rest)
    | [] => do
      let (value, rest) ← nextValue rest
      pure (← g.addSetting s value, rest)
  | none, none => .error .refused

-- Options by their letters; the value of a setting is what follows its letter, perhaps behind `=`,
-- or else the next argument.
def addShorts (level : Level) (g : Given) (letters : List Char) (rest : List String) :
    Except Stop (Given × List String) :=
  match letters with
  | [] => .ok (g, rest)
  | c :: letters =>
    match level.switches.find? (·.short? == some c), level.settings.find? (·.short? == some c) with
    | some s, _ => do addShorts level (← g.addSwitch s) letters rest
    | none, some s =>
      match letters with
      | '=' :: value => do pure (← g.addSetting s (String.ofList value), rest)
      | [] => do
        let (value, rest) ← nextValue rest
        pure (← g.addSetting s value, rest)
      | value => do pure (← g.addSetting s (String.ofList value), rest)
    | none, none => .error .refused

-- Reads the arguments behind the name of a task, with at most `limit` words. All arguments behind
-- `--` are words. Each step takes an argument, so that their number is enough `fuel`.
def readGiven (level : Level) (limit : Nat) : (fuel : Nat) → Given → List String →
    Except Stop Given
  | _, g, [] => .ok g
  | 0, g, _ => .ok g
  | fuel + 1, g, argument :: rest =>
    match argument.toList with
    -- Nothing behind this is an option.
    | ['-', '-'] => rest.foldlM (·.addWord limit) g
    | '-' :: '-' :: body => do
      let (g, rest) ← addLong level g body rest
      readGiven level limit fuel g rest
    | '-' :: c :: letters => do
      let (g, rest) ← addShorts level g (c :: letters) rest
      readGiven level limit fuel g rest
    | _ => do readGiven level limit fuel (← g.addWord limit argument) rest

def taskLevel (switches : List Switch) (settings : List Setting) : Level :=
  ⟨[.verbose, .help] ++ switches, .config :: settings⟩

def commonLevel : Level :=
  ⟨[.verbose, .help, .version], [.config]⟩

def formatOf (g : Given) : OutputFormat :=
  ((g.value? .format).bind OutputFormat.ofName?).getD .script

def isTask (name : String) : Bool :=
  ["build", "explain", "demo", "help"].contains name

-- The task of the given name; help is for one task or for all. A schema that is not given may be
-- named by the environment.
def readTask (schemaVariable : Option String) (name : String) (rest : List String) :
    Except Stop (Given × Task) :=
  let read (level : Level) (limit : Nat) := readGiven level limit rest.length {} rest
  match name with
  | "build" => do
    let g ← read (taskLevel [.crlf] [.schema, .format]) 1
    let schema? := g.value? .schema <|> schemaVariable
    match g.words with
    | [document] =>
      if schema? = some "" then throw .refused
      pure (g, .build document schema? (formatOf g) (g.switches.contains .crlf))
    | _ => throw .refused
  | "explain" => do
    let g ← read (taskLevel [] []) 1
    match g.words with
    | [document] => pure (g, .explain document)
    | _ => throw .refused
  | "demo" => do
    let g ← read (taskLevel [.crlf] [.format]) 0
    pure (g, .demo (formatOf g) (g.switches.contains .crlf))
  | "help" => .error (if rest.isEmpty || rest.length = 1 && rest.all isTask then .help else .refused)
  | _ => .error .refused

-- What is given behind the name of the task wins over what is given before it.
def readArguments (schemaVariable : Option String) : (fuel : Nat) → Given → List String →
    Except Stop Arguments
  | fuel + 1, g, argument :: rest =>
    match argument.toList with
    | ['-', '-'] => .error .refused
    | '-' :: '-' :: body => do
      let (g, rest) ← addLong commonLevel g body rest
      readArguments schemaVariable fuel g rest
    | '-' :: c :: letters => do
      let (g, rest) ← addShorts commonLevel g (c :: letters) rest
      readArguments schemaVariable fuel g rest
    | _ => do
      let (inner, task) ← readTask schemaVariable argument rest
      pure ⟨inner.value? .config <|> g.value? .config,
        inner.switches.contains .verbose || g.switches.contains .verbose, task⟩
  | _, _, _ => .error .refused

def Arguments.parse (schemaVariable : Option String) (arguments : List String) :
    Except Stop Arguments :=
  readArguments schemaVariable arguments.length {} arguments

end SqlSelect.Command
