import SqlSelect.Command.Arguments
import SqlSelect.Command.Style
import SqlSelect.Config
import SqlSelect.Document.Demo
import SqlSelect.Document.Query
import SqlSelect.Document.Reading
import SqlSelect.Schema.Demo
import SqlSelect.Schema.Reading
/-!
The commands. What they write is computed from the files that a host reads for them.
-/

namespace SqlSelect.Command

inductive FileFault where
  | missing
  | notADirectory
  | isADirectory
  | nameTooLong
  | zeroInName
  | notText
  | other (words : String)

def FileFault.message : FileFault → String
  | missing => "No such file or directory (os error 2)"
  | notADirectory => "Not a directory (os error 20)"
  | isADirectory => "Is a directory (os error 21)"
  | nameTooLong => "File name too long (os error 36)"
  | zeroInName => "file name contained an unexpected NUL byte"
  | notText => "stream did not contain valid UTF-8"
  | other words => words

structure Host (m : Type → Type) where
  environment : String → Option String
  terminal : Bool
  contents : String → m (Except FileFault String)
  holds : String → m Bool

inductive Cause where
  | fault (f : Fault)
  | file (f : FileFault)
  | noSchema

structure Failure where
  doing : Option String
  cause : Cause

def Cause.message : Cause → String
  | fault f => f.message
  | file f => "IO error: " ++ f.message ++ ": " ++ f.message
  | noSchema => "no schema given; use --schema, PARAMQUERY_SCHEMA or schema_path in the config"

def Cause.isMalformed : Cause → Bool
  | fault f => f.isMalformed
  | _ => false

-- The line that reports a failure; it stays open where the fault has no words for it.
def Failure.report (f : Failure) (coloured : Bool) : String :=
  let doing := match f.doing with
    | some what => what ++ ": "
    | none => ""
  Style.alarm.apply coloured "Error:" ++ " " ++ doing ++ f.cause.message ++
    (if f.cause.isMalformed then "" else "\n")

structure Outcome where
  exitCode : Nat
  output : String
  errors : String

structure Report where
  output : String
  failure : Option Failure := none

def kindWord : ParameterKind → String
  | .bigint => "BigInt"
  | .decimal => "Decimal"
  | .nchar => "NChar"
  | .nvarchar => "NVarChar"
  | .datetime => "DateTime"

def Parameter.toJson (p : Parameter) : Json :=
  .object [("name", .string p.name), ("value", .string p.value), ("kind", .string p.kind.name)]

def builtToJson (b : BuiltQuery) : Json :=
  .object [
    ("command", .object [("text", .string b.text),
      ("parameters", .array (b.parameters.map Parameter.toJson))]),
    ("runnable_script", .string b.script),
    ("parameterized_query", .string b.text)]

def parameterLine (coloured : Bool) (p : Parameter) : String :=
  "  " ++ Style.name.apply coloured p.name ++ " " ++
    Style.dimmed.apply coloured ("(" ++ kindWord p.kind ++ ")") ++ " = " ++
    Style.value.apply coloured p.value ++ "\n"

def showBuilt (coloured : Bool) (b : BuiltQuery) : OutputFormat → String
  | .script => b.script
  | .query =>
    match b.parameters with
    | [] => b.text
    | parameters =>
      b.text ++ "\n" ++ Style.title.apply coloured "Parameters:" ++ "\n" ++
        String.join (parameters.map (parameterLine coloured))
  | .json => (builtToJson b).pretty ++ "\n"

def buildOptions (config : Config) (crlf : Bool) : BuildOptions :=
  if crlf then { config.build with lineEnding := .crlf } else config.build

def reportBuilt (coloured : Bool) (format : OutputFormat) (opening : String) :
    Except Fault BuiltQuery → Report
  | .ok b => { output := opening ++ showBuilt coloured b format }
  | .error f => { output := opening, failure := some ⟨none, .fault f⟩ }

def summaryLine (coloured : Bool) (label value : String) : String :=
  "  " ++ Style.dimmed.apply coloured label ++ " " ++ value ++ "\n"

def summary (coloured : Bool) (d : Document) : String :=
  Style.heading.apply coloured "Query document" ++ "\n" ++
    summaryLine coloured "from:" (Style.plain.apply coloured d.source) ++
    summaryLine coloured "aliases:"
      (String.intercalate ", " (d.aliases.map fun a => a.entity ++ " as " ++ a.name)) ++
    summaryLine coloured "columns:" (Nat.repr d.select.length) ++
    summaryLine coloured "joins:" (Nat.repr d.joins.length) ++ "\n"

def showFilter (coloured : Bool) (p : Predicate) : String :=
  Style.heading.apply coloured "Filter:" ++ "\n" ++
    "  " ++ Style.value.apply coloured p.explain ++ "\n\n" ++
    Style.heading.apply coloured "Grouping:" ++ "\n" ++ p.outlineText

-- The summary comes first, also where the filter has a fault.
def explain (coloured : Bool) (d : Document) : Report :=
  match d.predicate with
  | .ok (some p) => { output := summary coloured d ++ showFilter coloured p }
  | .ok none => { output := summary coloured d ++ Style.dimmed.apply coloured "(no filter)" ++ "\n" }
  | .error f => { output := summary coloured d, failure := some ⟨none, .fault f⟩ }

def demo (coloured verbose : Bool) (config : Config) (format : OutputFormat) (crlf : Bool) :
    Report :=
  let opening := if verbose then
      Style.dimmed.apply coloured "Demo document:" ++ "\n" ++
        Style.dimmed.apply coloured Demo.documentText ++ "\n"
    else ""
  reportBuilt coloured format opening do
    let d ← Document.parse Demo.documentText
    d.build Demo.schema (buildOptions config crlf)

section Host

variable {m : Type → Type} [Monad m]

-- No file is looked for under a name with a zero in it.
def readContents (host : Host m) (path : String) : m (Except FileFault String) :=
  if path.toList.contains '\x00' then pure (.error .zeroInName) else host.contents path

def load {α : Type} (host : Host m) (doing path : String) (parse : String → Except Fault α) :
    ExceptT Failure m α := do
  match ← liftM (readContents host path) with
  | .error f => throw ⟨some doing, .file f⟩
  | .ok text =>
    match parse text with
    | .ok a => pure a
    | .error f => throw ⟨some doing, .fault f⟩

def defaultConfigPath (environment : String → Option String) : Option String :=
  let directory := match environment "XDG_CONFIG_HOME" with
    | some path => if path.startsWith "/" then some path else none
    | none => none
  let home := match environment "HOME" with
    | some path => if path.isEmpty then none else some (path ++ "/.config")
    | none => none
  (directory <|> home).map (· ++ "/paramquery/config.toml")

def loadConfig (host : Host m) (named : Option String) : ExceptT Failure m Config := do
  match named with
  | some path => load host "loading config" path Config.parse
  | none =>
    match defaultConfigPath host.environment with
    | none => pure {}
    | some path =>
      if ← host.holds path then load host "loading config" path Config.parse else pure {}

def loadDocument (host : Host m) (path : String) : ExceptT Failure m Document :=
  load host ("loading " ++ path) path Document.parse

def perform (host : Host m) (coloured : Bool) (a : Arguments) : ExceptT Failure m Report := do
  let config ← loadConfig host a.config?
  match a.task with
  | .build document schema? format crlf =>
    match schema? <|> config.schemaPath with
    | none => throw ⟨none, .noSchema⟩
    | some path =>
      let schema ← load host ("loading schema " ++ path) path Schema.parse
      let d ← loadDocument host document
      pure (reportBuilt coloured format "" (d.build schema (buildOptions config crlf)))
  | .explain document =>
    let d ← loadDocument host document
    pure (explain coloured d)
  | .demo format crlf => pure (demo coloured a.verbose config format crlf)

def versionText : String := "paramquery 0.1.0\n"

def usageText : String :=
  "Usage: paramquery [--config FILE] [-v] COMMAND\n\n" ++
    "  build DOCUMENT [-s SCHEMA] [-f script|query|json] [--crlf]\n" ++
    "  explain DOCUMENT\n" ++
    "  demo [-f script|query|json] [--crlf]\n"

def run (host : Host m) (arguments : List String) : m Outcome := do
  let coloured := Style.coloured host.environment host.terminal
  match Arguments.parse (host.environment "PARAMQUERY_SCHEMA") arguments with
  | .error .version => pure ⟨0, versionText, ""⟩
  | .error .help => pure ⟨0, usageText, ""⟩
  | .error .refused => pure ⟨2, "", usageText⟩
  | .ok a =>
    match ← (perform host coloured a).run with
    | .error f => pure ⟨1, "", f.report coloured⟩
    | .ok report =>
      match report.failure with
      | none => pure ⟨0, report.output, ""⟩
      | some f => pure ⟨1, report.output, f.report coloured⟩

end Host

end SqlSelect.Command
