import KeyDispatch.CommandLine
import KeyDispatch.Files.Input
import KeyDispatch.Files.Output

/-!
# A run

`run` loads the configuration, finds and reads the headers, generates the dispatch, and writes it or
checks that it is there already. A run that fails writes nothing.
-/

namespace KeyDispatch

/-- Why a run fails. -/
inductive RunFailure where
  | givenConfig (path : String) (e : ConfigError)
  | defaultConfig (e : ConfigError)
  | inputs (e : ConfigError)
  | generation (e : GenerateError)
  | unresolvedKeys (count : Nat)
  | unreadableOutput (path : String) (e : FileError)
  | outOfDate (path : String)
  | unwritableOutput (path : String) (e : FileError)
deriving DecidableEq

namespace RunFailure

/-- The failure and what caused it, from the outside in. -/
def chain : RunFailure → List String
  | givenConfig path e => ("failed to load config " ++ path) :: e.chain
  | defaultConfig e => "failed to load default config" :: e.chain
  | inputs e => e.chain
  | generation e => ["generation failed", e.message]
  | unresolvedKeys count => [toString count ++ " Qt keys could not be resolved"]
  | unreadableOutput path e => ["failed to read " ++ path, e.message]
  | outOfDate path => [path ++ " is out of date"]
  | unwritableOutput path e => ["failed to write " ++ path, e.message]

end RunFailure

variable {m : Type → Type} [Monad m] [FileStore m]

/-- The configuration of a run. -/
def loadConfig (env : Environment) (args : Arguments) : LoggedT m RunFailure Config := do
  let config ← match args.config with
    | some path => LoggedT.mapError (.givenConfig path) (Config.load path)
    | none => LoggedT.mapError .defaultConfig (Config.loadDefault env)
  return args.mergeInto config

/-- The built-in overrides with those of a configuration. -/
def reportOverrides (config : Config) : Logged RunFailure Overrides :=
  ⟨config.overrides.2, .ok config.overrides.1⟩

/-- The summary of a finished table. -/
def summary (t : DecisionTable) : Event :=
  .generated t.entries.size t.textCases.size t.diagnostics.length

/-- What a run reports of a finished table: each diagnostic in a list, and the summary. -/
def tableReports (t : DecisionTable) : List Event := t.diagnostics.map .listed ++ [summary t]

/-- Checks that the output file holds the generated text. -/
def checkOutput (path text : String) : LoggedT m RunFailure Unit := do
  let fresh ← .ofExcept (.unreadableOutput path) (OutputFile.isUpToDate path text)
  if fresh then .report (.upToDate path) else .fail (.outOfDate path)

/-- Writes the generated text to the output file. -/
def writeOutput (env : Environment) (path text : String) : LoggedT m RunFailure Unit := do
  .ofExcept (.unwritableOutput path) (OutputFile.write env.processId path text)
  .report (.wrote path)

/-- The format of a run's output. -/
def effectiveFormat (config : Config) : OutputFormat := config.output.format.getD .standard

/-- The path of a run's output. -/
def effectivePath (config : Config) : String :=
  config.output.path.getD (effectiveFormat config).fileName

/-- Finds and reads the headers, and generates the dispatch. -/
def produce (env : Environment) (config : Config) : LoggedT m RunFailure Generated := do
  let paths ← LoggedT.mapError .inputs (SourcePaths.locate env config.inputs)
  .ofLogged (.reportAll (Source.all.map fun source => .readingInput source (paths.path source)))
  let sources ← LoggedT.mapError .inputs paths.read
  let overrides ← .ofLogged (reportOverrides config)
  let artifact := Artifact.ofFormat (effectiveFormat config) config.output.functionName
  let generated ← .ofLogged ((generate sources overrides artifact).mapError .generation)
  .ofLogged (.reportAll (tableReports generated.table))
  return generated

/-- Runs the program with the arguments of a command line. -/
def run (env : Environment) (args : Arguments) : LoggedT m RunFailure Unit := do
  let config ← loadConfig env args
  let generated ← produce env config
  let unresolved := generated.table.diagnostics.length
  if args.denyUnresolved && unresolved != 0 then .fail (.unresolvedKeys unresolved)
  else if args.check then checkOutput (effectivePath config) generated.output
  else writeOutput env (effectivePath config) generated.output

end KeyDispatch
