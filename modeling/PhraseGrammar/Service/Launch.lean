/-
The command that starts the service: it reads the settings once, and serves
where the command line says, or else where the settings say.
-/
import PhraseGrammar.CommandLine
import PhraseGrammar.Service.Basic

namespace PhraseGrammar

/-- The arguments of the command. -/
structure ServeArguments where
  config : Given Path
  host : Given Text
  port : Given Int

/-- Nothing on the command line. -/
def ServeArguments.none : ServeArguments := ⟨.absent, .absent, .absent⟩

/-- The configuration, if none is named. -/
def defaultConfiguration : Path := Path.ofText "psr.toml".toList

/-- The command, with its switches in the order of its help. -/
def serveCommand : Command ServeArguments where
  name := "psr-web".toList
  usage := "usage: psr-web [-h] [--config CONFIG] [--host HOST] [--port PORT]\n".toList
  manual :=
    ("\nServe PSR phrase generation over HTTP.\n" ++
     "\noptions:\n" ++
     "  -h, --help       show this help message and exit\n" ++
     "  --config CONFIG  Path to the PSR configuration file.\n" ++
     "  --host HOST      Host interface to bind.\n" ++
     "  --port PORT      Port to listen on.\n").toList
  switches :=
    [⟨["-h".toList, "--help".toList], .help⟩,
     ⟨["--config".toList], textValue Path.ofText fun v a => { a with config := v }⟩,
     ⟨["--host".toList], textValue id fun v a => { a with host := v }⟩,
     ⟨["--port".toList], wholeValue fun v a => { a with port := v }⟩]
  operands := .none

/-- Where a service is served, and the service. A host or a port that the
command line left blank is missing. -/
structure Serving where
  host : Option Text
  port : Option Int
  service : Service

/-- The title of the service. -/
def serviceTitle : Text := "PSR Phrase Generator".toList

/-- How starting the service went: it is served, or the command ended. -/
inductive Launch
  | served (s : Serving)
  | ended (r : CommandResult)

/-- Starts the service with the arguments of the command. -/
def ServeArguments.launch (a : ServeArguments) (tree : FileTree) : Launch :=
  match a.config.getD defaultConfiguration with
  | .none => .ended (.ofFault (.blank .location) [])
  | some config =>
    if config.hasNul then .ended (.ofFault (.settings (.values .nulInPath)) [])
    else
      let path := config.resolve tree.cwd
      match Settings.load tree path with
      | .error e => .ended (.ofFault (.settings e) [])
      | .ok settings =>
        .served
          ⟨a.host.getD settings.serving.host, a.port.getD settings.serving.port, Service.start path⟩

/-- Starts the service with a command line. -/
def launch (tree : FileTree) (argv : List Text) : Launch :=
  match serveCommand.read .none argv with
  | .ok a => a.launch tree
  | .error .help => .ended ⟨.code 0, serveCommand.helpText, []⟩
  | .error (.misuse message) => .ended ⟨.code 2, [], serveCommand.misuseText message⟩

end PhraseGrammar
