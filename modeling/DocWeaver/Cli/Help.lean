/-!
The texts the command line shows about itself: usage lines and help screens, with the program's
name and version.
-/

namespace DocWeaver.Cli

def version : String := "0.3.0"

/-- The commands, by name. -/
inductive Command where
  | initConfig
  | run
  | scan
  deriving DecidableEq, Inhabited

def Command.ofName? : String → Option Command
  | "init-config" => some .initConfig
  | "run" => some .run
  | "scan" => some .scan
  | _ => none

def Command.name : Command → String
  | .initConfig => "init-config"
  | .run => "run"
  | .scan => "scan"

def groupUsage (prog : String) : String := "Usage: " ++ prog ++ " [OPTIONS] COMMAND [ARGS]..."

def commandUsage (prog : String) (c : Command) : String :=
  "Usage: " ++ prog ++ " " ++ c.name ++ " [OPTIONS] [PATH]"

def groupHelp (prog : String) : String :=
  groupUsage prog ++ "\n\n" ++
  "  autodoc - keeps JSDoc comments in step with the code.\n\n" ++
  "  Finds undocumented or stale declarations in a TypeScript/JavaScript tree and\n" ++
  "  writes generated documentation back into the source.\n\n" ++
  "Options:\n" ++
  "  --version  Show the version and exit.\n" ++
  "  --help     Show this message and exit.\n\n" ++
  "Commands:\n" ++
  "  init-config  Create a default configuration file at PATH.\n" ++
  "  run          Document declarations under PATH (the repository root).\n" ++
  "  scan         Report documentation coverage under PATH without generating...\n"

/-- A command's help screen. -/
def commandHelp (prog : String) : Command → String
  | .scan =>
    commandUsage prog .scan ++ "\n\n" ++
    "  Report documentation coverage under PATH without generating anything.\n\n" ++
    "Options:\n" ++
    "  --exclude-dir TEXT   Directory name to skip (repeatable)\n" ++
    "  --exclude-file TEXT  File name to skip (repeatable)\n" ++
    "  --config FILE        Config file path\n" ++
    "  -v, --verbose        Verbose logging\n" ++
    "  --help               Show this message and exit.\n"
  | .run =>
    commandUsage prog .run ++ "\n\n" ++
    "  Document declarations under PATH (the repository root).\n\n" ++
    "Options:\n" ++
    "  --pull-number INTEGER           Only document declarations touched by this\n" ++
    "                                  pull request\n" ++
    "  -o, --output [dry-run|disk|pull-request]\n" ++
    "                                  Where results go (default: dry-run)\n" ++
    "  --exclude-dir TEXT              Directory name to skip (repeatable)\n" ++
    "  --exclude-file TEXT             File name to skip (repeatable)\n" ++
    "  --config FILE                   Config file path\n" ++
    "  --concurrency INTEGER           Maximum concurrent generation requests\n" ++
    "  --timeout FLOAT                 Abort generation after this many seconds\n" ++
    "  --no-comments                   Do not generate code comments\n" ++
    "  --summary                       Write the API summary document\n" ++
    "  --report FILE                   Export a markdown report\n" ++
    "  -v, --verbose                   Verbose logging\n" ++
    "  --help                          Show this message and exit.\n"
  | .initConfig =>
    commandUsage prog .initConfig ++ "\n\n" ++
    "  Create a default configuration file at PATH.\n\n" ++
    "Options:\n" ++
    "  --help  Show this message and exit.\n"

def usageError (usage tryHelp message : String) : String :=
  usage ++ "\n" ++ "Try '" ++ tryHelp ++ " --help' for help.\n\n" ++ "Error: " ++ message ++ "\n"

end DocWeaver.Cli
