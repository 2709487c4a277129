import DocWeaver.Model.Config
import DocWeaver.Data.Json

/-!
The JSON form of settings, with snake_case keys and absent optional values as `null`.
-/

namespace DocWeaver

def JsonValue.ofStrings (xs : List String) : JsonValue := .arr (xs.map .str)

def JsonValue.ofOptStr (x : Option String) : JsonValue :=
  match x with
  | some s => .str s
  | none => .null

def GenerationConfig.toJson (g : GenerationConfig) : JsonValue :=
  .obj [("api_key", JsonValue.ofOptStr g.apiKey), ("model", .str g.model),
    ("temperature", .num g.temperature), ("max_tokens", .int g.maxTokens),
    ("max_concurrency", .int g.maxConcurrency), ("max_attempts", .int g.maxAttempts),
    ("backoff_initial", .num g.backoffInitial), ("backoff_max", .num g.backoffMax),
    ("context_lines", .int g.contextLines), ("context_chars", .int g.contextChars),
    ("timeout_seconds", match g.timeoutSeconds with
      | some t => .num t
      | none => .null)]

def RepositoryConfig.toJson (r : RepositoryConfig) : JsonValue :=
  .obj [("owner", .str r.owner), ("name", .str r.name), ("token", JsonValue.ofOptStr r.token),
    ("api_url", .str r.apiUrl)]

def AutodocConfig.toJson (c : AutodocConfig) : JsonValue :=
  .obj [("root_path", .str c.rootPath), ("root_directory", .str c.rootDirectory),
    ("excluded_directories", JsonValue.ofStrings c.excludedDirectories),
    ("excluded_files", JsonValue.ofStrings c.excludedFiles),
    ("excluded_file_patterns", JsonValue.ofStrings c.excludedFilePatterns),
    ("generate_code_comments", .bool c.generateCodeComments),
    ("generate_summary_doc", .bool c.generateSummaryDoc),
    ("summary_path", .str c.summaryPath),
    ("pull_number", match c.pullNumber with
      | some n => .int n
      | none => .null),
    ("output", .str c.output.label), ("branch", .str c.branch),
    ("reviewers", JsonValue.ofStrings c.reviewers),
    ("generation", c.generation.toJson),
    ("repository", match c.repository with
      | some r => r.toJson
      | none => .null)]

end DocWeaver
