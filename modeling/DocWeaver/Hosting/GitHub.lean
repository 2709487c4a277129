import DocWeaver.Hosting.PatchRanges
import DocWeaver.Model.Change
import DocWeaver.Model.Config
import DocWeaver.Data.Json
import DocWeaver.Text.Base64
import DocWeaver.Text.Lines

/-!
A client of the repository host's REST interface: the changed lines of a pull request, branches,
commits of single files, and pull requests.

Requests go through a transport that answers each one or fails to connect; the transport keeps
its own state. A status of 400 or more that the call does not expect is an error naming the
method, the path, the status and the `message` field of the body. Bodies are read as JSON, and a
body of an unexpected shape fails the way a dynamically typed reader fails on it.
-/

namespace DocWeaver.Hosting

/-- One request: its method, the path as the client writes it, the path sent (below the
interface's base path), the query, the credentials and the JSON body. -/
structure HttpRequest where
  method : String
  url : String
  path : String
  params : List (String × String) := []
  auth : String
  body : Option JsonValue := none
  deriving Inhabited

/-- One answer: its status and body text. -/
structure HttpResponse where
  status : Nat := 200
  body : String := ""
  deriving Inhabited

/-- Why a call failed: the host refused it or could not be reached (with the status, if any),
no credentials were configured, or an answer had an unexpected shape (with the kind of
failure). -/
inductive HostingError where
  | api (message : String) (status : Option Nat)
  | configuration (message : String)
  | value (kind message : String)
  deriving Inhabited

def HostingError.kind : HostingError → String
  | .api _ _ => "GitHubError"
  | .configuration _ => "ConfigurationError"
  | .value k _ => k

def HostingError.message : HostingError → String
  | .api m _ | .configuration m | .value _ m => m

abbrev Transport (σ : Type) := σ → HttpRequest → Except String HttpResponse × σ

abbrev Hosted (σ α : Type) := ExceptT HostingError (StateM σ) α

def pageSize : Nat := 100

def wholeFile : LineRange := ⟨1, 9223372036854775807⟩

def basePath (apiUrl : String) : String :=
  let rest := match apiUrl.splitOn "://" with
    | _ :: r :: more => "://".intercalate (r :: more)
    | _ => apiUrl
  let path := match rest.splitOn "/" with
    | _ :: ps => "/" ++ "/".intercalate ps
    | [] => "/"
  if path.endsWith "/" then path else path ++ "/"

def shapeError {α : Type} (kind message : String) : Except HostingError α := .error (.value kind message)

def jsonOf (r : HttpResponse) : Except HostingError JsonValue :=
  match JsonValue.parse r.body with
  | some v => .ok v
  | none => shapeError "JSONDecodeError" "Expecting value: line 1 column 1 (char 0)"

def field (v : JsonValue) (k : String) : Except HostingError JsonValue :=
  match v with
  | .obj fs => match fs.lookup k with
    | some x => .ok x
    | none => shapeError "KeyError" (Text.quote k)
  | .arr _ => shapeError "TypeError" "list indices must be integers or slices, not str"
  | .str _ => shapeError "TypeError" "string indices must be integers, not 'str'"
  | v => shapeError "TypeError" ("'" ++ v.typeName ++ "' object is not subscriptable")

def firstItem (v : JsonValue) : Except HostingError JsonValue :=
  match v with
  | .arr (x :: _) => .ok x
  | .obj _ => shapeError "KeyError" "0"
  | .str s => .ok (.str (String.ofList (s.toList.take 1)))
  | v => shapeError "TypeError" ("'" ++ v.typeName ++ "' object is not subscriptable")

def fieldOpt (v : JsonValue) (k : String) : Except HostingError (Option JsonValue) :=
  match v with
  | .obj fs => .ok (fs.lookup k)
  | v => shapeError "AttributeError" ("'" ++ v.typeName ++ "' object has no attribute 'get'")

def refusalText (r : HttpResponse) : Except HostingError String :=
  match JsonValue.parse r.body with
  | none => .ok r.body
  | some v => do
    let m ← fieldOpt v "message"
    pure ((m.map JsonValue.shown).getD r.body)

def statusOf : Option JsonValue → Except HostingError ChangeStatus
  | some (.str s) => .ok ((ChangeStatus.ofLabel? s).getD .modified)
  | some (.arr _) => shapeError "TypeError" "unhashable type: 'list'"
  | some (.obj _) => shapeError "TypeError" "unhashable type: 'dict'"
  | _ => .ok .modified

def changeOf (item : JsonValue) : Except HostingError (Option FileChange) := do
  let status ← statusOf (← fieldOpt item "status")
  if status == .removed then return none
  let ranges ← match ← fieldOpt item "patch" with
    | some (.str p) => pure (parsePatchRanges p)
    | none | some .null =>
      pure (if status == .added || status == .modified then [wholeFile] else [])
    | some v => shapeError "AttributeError" ("'" ++ v.typeName ++ "' object has no attribute 'splitlines'")
  let name := (← field item "filename").shown
  let previous := match ← fieldOpt item "previous_filename" with
    | some (.str p) => some p
    | some .null | none => none
    | some v => some v.shown
  pure (some { path := name, status, ranges, previousPath := previous })

def pageItems (batch : JsonValue) : Except HostingError (List JsonValue) :=
  match batch with
  | .arr xs => .ok xs
  | .obj fs => .ok (fs.map fun (k, _) => .str k)
  | .str s => .ok (s.toList.map fun c => .str (String.singleton c))
  | v => shapeError "TypeError" ("'" ++ v.typeName ++ "' object is not iterable")

/-- A client for one repository. -/
structure GitHubClient (σ : Type) where
  repository : RepositoryConfig
  token : String
  transport : Transport σ

namespace GitHubClient

variable {σ : Type}

def create (repo : RepositoryConfig) (envToken : Option String) (t : Transport σ) :
    Except HostingError (GitHubClient σ) :=
  let token := match repo.token with
    | some k => if k.isEmpty then envToken else some k
    | none => envToken
  match token.filter (· != "") with
  | some k => .ok ⟨repo, k, t⟩
  | none => .error (.configuration "GITHUB_ACCESS_TOKEN is not set")

def repoPath (c : GitHubClient σ) (path : String) : String :=
  "/repos/" ++ c.repository.owner ++ "/" ++ c.repository.name ++ path

def request (c : GitHubClient σ) (method url : String) (allowed : List Nat)
    (params : List (String × String)) (body : Option JsonValue) : Hosted σ HttpResponse := do
  let req : HttpRequest :=
    { method, url, path := basePath c.repository.apiUrl ++ String.ofList (url.toList.dropWhile (· == '/'))
      params, auth := "Bearer " ++ c.token, body }
  let answer ← (modifyGet fun s => c.transport s req : StateM σ _)
  match answer with
  | .error e => throw (.api (method ++ " " ++ url ++ " failed: " ++ e) none)
  | .ok r =>
    if r.status ≥ 400 && !allowed.contains r.status then
      let text ← liftExcept (refusalText r)
      throw (.api (method ++ " " ++ url ++ s!" failed ({r.status}): " ++ text) (some r.status))
    else pure r
where
  liftExcept {α : Type} (x : Except HostingError α) : Hosted σ α := match x with
    | .ok a => pure a
    | .error e => throw e

def lift {α : Type} (x : Except HostingError α) : Hosted σ α :=
  match x with
  | .ok a => pure a
  | .error e => throw e

def readPage (c : GitHubClient σ) (number : Int) (page : Nat) (cs : ChangeSet) :
    Hosted σ (ChangeSet × Bool) := do
  let r ← c.request "GET" (c.repoPath s!"/pulls/{number}/files") []
    [("page", toString page), ("per_page", toString pageSize)] none
  let items ← lift (pageItems (← lift (jsonOf r)))
  let cs ← items.foldlM (fun cs item => do
    match ← lift (changeOf item) with
    | some ch => pure (cs.insert ch)
    | none => pure cs) cs
  pure (cs, pageSize ≤ items.length)

def pagesFrom (c : GitHubClient σ) (number : Int) (page : Nat) (cs : ChangeSet) : Hosted σ ChangeSet :=
  repeatM (fun ((page, cs) : Nat × ChangeSet) => do
    let (cs, full) ← c.readPage number page cs
    pure (if full then .inl (page + 1, cs) else .inr cs)) (page, cs)

/-- The changed files of a pull request and their changed lines, removed files left out: the
pages from the first up to the first that is not full. -/
def pullRequestChanges (c : GitHubClient σ) (number : Int) : Hosted σ ChangeSet :=
  c.pagesFrom number 1 {}

def createBranch (c : GitHubClient σ) (branch base : String) : Hosted σ Unit := do
  let r ← c.request "GET" (c.repoPath ("/git/ref/heads/" ++ base)) [] [] none
  let sha ← lift (do field (← field (← jsonOf r) "object") "sha")
  let _ ← c.request "POST" (c.repoPath "/git/refs") [422] []
    (some (.obj [("ref", .str ("refs/heads/" ++ branch)), ("sha", sha)]))
  pure ()

def commitFile (c : GitHubClient σ) (branch path content message : String) : Hosted σ Unit := do
  let posix := path.replace "\\" "/"
  let existing ← c.request "GET" (c.repoPath ("/contents/" ++ posix)) [404] [("ref", branch)] none
  let payload : List (String × JsonValue) :=
    [("message", .str message), ("content", .str (Text.base64 content.toUTF8)), ("branch", .str branch)]
  let payload ← if existing.status == 404 then pure payload
    else do
      let sha ← lift (do field (← jsonOf existing) "sha")
      pure (payload ++ [("sha", sha)])
  let _ ← c.request "PUT" (c.repoPath ("/contents/" ++ posix)) [] [] (some (.obj payload))
  pure ()

/-- Opens a pull request unless one is open for `head`, and gives its number. Labels are added
and review is asked of the reviewers, trimmed, except blank ones and the caller. -/
def createPullRequest (c : GitHubClient σ) (title body head base : String) (labels reviewers : List String) :
    Hosted σ JsonValue := do
  let r ← c.request "GET" (c.repoPath "/pulls") []
    [("head", c.repository.owner ++ ":" ++ head), ("state", "open")] none
  let existing ← lift (jsonOf r)
  if existing.truthy then
    return ← lift (do field (← firstItem existing) "number")
  let r ← c.request "POST" (c.repoPath "/pulls") [] []
    (some (.obj [("title", .str title), ("body", .str body), ("head", .str head), ("base", .str base)]))
  let number ← lift (do field (← jsonOf r) "number")
  if !labels.isEmpty then
    let _ ← c.request "POST" (c.repoPath ("/issues/" ++ number.shown ++ "/labels")) [] []
      (some (.obj [("labels", .arr (labels.map .str))]))
  if !reviewers.isEmpty then
    let r ← c.request "GET" "/user" [] [] none
    let author ← lift (do fieldOpt (← jsonOf r) "login")
    let isAuthor (name : String) : Bool := match author with
      | some (.str a) => a == name
      | _ => false
    let requested := (reviewers.map Text.strip).filter fun name => !name.isEmpty && !isAuthor name
    if !requested.isEmpty then
      let _ ← c.request "POST" (c.repoPath ("/pulls/" ++ number.shown ++ "/requested_reviewers")) [] []
        (some (.obj [("reviewers", .arr (requested.map .str))]))
  pure number

end GitHubClient

end DocWeaver.Hosting
