import CodingOS.Effects.Driver
import CodingOS.Python.JsonRead
import CodingOS.Python.StrLines

/-!
# The GitHub backend

`GitHubBackend` of `effects.py`: how an effect is queried and executed with the command lines of Git and GitHub.
A call is a program over the commands it runs and the paths it resolves; a command may end in any way, and may
not start at all.  What `urllib`, `json` and `pathlib` compute, the normal form of a remote and the validator of
pull request bodies, which is loaded from another script, are parameters.
-/

namespace CodingOS.Effects.GitHubBackend

open CodingOS.Python CodingOS.Campaign CodingOS.Store Systems
open ExternalEffectDriver (DriverException)

/-! ### What the backend calls -/

/-- `urlsplit(url)`. -/
structure SplitResult where
  scheme : String
  netloc : String
  path : String
  query : String
  fragment : String
  hostname : Option String

/-- What the backend computes with. -/
class Toolkit where
  urlsplit : String → Except DriverException SplitResult
  url2pathname : String → Except DriverException String
  isAbsolute : String → Bool
  asUri : String → Except DriverException String
  normcase : String → String
  /-- `json.loads`; `none` is `JSONDecodeError`. -/
  jsonLoads : String → Except DriverException (Option Value)
  /-- `normalize_remote_url`; an `AdmissionError` is its message. -/
  normalizeRemoteUrl : String → Except DriverException (Except String String)
  /-- `validate_body(body, expected_current_head, expected_base_sha, "CAMPAIGN", campaign, specification)`. -/
  validateBody : (body head base campaignId digest : String) → Except DriverException (List String)

/-- How a command ends.  `osError` and `valueError` are raised before there is a process. -/
inductive CommandResult
  | completed (returncode : ℤ) (stdout stderr : String)
  | timedOut
  | osError (message : String)
  | valueError (message : String)

/-- There was a process. -/
def CommandResult.started : CommandResult → Bool
  | .completed _ _ _ | .timedOut => true
  | .osError _ | .valueError _ => false

/-- What resolving a path raises. -/
structure PathError where
  isOSError : Bool
  name : String
  message : String

inductive GitHubOp
  | run (argv : List String) (cwd : String) (mutation : Bool)
  | resolve (path : String)
  | isDir (path : String)

abbrev GitHubAnswer : GitHubOp → Type
  | .run _ _ _ => CommandResult
  | .resolve _ => Except PathError String
  | .isDir _ => Bool

abbrev Task (α : Type) := Program GitHubAnswer DriverException α

def raise {α : Type} (exc : DriverException) : Task α := .raise exc

@[irreducible] def ensure (condition : Bool) (exc : DriverException) : Task Unit := if condition then pure () else raise exc

/-- `Path(path).resolve(strict=True)`. -/
def resolve (path : String) : Task String :=
  .call (.resolve path) fun
    | .ok resolved => pure resolved
    | .error exc => raise (.other exc.name exc.message)

section Backend

variable [Runtime] [Toolkit] (git gh : String)

/-! ### Pure parts -/

/-- `str(payload.get(key, default))`. -/
def textOf (payload : Mapping) (key default : String) : String := decodedText (payload.getD key (.str default))

/-- `str(value or "")`. -/
def textOr (value : Value) : String := if value.truthy then decodedText value else ""

/-- `int(value)`. -/
@[irreducible] def intOf (value : Value) : Except DriverException ℤ :=
  match value.toInt, value with
  | some n, _ => .ok n
  | none, .str s => .error (.other "ValueError" ("invalid literal for int() with base 10: " ++ reprText s))
  | none, _ => .error (.other "TypeError" "int() argument must be a string, a bytes-like object or a real number")

/-- `_stable_id`. -/
@[irreducible] def stableId (value : Value) (label : String) : Except DriverException String :=
  let text := strip (textOr value)
  if isStableId text then .ok text else .error (.effect (label ++ " is not one stable identifier"))

/-- `_require_sha`. -/
@[irreducible] def requireSha (value : Value) (label : String) : Except DriverException String :=
  let text := casefold (textOr value)
  if text.length = 40 ∧ isLowerHex text then .ok text
  else .error (.effect (label ++ " must be one exact Git SHA"))

/-- `text.count(part)`, from the position `skip` further on. -/
def countChars (part : List Char) : ℕ → List Char → ℕ
  | _, [] => 0
  | skip + 1, _ :: cs => countChars part skip cs
  | 0, c :: cs => if part.isPrefixOf (c :: cs) then 1 + countChars part (part.length - 1) cs else countChars part 0 cs

/-- `_comment_contract`. -/
@[irreducible] def commentContract (payload : Mapping) : Except DriverException (String × String) :=
  let marker := strip (textOf payload "marker" "")
  let body := textOf payload "body" ""
  if marker = "" then .error (.effect "comment marker must be nonempty")
  else if countChars marker.toList 0 body.toList ≠ 1 then
    .error (.effect "comment body must embed the unique marker exactly once")
  else .ok (marker, body)

/-- `text.strip("/")`. -/
def stripSlashes (text : String) : String :=
  String.ofList (((text.toList.dropWhile (· == '/')).reverse.dropWhile (· == '/')).reverse)

/-- `_repository_from_remote`. -/
@[irreducible] def repositoryFromRemote (normalized : String) : Except DriverException (String × String) := do
  let parsed ← Toolkit.urlsplit normalized
  let parts := (splitChars '/' (stripSlashes parsed.path).toList).filter (!·.isEmpty)
  match parsed.hostname, parts with
  | some hostname, [owner, name] =>
      if hostname ≠ "" ∧ (parsed.scheme = "http" ∨ parsed.scheme = "https") then
        let ownerName := String.ofList (owner ++ '/' :: name)
        .ok (if casefold hostname = "github.com" then ownerName else casefold hostname ++ "/" ++ ownerName, ownerName)
      else .error (.conflict "repository remote is not one exact GitHub owner/repository identity")
  | _, _ => .error (.conflict "repository remote is not one exact GitHub owner/repository identity")

/-- `_assert_pull_request_binding`. -/
@[irreducible] def assertPullRequestBinding (row payload : Mapping) : Except DriverException Unit := do
  let expectedHead ← requireSha (payload.read "head") "pull request head"
  let expectedBranch := strip (textOf payload "head_branch" "")
  let expectedBase := strip (textOf payload "base" "main")
  if !(row.read "headRefOid").eq (.str expectedHead) then
    .error (.conflict "pull request head differs from the exact candidate head")
  else if expectedBranch ≠ "" ∧ !(row.read "headRefName").eq (.str expectedBranch) then
    .error (.conflict "pull request branch differs from the admitted branch")
  else if expectedBase ≠ "" ∧ !(row.read "baseRefName").eq (.str expectedBase) then
    .error (.conflict "pull request base differs from the approved base")
  else .ok ()

/-- `_assert_campaign_pull_request_body`. -/
@[irreducible] def assertCampaignPullRequestBody (body : Value) (payload : Mapping) : Except DriverException Unit := do
  let head ← requireSha (payload.read "candidate_head") "campaign candidate head"
  let expected ← requireSha (payload.read "head") "pull request head"
  if head ≠ expected then .error (.conflict "pull request head differs from the campaign candidate head")
  else do
    let base ← requireSha (payload.read "expected_base_sha") "campaign base"
    let campaignId ← stableId (payload.read "expected_campaign_id") "campaign id"
    let digest := textOr (payload.read "expected_specification_digest")
    if ¬(digest.length = 64 ∧ isLowerHex digest) then
      .error (.effect "campaign specification digest must be one exact SHA-256")
    else do
      let failures ← Toolkit.validateBody (textOr body) head base campaignId digest
      if failures ≠ [] then
        .error (.conflict ("campaign pull request metadata: " ++ "; ".intercalate failures))
      else .ok ()

/-! ### Commands -/

/-- `_run`. -/
def run (argv : List String) (cwd : String) (mutation : Bool) : Task String :=
  .call (.run argv cwd mutation) fun
    | .timedOut =>
        raise (if mutation then .ambiguous ("mutation timed out: " ++ argv.headD "")
          else .effect ("query timed out: " ++ argv.headD ""))
    | .osError message => raise (.effect ("cannot execute " ++ argv.headD "" ++ ": " ++ message))
    | .valueError message => raise (.other "ValueError" message)
    | .completed returncode stdout stderr =>
        if returncode = 0 then pure (strip stdout)
        else
          let message := String.ofList ((strip (if stderr = "" then stdout else stderr)).toList.take 1000)
          raise (if mutation then .ambiguous ("mutation transport failed after start: " ++ message)
            else .effect ("command exited " ++ intText returncode ++ ": " ++ " ".intercalate argv ++ ": " ++ message))

/-- `_gh_json`. -/
def ghJson (root : String) (args : List String) : Task Value := do
  let raw ← run (gh :: args) root false
  match ← .ofExcept (Toolkit.jsonLoads raw) with
  | some value => return value
  | none => raise (.effect "GitHub query returned non-JSON output")

/-- `_local_bare_remote`. -/
@[irreducible] def localBareRemote (remote : String) : Task String := do
  let parsed ← .ofExcept (Toolkit.urlsplit remote)
  ensure (parsed.scheme == "file" && parsed.netloc == "" && parsed.query == "" && parsed.fragment == "")
    (.conflict "local push requires one canonical file URI without a host")
  let target ← .ofExcept (Toolkit.url2pathname parsed.path)
  ensure (Toolkit.isAbsolute target) (.conflict "local push target must be absolute")
  let target ← (.call (.resolve target) fun
    | .ok resolved => pure resolved
    | .error exc =>
        raise (if exc.isOSError then .conflict "local push target is unavailable" else .other exc.name exc.message) :
    Task String)
  let uri ← .ofExcept (Toolkit.asUri target)
  ensure (remote == uri) (.conflict "local push target differs from its canonical file URI")
  let isDir ← (.call (.isDir target) .ret : Task Bool)
  ensure isDir (.conflict "local push target differs from its canonical file URI")
  let bare ← run [git, "rev-parse", "--is-bare-repository"] target false
  ensure (bare == "true") (.conflict "local push target must be a bare Git repository")
  let directory ← run [git, "rev-parse", "--absolute-git-dir"] target false
  let observed ← resolve directory
  ensure (Toolkit.normcase observed == Toolkit.normcase target)
    (.conflict "local push target must be the exact bare repository root")
  .ofExcept (Toolkit.asUri target)

/-- `normalize_remote_url` with its `AdmissionError` turned into a conflict. -/
def normalizedRemote (label raw : String) : Task String := do
  match ← .ofExcept (Toolkit.normalizeRemoteUrl raw) with
  | .ok normalized => return normalized
  | .error message => raise (.conflict (label ++ " is invalid: " ++ message))

/-- `remote get-url` of one mode. -/
def remoteUrls (root remoteName : String) (mode : List String) : Task (List String) := do
  let output ← run ([git, "remote", "get-url"] ++ mode ++ ["--all", remoteName]) root false
  return ((splitlines output).map strip).filter (· != "")

/-- `{normalize_remote_url(value) for value in observed_urls}`. -/
def normalizedRemotes (label : String) : List String → Task (List String)
  | [] => pure []
  | url :: urls => do
      let normalized ← normalizedRemote label url
      return normalized :: (← normalizedRemotes label urls)

/-- `_assert_repository_binding`. -/
@[irreducible] def assertRepositoryBinding (root : String) (payload : Mapping) : Task (String × String) := do
  let expectedRemote := strip (textOf payload "repository_remote" "")
  ensure (expectedRemote != "") (.conflict "repository_remote is required for every GitHub effect")
  let parsed ← .ofExcept (Toolkit.urlsplit expectedRemote)
  let localPush := casefold parsed.scheme == "file"
  let normalizedExpected ← (if localPush then localBareRemote git expectedRemote
    else normalizedRemote "repository_remote" expectedRemote)
  let toplevel ← run [git, "rev-parse", "--show-toplevel"] root false
  let observedRoot ← resolve toplevel
  ensure (Toolkit.normcase observedRoot == Toolkit.normcase root)
    (.conflict "effect worktree is not the exact Git root")
  let remoteName ← .ofExcept (stableId (payload.getD "remote" (.str "origin")) "Git remote name")
  let fetchUrls ← remoteUrls git root remoteName []
  let pushUrls ← remoteUrls git root remoteName ["--push"]
  ensure (!(fetchUrls ++ pushUrls).isEmpty) (.conflict "Git remote has no fetch or push URL")
  let observed ← (if localPush then pure (fetchUrls ++ pushUrls)
    else normalizedRemotes "Git remote URL" (fetchUrls ++ pushUrls))
  ensure (observed.all (· == normalizedExpected)) (.conflict "Git remote changed after campaign admission")
  if localPush then do
    ensure (strip (textOf payload "repository" "") == "")
      (.conflict "local push cannot use a GitHub repository selector")
    return (normalizedExpected, "")
  else do
    let (selector, ownerName) ← .ofExcept (repositoryFromRemote normalizedExpected)
    let configured := strip (textOf payload "repository" "")
    ensure (configured == "" || casefold (stripSlashes configured) == casefold ownerName
        || casefold (stripSlashes configured) == casefold selector)
      (.conflict "configured GitHub repository differs from repository_remote")
    return (expectedRemote, selector)

/-! ### Pull requests and comments -/

/-- `COMMENT_PAGE_SIZE` and `COMMENT_MAX_PAGES`. -/
def commentPageSize : ℕ := 100

def commentMaxPages : ℕ := 100

/-- The pages from `page` on. -/
def issueCommentsFrom (root repository : String) (issue : ℤ) (page : ℕ) : ℕ → Task (List Mapping)
  | 0 => raise (.effect "GitHub comment reconciliation exceeded the bounded page limit")
  | pages + 1 => do
      let rows ← ghJson gh root ["api", "repos/" ++ repository ++ "/issues/" ++ intText issue ++ "/comments?per_page="
        ++ intText commentPageSize ++ "&page=" ++ intText page]
      match rows with
      | .tuple items =>
          let comments := items.filterMap Value.asMapping?
          if items.length < commentPageSize then pure comments
          else do return comments ++ (← issueCommentsFrom root repository issue (page + 1) pages)
      | _ => raise (.effect "GitHub comment query returned a non-array page")

/-- `_issue_comments`. -/
@[irreducible] def issueComments (root repository : String) (issue : ℤ) : Task (List Mapping) :=
  issueCommentsFrom gh root repository issue 1 commentMaxPages

def pullRequestFields : String := "number,url,state,headRefName,headRefOid,baseRefName,mergeCommit,body"

/-- `_exact_pull_request`. -/
@[irreducible] def exactPullRequest (root : String) (payload : Mapping) (repository : String) :
    Task (Option Mapping) := do
  let base := textOf payload "base" "main"
  let headBranch := textOf payload "head_branch" ""
  let expectedHead ← .ofExcept (requireSha (payload.read "head") "pull request head")
  let rows ← ghJson gh root ["pr", "list", "--repo", repository, "--state", "all", "--head", headBranch, "--base",
    base, "--json", pullRequestFields]
  match rows with
  | .tuple items =>
      let found := (items.filterMap Value.asMapping?).filter fun row =>
        (row.read "headRefName").eq (.str headBranch) && (row.read "baseRefName").eq (.str base)
          && (row.read "headRefOid").eq (.str expectedHead)
      if found.length > 1 then raise (.conflict "duplicate exact-head pull requests exist")
      else return found.head?
  | _ => raise (.effect "GitHub pull request query returned a non-array")

/-- `_pull_request_by_number`. -/
@[irreducible] def pullRequestByNumber (root : String) (payload : Mapping) (repository : String) (number : ℤ) :
    Task Mapping := do
  let row ← ghJson gh root ["pr", "view", intText number, "--repo", repository, "--json", pullRequestFields]
  match row with
  | .mapping row => do
      let observed ← .ofExcept (intOf (Mapping.getD row "number" (.int 0)))
      ensure (observed == number) (.conflict "explicit pull request identity could not be verified")
      .ofExcept (assertPullRequestBinding row payload)
      return row
  | _ => raise (.conflict "explicit pull request identity could not be verified")

/-- `_bound_pull_request`. -/
@[irreducible] def boundPullRequest (root : String) (payload : Mapping) (repository : String) :
    Task (Option Mapping) := do
  let number ← .ofExcept (intOf (payload.getD "pull_request" (.int 0)))
  if number > 0 then do return some (← pullRequestByNumber gh root payload repository number)
  else exactPullRequest gh root payload repository

/-! ### Queries -/

/-- The entry of a comment that carries the marker. -/
def markerMatch (row : Mapping) : Mapping :=
  [("id", row.read "id"), ("url", row.read "html_url"),
    ("body_digest", .str (canonicalJsonDigest (.str (textOr (row.read "body")))))]

/-- `row if isinstance(row, Mapping)`. -/
def rowValue : Option Mapping → Value
  | some row => .mapping row
  | none => .null

/-- `query` of a comment. -/
@[irreducible] def queryComment (root repository : String) (payload : Mapping) : Task Mapping := do
  let (marker, requestedBody) ← .ofExcept (commentContract payload)
  match ← boundPullRequest gh root payload repository with
  | none => raise (.conflict "exact-head pull request does not exist for comment")
  | some pullRequest => do
      let issue ← .ofExcept (intOf (pullRequest.getD "number" (.int 0)))
      let rows ← issueComments gh root repository issue
      let found := (rows.filter fun row => contains (textOr (row.read "body")) marker).map markerMatch
      ensure (found.length ≤ 1) (.conflict "multiple marker comments exist; refusing ambiguous reconciliation")
      let exact := found.filter fun item =>
        (item.read "body_digest").eq (.str (canonicalJsonDigest (.str requestedBody)))
      return [("confirmed", .bool (found.length == 1 && exact.length == 1)),
        ("comment", if exact.length = 1 then rowValue exact.head? else .null),
        ("marker_matches", .tuple (found.map .mapping))]

/-- `query` of a merge. -/
@[irreducible] def queryMerge (root repository : String) (payload : Mapping) : Task Mapping := do
  let expectedHead ← .ofExcept (requireSha (payload.read "head") "merge head")
  let row ← boundPullRequest gh root payload repository
  let merged := row.any fun row => (row.read "state").eq (.str "MERGED")
    && (row.read "headRefOid").eq (.str expectedHead)
    && (row.read "mergeCommit").asMapping?.any fun commit => (commit.read "oid").truthy
  return [("confirmed", .bool merged), ("pull_request", rowValue row)]

/-- `query` of a pull request. -/
@[irreducible] def queryPullRequest (root repository : String) (payload : Mapping) : Task Mapping := do
  .ofExcept (assertCampaignPullRequestBody (payload.read "body") payload)
  let found ← exactPullRequest gh root payload repository
  (match found with
    | some row => .ofExcept (assertCampaignPullRequestBody (row.read "body") payload)
    | none => pure ())
  return [("confirmed", .bool found.isSome), ("pull_request", rowValue found)]

/-- `query` of a push. -/
@[irreducible] def queryPush (root exactRemote : String) (payload : Mapping) : Task Mapping := do
  let branch := textOf payload "branch" ""
  let head ← .ofExcept (requireSha (payload.read "head") "push head")
  let output ← run [git, "ls-remote", "--heads", exactRemote, "refs/heads/" ++ branch] root false
  let observed := casefold (String.ofList (output.toList.takeWhile fun c => !isSpace c))
  return [("confirmed", .bool (output != "" && observed == head)),
    ("remote_head", if output = "" then .null else .str observed), ("expected_head", .str head)]

/-- The backend's view of the repository. -/
@[irreducible] def bind (kind : EffectKind) (payload : Mapping) : Task (String × String × String) := do
  let root ← resolve (textOf payload "root" "")
  let (exactRemote, repository) ← assertRepositoryBinding git root payload
  ensure (repository != "" || kind == .push) (.conflict "file remotes support PUSH only")
  return (root, exactRemote, repository)

/-- `query`. -/
@[irreducible] def query (kind : EffectKind) (payload : Mapping) : Task Mapping := do
  let (root, exactRemote, repository) ← bind git kind payload
  match kind with
  | .push => queryPush git root exactRemote payload
  | .createPullRequest => queryPullRequest gh root repository payload
  | .upsertComment => queryComment gh root repository payload
  | .merge => queryMerge gh root repository payload
  | _ => raise (.effect ("GitHub backend cannot query effect kind " ++ kind.value))

/-! ### Executions -/

/-- `execute` of a push. -/
@[irreducible] def executePush (root exactRemote : String) (payload : Mapping) : Task Mapping := do
  let head ← .ofExcept (requireSha (payload.read "head") "push head")
  let observed ← run [git, "rev-parse", "HEAD"] root false
  ensure (casefold observed == head) (.conflict "local HEAD changed before push")
  let branch := textOf payload "branch" ""
  let output ← run [git, "push", exactRemote, head ++ ":refs/heads/" ++ branch] root true
  return [("pushed", .bool true), ("output_digest", .str (canonicalJsonDigest (.str output)))]

/-- `{"replayed": True, **existing}`. -/
def replayed (existing : Mapping) : Mapping := Mapping.update [("replayed", .bool true)] existing

/-- `execute` of a pull request. -/
@[irreducible] def executePullRequest (root repository : String) (payload : Mapping) : Task Mapping := do
  let existing ← query git gh .createPullRequest payload
  if (existing.read "confirmed").truthy then return replayed existing
  else do
    let output ← run [gh, "pr", "create", "--repo", repository, "--base", textOf payload "base" "main", "--head",
      textOf payload "head_branch" "", "--title", textOf payload "title" "", "--body", textOf payload "body" ""]
      root true
    return [("created", .bool true),
      ("url", if output = "" then .null else .str ((splitlines output).getLastD ""))]

/-- The comment that is edited: `int(marker_matches[0]["id"])`. -/
@[irreducible] def commentId (item : Value) : Except DriverException ℤ :=
  match item.asMapping? with
  | some row => intOf (row.read "id")
  | none => .error (.other "TypeError" "object is not subscriptable")

/-- `execute` of a comment. -/
@[irreducible] def executeComment (root repository : String) (payload : Mapping) : Task Mapping := do
  let (_, body) ← .ofExcept (commentContract payload)
  match ← boundPullRequest gh root payload repository with
  | none => raise (.conflict "exact-head pull request does not exist for comment")
  | some pullRequest => do
      let issue ← .ofExcept (intOf (pullRequest.getD "number" (.int 0)))
      let existing ← query git gh .upsertComment payload
      let found := ((existing.getD "marker_matches" (.tuple [])).items?).getD []
      ensure (found.length ≤ 1) (.conflict "multiple marker comments exist; refusing ambiguous update")
      match found with
      | item :: _ => do
          let comment ← .ofExcept (commentId item)
          let output ← run [gh, "api", "--method", "PATCH", "repos/" ++ repository ++ "/issues/comments/"
            ++ intText comment, "-f", "body=" ++ body] root true
          return [("updated", .bool true), ("response_digest", .str (canonicalJsonDigest (.str output)))]
      | [] => do
          let output ← run [gh, "api", "--method", "POST", "repos/" ++ repository ++ "/issues/" ++ intText issue
            ++ "/comments", "-f", "body=" ++ body] root true
          return [("created", .bool true), ("response_digest", .str (canonicalJsonDigest (.str output)))]

/-- `execute` of a merge. -/
@[irreducible] def executeMerge (root repository : String) (payload : Mapping) : Task Mapping := do
  let existing ← query git gh .merge payload
  if (existing.read "confirmed").truthy then return replayed existing
  else do
    let pullRequest := (existing.read "pull_request").asMapping?
    let requested ← .ofExcept (intOf (payload.getD "pull_request" (.int 0)))
    let number ← (match pullRequest with
      | some row =>
          if requested ≤ 0 then .ofExcept (intOf (Mapping.getD row "number" (.int 0))) else pure requested
      | none => pure requested)
    ensure (decide (0 < number)) (.conflict "exact-head pull request does not exist for merge")
    ensure (pullRequest.all fun row => (row.read "state").eq (.str "OPEN"))
      (.conflict "exact-head pull request is not open for merge")
    .ofExcept (assertCampaignPullRequestBody ((pullRequest.map (·.read "body")).getD .null) payload)
    let head ← .ofExcept (requireSha (payload.read "head") "merge head")
    let method := textOf payload "method" "squash"
    ensure (["merge", "squash", "rebase"].contains method)
      (.effect "merge method must be merge, squash, or rebase")
    let output ← run [gh, "pr", "merge", intText number, "--repo", repository, "--" ++ method, "--match-head-commit",
      head] root true
    return [("merged", .bool true), ("output_digest", .str (canonicalJsonDigest (.str output)))]

/-- `execute`. -/
@[irreducible] def execute (kind : EffectKind) (payload : Mapping) : Task Mapping := do
  let (root, exactRemote, repository) ← bind git kind payload
  match kind with
  | .push => executePush git root exactRemote payload
  | .createPullRequest => executePullRequest git gh root repository payload
  | .upsertComment => executeComment git gh root repository payload
  | .merge => executeMerge git gh root repository payload
  | _ => raise (.effect ("GitHub backend cannot execute effect kind " ++ kind.value))

end Backend

end CodingOS.Effects.GitHubBackend
