import WoodFiredTasks.Router.HandlerRuns
import WoodFiredTasks.Schemas.TaskBody

set_option autoImplicit false

/-! # The `POST` routes of the API

Which route a request reaches: `fetch` takes the path out of the URL and resolves its dot segments,
and the server matches what is left against the routes that it registered (`src/api/server.ts` and
the files under `src/api/routes`). Of the other methods only `POST` is of interest here.

Routes that are registered in one configuration only, such as those of the device flow, are listed
too. -/

namespace WoodFiredTasks.Api

open Router (Json HttpRequest)

/-! ## Paths -/

abbrev Segment := List Char

/-- What ends the authority of a URL, or a segment of its path. -/
def isDelimiter (c : Char) : Bool := c = '/' || c = '\\' || c = '?' || c = '#'

/-- A dot, as it is or percent-encoded. -/
def dots : List Segment := [".".toList, "%2e".toList, "%2E".toList]

def isSingleDot (segment : Segment) : Bool := dots.any fun dot => segment = dot

def isDoubleDot (segment : Segment) : Bool :=
  dots.any fun first => dots.any fun second => segment = first ++ second

/-- One segment before the last one. -/
def pushSegment (path : List Segment) (segment : Segment) : List Segment :=
  if isDoubleDot segment then path.dropLast
  else if isSingleDot segment then path
  else path ++ [segment]

/-- The path of a URL whose path has these segments, the last one apart. A dot segment at the end
    leaves an empty segment. -/
def resolveDots (segments : List Segment) (last : Segment) : List Segment :=
  let path := pushSegment (segments.foldl pushSegment []) last
  if isDoubleDot last ∨ isSingleDot last then path ++ [[]] else path

/-- The segments of the path of `scheme://authority/path?query`. -/
def urlPath (url : List Char) : List Segment :=
  let path := ((url.dropWhile (· ≠ '/')).drop 2).dropWhile (!isDelimiter ·)
  let segments := (path.drop 1).takeWhile (fun c => c ≠ '?' ∧ c ≠ '#') |>.splitOnP
    fun c => c = '/' || c = '\\'
  resolveDots segments.dropLast (segments.getLast?.getD [])

/-! ## Routes -/

inductive PatternPart where
  | literal (text : String)
  | param
  deriving DecidableEq

def PatternPart.accepts : PatternPart → Segment → Bool
  | .literal text, segment => text.toList = segment
  | .param, segment => segment ≠ []

inductive PostRoute where
  | createTask | claimTask | addDependency | addComment | createProject | rescoreProject
  | mintToken | revokeToken | logout | deviceCode | deviceToken | deviceVerify
  deriving DecidableEq

namespace PostRoute

def all : List PostRoute :=
  [.createTask, .claimTask, .addDependency, .addComment, .createProject, .rescoreProject,
    .mintToken, .revokeToken, .logout, .deviceCode, .deviceToken, .deviceVerify]

def pattern : PostRoute → List PatternPart
  | .createTask => [.literal "api", .literal "v1", .literal "tasks"]
  | .claimTask => [.literal "api", .literal "v1", .literal "tasks", .param, .literal "claim"]
  | .addDependency =>
    [.literal "api", .literal "v1", .literal "tasks", .param, .literal "dependencies"]
  | .addComment => [.literal "api", .literal "v1", .literal "tasks", .param, .literal "comments"]
  | .createProject => [.literal "api", .literal "v1", .literal "projects"]
  | .rescoreProject =>
    [.literal "api", .literal "v1", .literal "projects", .param, .literal "rescore"]
  | .mintToken => [.literal "api", .literal "v1", .literal "me", .literal "tokens"]
  | .revokeToken => [.literal "me", .literal "tokens", .param, .literal "revoke"]
  | .logout => [.literal "auth", .literal "logout"]
  | .deviceCode => [.literal "auth", .literal "device", .literal "code"]
  | .deviceToken => [.literal "auth", .literal "device", .literal "token"]
  | .deviceVerify => [.literal "auth", .literal "device", .literal "verify"]

/-- The route is `/` under its prefix, and so registered with and without a slash at the end. -/
def atRoot : PostRoute → Bool
  | .createTask | .createProject | .mintToken => true
  | _ => false

def accepts : List PatternPart → List Segment → Bool
  | [], [] => true
  | part :: parts, segment :: segments => part.accepts segment && accepts parts segments
  | _, _ => false

def isMatch (route : PostRoute) (path : List Segment) : Bool :=
  accepts route.pattern path ||
    route.atRoot && path.getLast? = some [] && accepts route.pattern path.dropLast

/-- Whether the route's body schema accepts a body; the schemas of the other routes are given. -/
def acceptsBody (env : Env) (others : PostRoute → Json → Bool) (route : PostRoute) (body : Json) :
    Bool :=
  if route = .createTask then TaskBody.acceptsCreateTask env body else others route body

end PostRoute

/-! ## Requests -/

/-- A registered route matches the request, and its schema accepts the body. -/
def Served (env : Env) (others : PostRoute → Json → Bool) (request : HttpRequest) : Prop :=
  request.method = "POST" ∧ ∃ route ∈ PostRoute.all, ∃ body,
    route.isMatch (urlPath request.url.toList) = true ∧ request.body = some (.json body) ∧
      route.acceptsBody env others body = true

/-- The status of the answer to a `POST`: what the route's handler gives, if the request comes
    that far. -/
def status (env : Env) (others : PostRoute → Json → Bool) (handle : PostRoute → Json → Nat)
    (request : HttpRequest) : Nat :=
  match PostRoute.all.find? (·.isMatch (urlPath request.url.toList)) with
  | none => 404
  | some route =>
    match request.body with
    | some (.json body) => if route.acceptsBody env others body then handle route body else 400
    | _ => 400

/-- What is not served is refused, and no handler runs. -/
theorem status_of_not_served {env : Env} {others : PostRoute → Json → Bool} {request : HttpRequest}
    (hmethod : request.method = "POST") (h : ¬ Served env others request)
    (handle : PostRoute → Json → Nat) :
    status env others handle request = 404 ∨ status env others handle request = 400 := by
  unfold status
  split
  · exact .inl rfl
  · rename_i route hroute
    right
    split
    · rename_i body hbody
      rw [if_neg]
      intro haccepts
      exact h ⟨hmethod, route, List.mem_of_find?_eq_some hroute, body,
        by simpa using List.find?_some hroute, hbody, haccepts⟩
    · rfl

end WoodFiredTasks.Api
