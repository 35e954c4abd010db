/-!
# POSIX paths

The path arithmetic of Node's `path.posix`, over characters: a path is split
at its slashes, `.` and empty segments are dropped and `..` takes back the
segment before it, where there is one to take back.
-/

namespace Posix

abbrev Path := List Char

def slash : Char := '/'

def isAbsolute (path : Path) : Bool := path.head? == some slash

/-- `normalizeString`'s loop body, the segments so far in reverse. -/
def pushSegment (allowAboveRoot : Bool) (segments : List Path) (segment : Path) : List Path :=
  if segment = [] ∨ segment = ['.'] then segments
  else if segment = ['.', '.'] then
    match segments with
    | top :: rest =>
      if top = ['.', '.'] then if allowAboveRoot then segment :: segments else segments else rest
    | [] => if allowAboveRoot then [segment] else []
  else segment :: segments

def normalSegments (path : Path) (allowAboveRoot : Bool) : List Path :=
  ((path.splitOn slash).foldl (pushSegment allowAboveRoot) []).reverse

def normalizeString (path : Path) (allowAboveRoot : Bool) : Path :=
  [slash].intercalate (normalSegments path allowAboveRoot)

def normalize (path : Path) : Path :=
  if path = [] then ['.']
  else
    let trailingSeparator := path.getLast? == some slash
    let normal := normalizeString path (!isAbsolute path)
    if normal = [] then
      if isAbsolute path then [slash] else if trailingSeparator then ['.', slash] else ['.']
    else
      let normal := if trailingSeparator then normal ++ [slash] else normal
      if isAbsolute path then slash :: normal else normal

/-- Empty parts are left out. -/
def join (parts : List Path) : Path :=
  match parts.filter (· ≠ []) with
  | [] => ['.']
  | parts => normalize ([slash].intercalate parts)

/-- The parts from the right up to the first absolute one, and whether there
is one. -/
def resolveParts : List Path → Path → Path × Bool
  | [], resolved => (resolved, false)
  | part :: parts, resolved =>
    if part = [] then resolveParts parts resolved
    else if isAbsolute part then (part ++ slash :: resolved, true)
    else resolveParts parts (part ++ slash :: resolved)

def resolve (cwd : Path) (parts : List Path) : Path :=
  let (resolved, resolvedAbsolute) := resolveParts (parts.reverse ++ [cwd]) []
  let normal := normalizeString resolved (!resolvedAbsolute)
  if resolvedAbsolute then slash :: normal else if normal = [] then ['.'] else normal

def dirname (path : Path) : Path :=
  if path = [] then ['.']
  else
    match (path.reverse.dropWhile (· = slash)).dropWhile (· ≠ slash) with
    | [] => if isAbsolute path then [slash] else ['.']
    | [_] => [slash]
    | _ :: above => if isAbsolute path ∧ above.length = 1 then [slash, slash] else above.reverse

def dropCommon : List Path → List Path → List Path × List Path
  | from_ :: fromRest, to_ :: toRest =>
    if from_ = to_ then dropCommon fromRest toRest else (from_ :: fromRest, to_ :: toRest)
  | fromRest, toRest => (fromRest, toRest)

def relative (cwd from_ to_ : Path) : Path :=
  let fromSegments := normalSegments (resolve cwd [from_]) false
  let toSegments := normalSegments (resolve cwd [to_]) false
  let (up, down) := dropCommon fromSegments toSegments
  [slash].intercalate (up.map (fun _ => ['.', '.']) ++ down)

example : relative [] "/p/contracts".toList "/p/contracts/token/../Box.sol".toList =
    "Box.sol".toList := by decide

example : join ["/p/contracts".toList, "../node_modules".toList] = "/p/node_modules".toList := by
  decide

end Posix
