set_option autoImplicit false

namespace SceneGallery.Storage.Path

/-- The names of a path in order, without the empty ones between neighbouring slashes. -/
def names (path : String) : List String :=
  ((path.toList.splitOn '/').filter fun name => !name.isEmpty).map String.ofList

/-- Whether a path leads from the root. -/
def isAbsolute (path : String) : Bool :=
  path.toList.head? == some '/'

/-- Whether a slash at the end of a path says that it leads to a directory. -/
def endsWithSlash (path : String) : Bool :=
  path.toList.getLast? == some '/'

/-- The path of a name in a directory. A name that leads from the root stays as it is. -/
def join (directory name : String) : String :=
  if isAbsolute name || directory.isEmpty then name
  else if endsWithSlash directory then directory ++ name
  else directory ++ "/" ++ name

/-- A path, in reverse order, without the slashes and the names of one dot at its end. A slash at
the start of the path stays. -/
def trimReversed : List Char → List Char
  | ['/'] => ['/']
  | '/' :: rest => trimReversed rest
  | '.' :: '/' :: rest => trimReversed ('/' :: rest)
  | reversed => reversed

/-- The directory that a path leads to the last name of, as far as the path tells it. -/
def parent (path : String) : String :=
  let kept := (trimReversed path.toList.reverse).dropWhile (· != '/')
  String.ofList (trimReversed kept).reverse

end SceneGallery.Storage.Path
