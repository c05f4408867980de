import RuleService.Text.Split

namespace RuleService.Path

/-- The parts of a path up to its file name; there is none in `..`. -/
def toFileName? (path : String) : Option (List String × String) :=
  match (Text.split "/" path).reverse.dropWhile fun part => part == "" || part == "." with
  | [] | ".." :: _ => none
  | name :: before => some (before.reverse, name)

/-- A file name cut at its last point. A point at the start does not count. -/
def cutName (name : String) : String × Option String :=
  let after := name.toList.reverse.takeWhile (· != '.')
  let before := name.toList.reverse.drop (after.length + 1)
  if before.isEmpty then (name, none)
  else (String.ofList before.reverse, some (String.ofList after.reverse))

/-- The extension of the file a path names, empty if there is none. -/
def extension (path : String) : String :=
  ((toFileName? path).bind fun (_, name) => (cutName name).2).getD ""

/-- A path with another extension. -/
def withExtension (path extension : String) : String :=
  match toFileName? path with
  | none => path
  | some (before, name) => "/".intercalate (before ++ [(cutName name).1 ++ "." ++ extension])

end RuleService.Path
