import RuleService.Request
import RuleService.Text.Name
import RuleService.Text.Split

namespace RuleService

/-- What stands between the slashes of a path, empty parts left out. -/
def pathParts (path : String) : List String := (Text.split "/" path).filter (!·.isEmpty)

/-- A part of a pattern. -/
inductive Segment where
  /-- This part, in any case. -/
  | literal (text : String)
  /-- Any part, bound to a name. -/
  | param (name : String)
  /-- Any part, or at the end of the pattern all parts that are left. -/
  | wildcard
  deriving DecidableEq, Repr, Inhabited

namespace Segment

def ofText (text : String) : Segment :=
  match text.toList with
  | ['*'] => wildcard
  | ':' :: c :: cs => param (String.ofList (c :: cs))
  | _ => literal text

end Segment

abbrev Pattern := List Segment

namespace Pattern

def ofText (text : String) : Pattern := (pathParts text).map Segment.ofText

/-- The name that the rest of a path is bound to. -/
def restName : String := "0"

/-- Matches segments with parts, given what is bound so far. -/
def matchParts (params : Texts) : Pattern → List String → Option Texts
  | [], [] => some params
  | [], _ :: _ => none
  | [.wildcard], parts => some (params.put restName ("/".intercalate parts))
  | _ :: _, [] => none
  | .wildcard :: segments, _ :: parts => matchParts params segments parts
  | .param name :: segments, part :: parts => matchParts (params.put name part) segments parts
  | .literal text :: segments, part :: parts =>
    if sameName part text then matchParts params segments parts else none

/-- What a pattern binds in a path it matches. -/
def match? (pattern : Pattern) (path : String) : Option Texts :=
  matchParts [] pattern (pathParts path)

end Pattern

end RuleService
