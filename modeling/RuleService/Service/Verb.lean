import RuleService.Text.Name

namespace RuleService

inductive Verb where
  | get | post | put | delete | patch | options | head
  /-- Every method. -/
  | any
  deriving DecidableEq, Repr, Inhabited

namespace Verb

/-- The verb of a name in any case. -/
def ofName? (name : String) : Option Verb :=
  match foldName name with
  | "get" => some get
  | "post" => some post
  | "put" => some put
  | "delete" => some delete
  | "patch" => some patch
  | "options" => some options
  | "head" => some head
  | "*" | "all" => some any
  | _ => none

def name : Verb → String
  | get => "GET"
  | post => "POST"
  | put => "PUT"
  | delete => "DELETE"
  | patch => "PATCH"
  | options => "OPTIONS"
  | head => "HEAD"
  | any => "*"

/-- Whether an entry is for requests of a method; one for `GET` also answers `HEAD`. -/
def serves (verb : Verb) (method : String) : Bool :=
  match verb with
  | any => true
  | get => sameName method "GET" || sameName method "HEAD"
  | verb => sameName method verb.name

end Verb

end RuleService
