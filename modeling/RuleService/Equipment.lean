import RuleService.Snippet.Engine
import RuleService.Storage.Files
import RuleService.Storage.Objects
import RuleService.Template.Expansion

namespace RuleService

structure Equipment where
  files : Files := {}
  /-- The texts in object storage. -/
  objects : String → Except Failure String
  modules : Snippet.Modules := Snippet.ownModules
  commands : Commands := Commands.builtIn
  /-- Where the random draws begin. -/
  seed : Nat := 0

namespace Equipment

def readers (q : Equipment) : Readers := { files := q.files.read, objects := q.objects }

/-- What templates draw on. -/
def host (q : Equipment) : Host where
  engine := Snippet.engine q.modules (Snippet.scriptsOf q.files) q.seed
  file := q.readers.read
  commands := q.commands

/-- Loads a script file as a module. -/
def importModule (q : Equipment) (name path : String) : Except Failure Equipment := do
  let modules ← q.modules.load q.files name path
  pure { q with modules }

end Equipment

end RuleService
