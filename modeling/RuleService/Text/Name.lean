namespace RuleService

/-- A name in lower case, as far as ASCII goes. -/
def foldName (s : String) : String := s.map Char.toLower

/-- Whether two names are equal up to the case of ASCII letters. -/
def sameName (a b : String) : Bool := foldName a == foldName b

end RuleService
