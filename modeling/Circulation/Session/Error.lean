import Circulation.Cache.Blob
import Circulation.Resolution.Answer
import Circulation.RuleText.Draft

/-!
Contract: every way in which the library refuses.

Owns:
- `Error`, the errors of all parts under one type, and its wording;
- the rule set of a rule text, which can fail in two of these ways.

Does not own: the errors of the parts themselves.
-/

namespace Circulation

inductive FileError where
  | notFound
  /-- A text was wanted, and the bytes are not valid UTF-8. -/
  | invalidText
deriving DecidableEq, Repr

/-- An error of any part of the library. -/
inductive Error where
  | parse (error : ParseError)
  | compile (error : CompileError)
  | hierarchy (error : HierarchyError)
  | resolution (error : ResolutionError)
  | cache (error : Cache.CacheError)
  | file (error : FileError)
  | noSuchResolver (name : String)
deriving DecidableEq, Repr

namespace FileError

/-- A wording that stands in for the one of the file system. -/
def message : FileError → String
  | notFound => "no such file or directory"
  | invalidText => "the file is not valid UTF-8"

end FileError

namespace Error

def message : Error → String
  | parse error => error.message
  | compile error => error.message
  | hierarchy error => error.message
  | resolution error => error.message
  | cache error => error.message
  | file error => error.message
  | noSuchResolver name => name

end Error

namespace RuleSet

def ofText (text : String) : Except Error RuleSet := do
  let draft ← (RuleText.parse text).mapError .parse
  (compile draft).mapError .compile

end RuleSet

end Circulation
