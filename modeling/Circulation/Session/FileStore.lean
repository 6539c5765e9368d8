import Circulation.Session.Journal
import Circulation.Text.Line

/-!
Contract: rule texts and caches kept as the files of one directory.

Owns:
- `FileStore`, the bytes of each file;
- which file a path names, so that two spellings of one path share their file;
- reading rule sets from files of either form, and writing caches.

Does not own: any directory below this one; there is none.
-/

namespace Circulation

structure FileStore where
  files : List (String × List UInt8)
deriving DecidableEq, Repr

namespace FileStore

/-- Whether a part of a path stays in the directory that the parts before it lead to. -/
def staysHere (part : List Char) : Bool :=
  part == [] || part == ['.']

/-- The name that the last part of a path gives, if all parts before it stay in the directory. -/
def lastName? : List (List Char) → Option String
  | [] => none
  | [last] => if staysHere last || last == ['.', '.'] then none else some (String.ofList last)
  | part :: rest => if staysHere part then lastName? rest else none

/-- The name of the file of the directory to which a path leads. A path that starts with `/` leaves
the directory, and so does one with a part that names another directory. -/
def fileName? (path : String) : Option String :=
  match Text.pieces (· == '/') path.toList with
  | [] :: _ => none
  | parts => lastName? parts

def empty : FileStore :=
  ⟨[]⟩

def read (store : FileStore) (path : String) : Except Error (List UInt8) :=
  match (fileName? path).bind fun name => store.files.lookup name with
  | some bytes => .ok bytes
  | none => .error (.file .notFound)

/-- Put bytes into the file to which a path leads, in place of any it had. A path that leads to no
file of the directory is refused. -/
def write (store : FileStore) (path : String) (bytes : List UInt8) : Except Error FileStore :=
  match fileName? path with
  | some name => .ok ⟨(name, bytes) :: store.files.filter fun file => file.1 != name⟩
  | none => .error (.file .notFound)

def readText (store : FileStore) (path : String) : Except Error String := do
  let bytes ← store.read path
  match Cache.Codec.ofUtf8? bytes with
  | some text => return text
  | none => .error (.file .invalidText)

def ruleSetOfText (store : FileStore) (path : String) : Recorded RuleSet := do
  let text ← Recorded.silent (store.readText path)
  Recorded.compileText text

def ruleSetOfCache (store : FileStore) (path : String) : Recorded RuleSet := do
  let blob ← Recorded.silent (store.read path)
  Recorded.decode blob

def writeCache (store : FileStore) (path : String) (rules : RuleSet) (source : Option String) :
    Recorded FileStore := do
  let blob ← Recorded.encode rules source
  Recorded.silent (store.write path blob)

/-- Reading gives the bytes last written, whichever path to the file was taken. -/
theorem read_of_write {store written : FileStore} {path other : String} {bytes : List UInt8}
    (done : store.write path bytes = .ok written) (same : fileName? other = fileName? path) :
    written.read other = .ok bytes := by
  unfold write at done
  split at done
  next name named =>
    cases done
    simp [read, same, named]
  next => cases done

end FileStore

end Circulation
