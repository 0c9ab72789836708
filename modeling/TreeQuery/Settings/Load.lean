import TreeQuery.Settings.Basic

/-!
# Loading settings

A project file is loaded from a path. There may be nothing at the path, or a
directory, or a file whose bytes are no text; in none of these cases is there
anything to read settings from.

## Main definitions

* `Settings.Source`: What is at a path.
* `Settings.LoadError`: Why there are no settings.
* `Settings.load`: The settings that the file at a path makes.
-/

namespace TreeQuery.Settings

/-- What is at a path. -/
inductive Source where
  | absent
  | directory
  | file (bytes : ByteArray)

/-- Why the content of a path cannot be read as text. -/
inductive Unreadable where
  | notFound
  | isDirectory
  /-- The bytes of the file are not UTF-8. -/
  | invalidData
  deriving DecidableEq

/-- Why there are no settings. -/
inductive LoadError where
  | unreadable (reason : Unreadable)
  | faulty (fault : Json.Fault)
  deriving DecidableEq

def Source.text : Source → Except Unreadable String
  | .absent => .error .notFound
  | .directory => .error .isDirectory
  | .file bytes =>
    match String.fromUTF8? bytes with
    | some text => .ok text
    | none => .error .invalidData

def load (source : Source) : Except LoadError Settings :=
  match source.text with
  | .error reason => .error (.unreadable reason)
  | .ok text => (ofText text).mapError .faulty

end TreeQuery.Settings
