import TreeQuery.Json.Record
import TreeQuery.Log.Logger

/-!
# Settings

What can be set, and how a project file says it. The settings stand in one section
of the file, next to the settings of other tools, which are none of our business.
Inside the section every member is ours, and one that nobody knows is an error.

There is one setting, the least level of the messages that are shown. It is given
by name, or as an object whose only member has that name and is null.

## Main definitions

* `Settings`: The settings.
* `Level.key`: The name of a level in a project file.
* `readLevel`: The reader of a level.
* `Settings.sectionRecord`, `Settings.fileRecord`: The records of a project file.
* `Settings.ofText`: The settings that a project file makes.
* `Settings.logger`: The logger that the settings ask for.
-/

namespace TreeQuery

/-- What can be set. -/
structure Settings where
  /-- The least level of the messages that are shown. -/
  level : Level := Level.standard
  deriving DecidableEq

namespace Level

def key : Level → String
  | .debug => "debug"
  | .info => "info"
  | .warn => "warn"
  | .error => "error"

def ofKey (name : String) : Except Json.Fault Level :=
  match all.find? fun level => level.key == name with
  | some level => .ok level
  | none => .error (.mismatch (.unknownVariant name (all.map key)))

end Level

namespace Settings

open Json

def readNull (text : List Char) : Except Fault (List Char) :=
  match skipBlanks text with
  | [] => .error .ended
  | c :: rest =>
    if c = 'n' then skipWord ['u', 'l', 'l'] rest else .error (unexpected "unit" (c :: rest))

/-- Read the name of a level, alone or in front of the colon in an object. The names in an object
    are strings, so that anything else is malformed and not merely of the wrong type. -/
def readLevelName (text : List Char) : Except Fault (Level × List Char) :=
  match skipBlanks text with
  | [] => .error .ended
  | c :: rest =>
    if c = '"' then
      match readText rest with
      | .error fault => .error fault
      | .ok (name, after) =>
        match Level.ofKey name with
        | .error fault => .error fault
        | .ok level => .ok (level, after)
    else .error .malformed

/-- Read the only member of an object, whose name is a level and whose value is null, and the
    bracket that closes the object. -/
def readLevelMember (text : List Char) : Except Fault (Level × List Char) :=
  match readLevelName text with
  | .error fault => .error fault
  | .ok (level, rest) =>
    match skipColon rest with
    | .error fault => .error fault
    | .ok rest =>
      match readNull rest with
      | .error fault => .error fault
      | .ok rest =>
        match skipBlanks rest with
        | [] => .error .ended
        | c :: rest => if c = '}' then .ok (level, rest) else .error .malformed

def readLevel (text : List Char) : Except Fault (Level × List Char) :=
  match skipBlanks text with
  | [] => .error .ended
  | c :: rest =>
    if c = '"' then readLevelName (c :: rest)
    else if c = '{' then readLevelMember rest
    else .error .malformed

-- A member whose name is a number is malformed, although its value is null.
example : readLevel ['{', '1', ':', 'n', 'u', 'l', 'l', '}'] = .error .malformed := rfl

theorem length_readNull_le {text rest : List Char} (h : readNull text = .ok rest) :
    rest.length ≤ text.length := by
  unfold readNull at h
  split at h
  · exact absurd h (by simp)
  next c tail blanks =>
    have := length_of_skipBlanks_eq_cons blanks
    split at h
    · have := length_skipWord h
      omega
    · exact absurd h (by simp)

theorem length_readLevelName_le {text rest : List Char} {level : Level}
    (h : readLevelName text = .ok (level, rest)) : rest.length ≤ text.length := by
  unfold readLevelName at h
  split at h
  · exact absurd h (by simp)
  next c tail blanks =>
    have := length_of_skipBlanks_eq_cons blanks
    split at h
    · split at h
      · exact absurd h (by simp)
      next name after read =>
        have := length_readText_lt read
        split at h
        · exact absurd h (by simp)
        · simp only [Except.ok.injEq, Prod.mk.injEq] at h
          rw [← h.2]
          omega
    · exact absurd h (by simp)

theorem length_readLevelMember_le {text rest : List Char} {level : Level}
    (h : readLevelMember text = .ok (level, rest)) : rest.length ≤ text.length := by
  unfold readLevelMember at h
  split at h
  · exact absurd h (by simp)
  next named =>
    have := length_readLevelName_le named
    split at h
    · exact absurd h (by simp)
    next colon =>
      have := length_skipColon_lt colon
      split at h
      · exact absurd h (by simp)
      next null =>
        have := length_readNull_le null
        split at h
        · exact absurd h (by simp)
        next closing =>
          have := length_of_skipBlanks_eq_cons closing
          split at h
          · simp only [Except.ok.injEq, Prod.mk.injEq] at h
            rw [← h.2]
            omega
          · exact absurd h (by simp)

theorem length_readLevel_le {text rest : List Char} {level : Level}
    (h : readLevel text = .ok (level, rest)) : rest.length ≤ text.length := by
  unfold readLevel at h
  split at h
  · exact absurd h (by simp)
  next c tail blanks =>
    have := length_skipBlanks_le text
    rw [blanks] at this
    simp only [List.length_cons] at this
    split at h
    · have := length_readLevelName_le h
      simp only [List.length_cons] at this
      omega
    · split at h
      · have := length_readLevelMember_le h
        omega
      · exact absurd h (by simp)

/-- The section of a project file that holds the settings. It has no members but the level. -/
def sectionRecord : Record Level where
  field := "logLevel"
  closed := true
  title := "struct TranspilerConfig"
  missing := Level.standard
  readField := readLevel
  length_readField_le := length_readLevel_le

/-- A project file. It has the section, and any number of members for others. -/
def fileRecord : Record Level where
  field := "transpiler"
  closed := false
  title := "struct ProjectFile"
  missing := Level.standard
  readField := sectionRecord.read
  length_readField_le := sectionRecord.length_read_le

def ofText (text : String) : Except Fault Settings :=
  (complete fileRecord.read text).map fun level => ⟨level⟩

/-- The level that a text names, which holds nothing else. -/
def levelOfText (text : String) : Except Fault Level :=
  complete readLevel text

def logger (settings : Settings) : Logger :=
  .console settings.level

end Settings

end TreeQuery
