import SourceLens.FilePath
import SourceLens.Text.Utf8

/-!
# The system

What loading settings asks of the system that it runs on: the working directory, files, and the home
directories of users. All of it is given, and every question may fail.
-/

namespace SourceLens.Settings

/-- What a call raises instead of an answer. -/
inductive Raised where
  /-- A value is wrong; a check that raises this fails, and goes on with other values. -/
  | wrong (message : String)
  | other (kind message : String)
  deriving DecidableEq, Repr

/-- What stands at a path. -/
inductive Status where
  | absent
  | file
  | other
  deriving DecidableEq, Repr

/-- The home directories of users by name, if there are such users; without a name, of the one who
asks. -/
abbrev Homes := Text → Except Raised (Option Text)

/-- The answers of a system. -/
structure System where
  /-- The working directory. -/
  directory : Except Raised Text
  status : Text → Except Raised Status
  content : Text → Except Raised Bytes
  homes : Homes

/-- What is raised where a home directory is not known. -/
def homeUnknown : Raised := .other "RuntimeError" "Could not determine home directory."

/-- The home directory that stands in a path for a tilde and a name. -/
def homeDirectory (found : Option Text) : Except Raised Text :=
  match found with
  | none => .error homeUnknown
  | some directory =>
    let bare := (directory.reverse.dropWhile (· = '/')).reverse
    if bare.isEmpty then .ok ['/']
    else if bare.head? = some '~' then .error homeUnknown
    else .ok bare

/-- `expanduser`: a path in normal form, with the home of a user in place of a leading tilde. -/
def expandUser (homes : Homes) (path : Text) : Except Raised Text :=
  match FilePath.isAbsolute path, FilePath.components path with
  | false, ('~' :: user) :: rest =>
    (homes user).bind fun found =>
      (homeDirectory found).map fun directory => FilePath.join directory rest
  | _, _ => .ok (FilePath.normal path)

end SourceLens.Settings
