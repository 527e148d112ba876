import MailVault.Text.Pieces

/-!
# Where a path leads

The vault has a directory of its own, which holds files only.  A path is a row of
steps between slashes.  Every step but the last has to lead to a directory, so it
can only stay where it is or go up; the last one names the file.  What lies
outside the directory of the vault is not known to it, and is not found.

The file that a path leads to need not exist: it is made when it is opened.
Whether a name on the way is that of a file matters all the same, because it
decides which of two faults is reported.
-/

namespace MailVault
namespace Store

/-- A file by its name in the directory of the vault. -/
abbrev FileName := String

/-- Why a path leads to no file. -/
inductive PathFault where
  /-- A directory on the way does not exist, or the path is empty. -/
  | missing
  /-- A name on the way is that of a file. -/
  | notDirectory
  /-- The path leads to a directory, or could lead only to one. -/
  | isDirectory
  /-- A name or the whole path has too many bytes. -/
  | tooLong
  /-- The path holds the character that ends a path. -/
  | holdsNul
deriving DecidableEq

namespace PathFault

def message : PathFault → String
  | missing => "No such file or directory (os error 2)"
  | notDirectory => "Not a directory (os error 20)"
  | isDirectory => "Is a directory (os error 21)"
  | tooLong => "File name too long (os error 36)"
  | holdsNul => "file name contained an unexpected NUL byte"

end PathFault

/-- A directory that the steps of a path can lead to. -/
inductive Directory where
  /-- The directory of the vault. -/
  | own
  /-- A directory outside that of the vault. -/
  | outside
deriving DecidableEq

namespace FilePath

def nameLimit : Nat := 255

def pathLimit : Nat := 4095

/-- The steps of a path; slashes that follow each other count as one. -/
def steps (path : String) : List (List Char) :=
  (Text.split '/' path.toList).filter fun step => decide (step ≠ [])

/-- Whether a step names no entry of a directory, but the directory itself or the one above. -/
def isDots (step : List Char) : Bool :=
  decide (step = ['.'] ∨ step = ['.', '.'])

def isOverlong (step : List Char) : Bool :=
  decide (nameLimit < (String.ofList step).utf8ByteSize)

/-- The directory behind one step. -/
def enter (isFile : FileName → Bool) (directory : Directory) (step : List Char) :
    Except PathFault Directory :=
  if step = ['.'] then .ok directory
  else if step = ['.', '.'] then .ok .outside
  else if isOverlong step then .error .tooLong
  else if directory = .own ∧ isFile (String.ofList step) then .error .notDirectory
  else .error .missing

/-- The directory behind a row of steps. -/
def walk (isFile : FileName → Bool) : Directory → List (List Char) → Except PathFault Directory
  | directory, [] => .ok directory
  | directory, step :: later =>
    match enter isFile directory step with
    | .error fault => .error fault
    | .ok next => walk isFile next later

def fileIn (directory : Directory) (name : List Char) : Except PathFault FileName :=
  if isOverlong name then .error .tooLong
  else
    match directory with
    | .own => .ok (String.ofList name)
    | .outside => .error .missing

/-- The directory where the steps of a path begin. -/
def start (path : String) : Directory :=
  if path.toList.head? = some '/' then .outside else .own

/-- Whether the end of a path asks for a directory: it has no step, ends in dots or in a slash. -/
def endsInDirectory (path : String) : Bool :=
  (steps path).getLast?.all isDots || decide (path.toList.getLast? = some '/')

/-- The file that a path leads to, given which files exist.  The text of the path is checked
first, then its steps in their order. -/
def locate (isFile : FileName → Bool) (path : String) : Except PathFault FileName :=
  if path.toList.contains '\x00' then .error .holdsNul
  else if pathLimit < path.utf8ByteSize then .error .tooLong
  else if path.isEmpty then .error .missing
  else
    match walk isFile (start path) (steps path).dropLast with
    | .error fault => .error fault
    | .ok directory =>
      if endsInDirectory path then .error .isDirectory
      else fileIn directory ((steps path).getLast?.getD [])

/-! ## Which files exist matters for faults only -/

/-- Only the steps that name no entry lead on, and they do so whichever files exist. -/
theorem enter_of_ok {isFile : FileName → Bool} {directory next : Directory} {step : List Char}
    (ok : enter isFile directory step = .ok next) (other : FileName → Bool) :
    enter other directory step = .ok next := by
  simp only [enter] at ok ⊢
  by_cases one : step = ['.']
  · rw [if_pos one] at ok ⊢
    exact ok
  · by_cases two : step = ['.', '.']
    · rw [if_neg one, if_pos two] at ok ⊢
      exact ok
    · rw [if_neg one, if_neg two] at ok
      split at ok
      · cases ok
      · split at ok <;> cases ok

theorem walk_of_ok {isFile : FileName → Bool} {directory last : Directory}
    {row : List (List Char)} (ok : walk isFile directory row = .ok last)
    (other : FileName → Bool) : walk other directory row = .ok last := by
  induction row generalizing directory with
  | nil => exact ok
  | cons step later inductionStep =>
    simp only [walk] at ok ⊢
    cases entered : enter isFile directory step with
    | error fault =>
      rw [entered] at ok
      cases ok
    | ok next =>
      rw [entered] at ok
      rw [enter_of_ok entered other]
      exact inductionStep ok

/-- A path that leads to a file leads there whichever files exist. -/
theorem locate_of_ok {isFile : FileName → Bool} {path : String} {file : FileName}
    (ok : locate isFile path = .ok file) (other : FileName → Bool) :
    locate other path = .ok file := by
  simp only [locate] at ok ⊢
  by_cases nul : path.toList.contains '\x00'
  · rw [if_pos nul] at ok
    cases ok
  · by_cases long : pathLimit < path.utf8ByteSize
    · rw [if_neg nul, if_pos long] at ok
      cases ok
    · by_cases blank : path.isEmpty
      · rw [if_neg nul, if_neg long, if_pos blank] at ok
        cases ok
      · rw [if_neg nul, if_neg long, if_neg blank] at ok ⊢
        cases walked : walk isFile (start path) (steps path).dropLast with
        | error fault =>
          rw [walked] at ok
          cases ok
        | ok directory =>
          rw [walked] at ok
          rw [walk_of_ok walked other]
          exact ok

end FilePath
end Store
end MailVault
