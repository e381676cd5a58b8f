import Mathlib.Data.List.Infix
import PyStreamAI.Py.Basic

/-!
# Paths and files

`Path` is a POSIX path as written: repeated slashes and `.` are dropped, `..` is kept. What a path
leads to is up to the file system, of which only the queries and changes the code makes are
known (`FileSystem`).
-/

namespace Py

/-- A `PurePosixPath`: its root, empty for a relative path, and its parts. -/
structure Path where
  root : String
  parts : List String
  deriving DecidableEq, Repr

namespace Path

/-- `Path(s)`. Exactly two leading slashes are kept. -/
def ofString (s : String) : Path where
  root :=
    match s.toList with
    | '/' :: '/' :: '/' :: _ => "/"
    | '/' :: '/' :: _ => "//"
    | '/' :: _ => "/"
    | _ => ""
  parts := ((s.toList.splitOn '/').filter fun part => part ≠ [] ∧ part ≠ ['.']).map String.ofList

/-- `p / s`: an absolute path replaces `p`. -/
def join (p : Path) (s : String) : Path :=
  let q := ofString s
  if q.root = "" then { p with parts := p.parts ++ q.parts } else q

/-- `str(p)`. -/
def toStr (p : Path) : String :=
  if p.root = "" ∧ p.parts = [] then "." else p.root ++ String.intercalate "/" p.parts

/-- A name without a slash is a path of one part. -/
theorem ofString_name {s : String} (hslash : '/' ∉ s.toList) (hne : s.toList ≠ [])
    (hdot : s.toList ≠ ['.']) : ofString s = ⟨"", [s]⟩ := by
  have hsplit : s.toList.splitOn '/' = [s.toList] := List.splitOn_eq_singleton hslash
  have hroot : (match s.toList with
      | '/' :: '/' :: '/' :: _ => "/"
      | '/' :: '/' :: _ => "//"
      | '/' :: _ => "/"
      | _ => "") = "" := by
    split
    · rename_i h
      exact absurd (h ▸ List.mem_cons_self) hslash
    · rename_i h
      exact absurd (h ▸ List.mem_cons_self) hslash
    · rename_i h
      exact absurd (h ▸ List.mem_cons_self) hslash
    · rfl
  unfold ofString
  rw [hroot, hsplit, List.filter_cons_of_pos (by simp [hne, hdot])]
  simp

end Path

/-- What the code asks of the file system and does to it. `mkdir` is
`mkdir(parents=True, exist_ok=True)`. -/
class FileSystem (F : Type) where
  pathExists : F → Path → Bool
  isFile : F → Path → Bool
  mkdir : F → Path → Except Exn Unit × F

/-- Files and directories without contents or links. -/
structure Disk where
  files : List Path
  dirs : List Path := []

/-- The paths on the way to `p`, and `p`. -/
def Path.prefixes (p : Path) : List Path := p.parts.inits.map fun parts => { p with parts }

/-- Making a directory where a file is, or below a file, raises. -/
instance : FileSystem Disk where
  pathExists d p := decide (p ∈ d.files ∨ p ∈ d.dirs)
  isFile d p := decide (p ∈ d.files)
  mkdir d p :=
    if p ∈ d.files then
      (.error (.exception ⟨"FileExistsError", s!"[Errno 17] File exists: {pyRepr p.toStr}"⟩), d)
    else if ∃ q ∈ p.prefixes, q ∈ d.files then
      (.error (.exception
        ⟨"NotADirectoryError", s!"[Errno 20] Not a directory: {pyRepr p.toStr}"⟩), d)
    else (.ok (), { d with dirs := d.dirs ++ p.prefixes })

end Py
