import Scaffold.Disk.Script
import Scaffold.Text.Utf8

/-! Writing several files together, all or none. First every file is written to a temporary
file in the directory it belongs in, and directories that are missing are made. Then the
temporary files are moved to their places one by one. If anything fails, what was moved is put
back, last first, and the directories that were made are removed. Main definition: `commit`. -/

namespace Scaffold

/-- What to do where something is already. -/
inductive Overwrite where
  | always | ifMissing
  deriving DecidableEq, Repr

/-- A file to be written. -/
structure Draft where
  path : Path
  content : Text
  overwrite : Overwrite := .always
  deriving DecidableEq, Repr

/-- What became of a draft. -/
inductive Outcome where
  | written | skipped
  deriving DecidableEq, Repr

/-- Why nothing was written. -/
inductive CommitError where
  /-- A draft could not be prepared. -/
  | stage (path : Path)
  /-- A draft could not be moved to its place; `rolledBack` was moved before it and put back. -/
  | persist (path : Path) (rolledBack : List Path)
  deriving DecidableEq, Repr

namespace CommitError

/-- The draft that failed. -/
def path : CommitError → Path
  | .stage p => p
  | .persist p _ => p

def message : CommitError → Text
  | .stage p => "failed to stage " ++ Text.quoted p.text
  | .persist p _ => "failed to write " ++ Text.quoted p.text

end CommitError

namespace Commit

variable {τ : Type}

/-- A draft in a temporary file, with the content of the file that it will replace. -/
structure Staged (τ : Type) where
  path : Path
  temporary : τ
  replaced : Option ByteArray

/-- The directory that a path belongs in. -/
def folderOf (p : Path) : Path :=
  match p.parent? with
  | some folder => if folder.text.isEmpty then "." else folder
  | none => "."

/-- Of paths that lie above each other, nearest first, those before the first that exists, in
front of `found`: outermost first. -/
def missingBelow (found : List Path) : List Path → Script τ (List Path)
  | [] => return found
  | p :: above => do
    if p.text.isEmpty then return found
    else if ← Script.exists? p then return found
    else missingBelow (p :: found) above

/-- The directories that have to be made for a directory to exist, outermost first. -/
def missingFolders (folder : Path) : Script τ (List Path) :=
  missingBelow [] folder.ancestors

/-- Make directories in order. One that cannot be made makes those below it fail as well. -/
def makeFolders : List Path → Script τ Unit
  | [] => return
  | p :: ps => do
    let _ ← Script.makeDir p
    makeFolders ps

/-- The content of the file at a path, if there is a file; `none` if it cannot be read. -/
def contentAt (p : Path) : Script τ (Option (Option ByteArray)) := do
  if ← Script.isFile? p then
    match ← Script.read p with
    | .ok content => return some (some content)
    | .error _ => return none
  else return some none

/-- Prepare a draft. Gives the staged draft, if it could be prepared, and the directories that
were missing. -/
def stageDraft (d : Draft) : Script τ (Option (Staged τ) × List Path) := do
  match ← contentAt d.path with
  | none => return (none, [])
  | some replaced => do
    let folder := folderOf d.path
    let missing ← missingFolders folder
    makeFolders missing
    if ← Script.isDir? folder then
      match ← Script.stage? folder (Text.encode d.content) with
      | some t => return (some ⟨d.path, t, replaced⟩, missing)
      | none => return (none, missing)
    else return (none, missing)

/-- What has been prepared: the outcomes so far, the staged drafts, and the directories made,
all in order. -/
structure Progress (τ : Type) where
  outcomes : List (Path × Outcome) := []
  staged : List (Staged τ) := []
  folders : List Path := []

/-- Prepare drafts in order, until one fails. A draft that must not overwrite is left alone if
something exists at its path. -/
def stageAll (p : Progress τ) : List Draft → Script τ (Progress τ × Option Path)
  | [] => return (p, none)
  | d :: ds => do
    let kept ← if d.overwrite = .ifMissing then Script.exists? d.path else pure false
    if kept then
      stageAll { p with outcomes := p.outcomes ++ [(d.path, .skipped)] } ds
    else
      let (staged, missing) ← stageDraft d
      let folders := p.folders ++ missing
      match staged with
      | some s =>
        stageAll ⟨p.outcomes ++ [(d.path, .written)], p.staged ++ [s], folders⟩ ds
      | none => return ({ p with folders := folders }, some d.path)

/-- Remove temporary files. -/
def unstageAll : List (Staged τ) → Script τ Unit
  | [] => return
  | s :: ss => do
    Script.unstage s.temporary
    unstageAll ss

/-- Put back what the moved drafts replaced. Gives the paths where that worked. -/
def rollBack : List (Staged τ) → Script τ (List Path)
  | [] => return []
  | s :: ss => do
    let restored ← match s.replaced with
      | some content => Script.write s.path content
      | none => Script.removeFile s.path
    let paths ← rollBack ss
    return if restored then s.path :: paths else paths

/-- Move staged drafts to their places. `moved` are those moved before, last first. On a
failure they are put back, and the failed path and the restored paths are given. -/
def persistAll (moved : List (Staged τ)) :
    List (Staged τ) → Script τ (Option (Path × List Path))
  | [] => return none
  | s :: ss => do
    if ← Script.persist s.temporary s.path then persistAll (s :: moved) ss
    else
      unstageAll (s :: ss)
      let restored ← rollBack moved
      return some (s.path, restored)

/-- Remove directories in order, as far as they are empty. -/
def removeFolders : List Path → Script τ Unit
  | [] => return
  | p :: ps => do
    let _ ← Script.removeDir p
    removeFolders ps

end Commit

open Commit in
/-- Write all drafts, or none of them. -/
def commit {τ : Type} (drafts : List Draft) :
    Script τ (Except CommitError (List (Path × Outcome))) := do
  let (p, failed) ← stageAll {} drafts
  match failed with
  | some path =>
    unstageAll p.staged
    removeFolders p.folders.reverse
    return .error (.stage path)
  | none =>
    match ← persistAll [] p.staged with
    | some (path, restored) =>
      removeFolders p.folders.reverse
      return .error (.persist path restored)
    | none => return .ok p.outcomes

end Scaffold
