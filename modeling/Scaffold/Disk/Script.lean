import Scaffold.Disk.Basic

/-! Programs that work on files. A script is a tree of calls: each call names an operation, and
its answer decides how the script goes on. Scripts run on a `Disk`, where their effects can be
reasoned about, and the same scripts are carried out on real files by the command. Files that
are staged are known by handles of a type `τ` that the one who runs the script chooses. -/

namespace Scaffold

/-- An operation on files. -/
inductive Call (τ : Type) where
  | kind (p : Path)
  | read (p : Path)
  | makeDir (p : Path)
  | removeDir (p : Path)
  | write (p : Path) (content : ByteArray)
  | removeFile (p : Path)
  | stage (folder : Path) (content : ByteArray)
  | unstage (t : τ)
  | persist (t : τ) (p : Path)

/-- The answer to an operation; a change is answered by whether it was made. -/
def Call.Answer {τ : Type} : Call τ → Type
  | .kind _ => Option Kind
  | .read _ => Except PathError ByteArray
  | .makeDir _ | .removeDir _ | .write _ _ | .removeFile _ | .persist _ _ => Bool
  | .stage _ _ => Option τ
  | .unstage _ => Unit

/-- A program of operations on files. -/
inductive Script (τ : Type) (α : Type) where
  | done (a : α)
  | call (c : Call τ) (next : c.Answer → Script τ α)

namespace Script

variable {τ α β : Type}

/-- Go on with the result of a script. -/
def bind (s : Script τ α) (f : α → Script τ β) : Script τ β :=
  match s with
  | .done a => f a
  | .call c next => .call c fun answer => bind (next answer) f

instance : Monad (Script τ) where
  pure := .done
  bind := bind

theorem bind_done (s : Script τ α) : bind s .done = s := by
  induction s with
  | done a => rfl
  | call c next ih => simp only [bind, ih]

theorem bind_bind {γ : Type} (s : Script τ α) (f : α → Script τ β) (g : β → Script τ γ) :
    bind (bind s f) g = bind s fun a => bind (f a) g := by
  induction s with
  | done a => rfl
  | call c next ih => simp only [bind, ih]

instance : LawfulMonad (Script τ) :=
  LawfulMonad.mk' _ (fun s => bind_done s) (fun _ _ => rfl) (fun s f g => bind_bind s f g)

def kind? (p : Path) : Script τ (Option Kind) := .call (.kind p) .done

def read (p : Path) : Script τ (Except PathError ByteArray) := .call (.read p) .done

def makeDir (p : Path) : Script τ Bool := .call (.makeDir p) .done

def removeDir (p : Path) : Script τ Bool := .call (.removeDir p) .done

def write (p : Path) (content : ByteArray) : Script τ Bool := .call (.write p content) .done

def removeFile (p : Path) : Script τ Bool := .call (.removeFile p) .done

def stage? (folder : Path) (content : ByteArray) : Script τ (Option τ) :=
  .call (.stage folder content) .done

def unstage (t : τ) : Script τ Unit := .call (.unstage t) .done

def persist (t : τ) (p : Path) : Script τ Bool := .call (.persist t p) .done

/-- Whether anything lies at a path. -/
def exists? (p : Path) : Script τ Bool := do
  return (← kind? p).isSome

/-- Whether a file lies at a path. -/
def isFile? (p : Path) : Script τ Bool := do
  return (← kind? p) == some .file

/-- Whether a directory lies at a path. -/
def isDir? (p : Path) : Script τ Bool := do
  return (← kind? p) == some .dir

end Script

/-- Answer a change that may fail; one that fails leaves the disk as it is. -/
def Disk.attempt (d : Disk) : Option Disk → Bool × Disk
  | some d' => (true, d')
  | none => (false, d)

/-- Carry out an operation. -/
def Disk.answer (d : Disk) : (c : Call Temporary) → c.Answer × Disk
  | .kind p => (d.kind? p, d)
  | .read p => (d.read p, d)
  | .makeDir p => d.attempt (d.makeDir? p)
  | .removeDir p => d.attempt (d.removeDir? p)
  | .write p content => d.attempt (d.writeFile? p content)
  | .removeFile p => d.attempt (d.removeFile? p)
  | .stage folder content =>
    match d.stage? folder content with
    | some (t, d') => (some t, d')
    | none => (none, d)
  | .unstage t => ((), d.unstage t)
  | .persist t p => d.attempt (d.persist? t p)

/-- Run a script on a disk: its result, and the disk afterwards. -/
def Script.run {α : Type} : Script Temporary α → Disk → α × Disk
  | .done a, d => (a, d)
  | .call c next, d => run (next (d.answer c).1) (d.answer c).2

namespace Script

variable {α β : Type}

@[simp] theorem run_pure (a : α) (d : Disk) : run (pure a) d = (a, d) := rfl

@[simp] theorem run_bind (s : Script Temporary α) (f : α → Script Temporary β) (d : Disk) :
    run (s >>= f) d = run (f (run s d).1) (run s d).2 := by
  show run (bind s f) d = _
  induction s generalizing d with
  | done a => rfl
  | call c next ih => exact ih _ _

@[simp] theorem run_map (s : Script Temporary α) (f : α → β) (d : Disk) :
    run (f <$> s) d = (f (run s d).1, (run s d).2) := by
  rw [map_eq_pure_bind, run_bind, run_pure]

@[simp] theorem run_kind? (p : Path) (d : Disk) : run (kind? p) d = (d.kind? p, d) := rfl

@[simp] theorem run_read (p : Path) (d : Disk) : run (read p) d = (d.read p, d) := rfl

@[simp] theorem run_makeDir (p : Path) (d : Disk) :
    run (makeDir p) d = d.attempt (d.makeDir? p) := rfl

@[simp] theorem run_removeDir (p : Path) (d : Disk) :
    run (removeDir p) d = d.attempt (d.removeDir? p) := rfl

@[simp] theorem run_write (p : Path) (content : ByteArray) (d : Disk) :
    run (write p content) d = d.attempt (d.writeFile? p content) := rfl

@[simp] theorem run_removeFile (p : Path) (d : Disk) :
    run (removeFile p) d = d.attempt (d.removeFile? p) := rfl

theorem run_stage? (folder : Path) (content : ByteArray) (d : Disk) :
    run (stage? folder content) d = match d.stage? folder content with
      | some (t, d') => (some t, d')
      | none => (none, d) := rfl

@[simp] theorem run_unstage (t : Temporary) (d : Disk) :
    run (unstage t) d = ((), d.unstage t) := rfl

@[simp] theorem run_persist (t : Temporary) (p : Path) (d : Disk) :
    run (persist t p) d = d.attempt (d.persist? t p) := rfl

@[simp] theorem run_exists? (p : Path) (d : Disk) :
    run (exists? p) d = ((d.kind? p).isSome, d) := by
  simp [exists?]

@[simp] theorem run_isFile? (p : Path) (d : Disk) :
    run (isFile? p) d = (d.kind? p == some .file, d) := by
  simp [isFile?]

@[simp] theorem run_isDir? (p : Path) (d : Disk) :
    run (isDir? p) d = (d.kind? p == some .dir, d) := by
  simp [isDir?]

end Script
end Scaffold
