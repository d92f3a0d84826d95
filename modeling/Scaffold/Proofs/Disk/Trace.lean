import Scaffold.Proofs.Disk.Change

/-! What a script does on its way. A script may be restricted to operations of some kind, and it
touches the files that it writes or removes, also where their content stays the same. Only
operations that may touch files do. -/

namespace Scaffold

namespace Call

variable {τ : Type}

/-- The operations that only look. -/
def Looks : Call τ → Prop
  | .kind _ | .read _ => True
  | .makeDir _ | .removeDir _ | .write _ _ | .removeFile _ | .stage _ _ | .unstage _
  | .persist _ _ => False

/-- The operations that touch no file, but for temporary ones. -/
def SparesFiles : Call τ → Prop
  | .write _ _ | .removeFile _ | .persist _ _ => False
  | .kind _ | .read _ | .makeDir _ | .removeDir _ | .stage _ _ | .unstage _ => True

theorem Looks.sparesFiles {c : Call τ} (h : c.Looks) : c.SparesFiles := by
  cases c <;> trivial

end Call

namespace Script

variable {τ α β : Type} {P Q : Call τ → Prop}

/-- Every operation of a script has a property, whatever the answers are. -/
def Only (P : Call τ → Prop) : Script τ α → Prop
  | .done _ => True
  | .call c next => P c ∧ ∀ answer, (next answer).Only P

theorem Only.pure (a : α) : Only P (Pure.pure a : Script τ α) := trivial

theorem Only.bind {s : Script τ α} {f : α → Script τ β} (h : s.Only P) (hf : ∀ a, (f a).Only P) :
    (s >>= f).Only P := by
  show (Script.bind s f).Only P
  induction s with
  | done a => exact hf a
  | call c next ih => exact ⟨h.1, fun answer => ih answer (h.2 answer)⟩

theorem Only.imp (hpq : ∀ c, P c → Q c) {s : Script τ α} (h : s.Only P) : s.Only Q := by
  induction s with
  | done a => trivial
  | call c next ih => exact ⟨hpq c h.1, fun answer => ih answer (h.2 answer)⟩

end Script

/-! ### Touched files -/

/-- Where a file lies that an operation writes or removes. -/
def Disk.touched (d : Disk) : Call Temporary → Option Location
  | .write p content => if (d.writeFile? p content).isSome then d.target? p else none
  | .removeFile p => if (d.removeFile? p).isSome then d.target? p else none
  | .persist t p => if (d.persist? t p).isSome then d.target? p else none
  | .kind _ | .read _ | .makeDir _ | .removeDir _ | .stage _ _ | .unstage _ => none

namespace Script

variable {α β : Type}

/-- Where the files lie that a script writes or removes when it is run on a disk, in order. -/
def touches : Script Temporary α → Disk → List Location
  | .done _, _ => []
  | .call c next, d => (d.touched c).toList ++ touches (next (d.answer c).1) (d.answer c).2

@[simp] theorem touches_pure (a : α) (d : Disk) :
    touches (pure a : Script Temporary α) d = [] := rfl

@[simp] theorem touches_bind (s : Script Temporary α) (f : α → Script Temporary β) (d : Disk) :
    touches (s >>= f) d = touches s d ++ touches (f (s.run d).1) (s.run d).2 := by
  show touches (Script.bind s f) d = _
  induction s generalizing d with
  | done a => rfl
  | call c next ih => simp [Script.bind, touches, Script.run, ih]

@[simp] theorem touches_map (s : Script Temporary α) (f : α → β) (d : Disk) :
    touches (f <$> s) d = touches s d := by
  rw [map_eq_pure_bind, touches_bind, touches_pure, List.append_nil]

/-- A script without operations that touch files touches none. -/
theorem Only.touches_eq_nil {s : Script Temporary α} (h : s.Only Call.SparesFiles) (d : Disk) :
    s.touches d = [] := by
  induction s generalizing d with
  | done a => rfl
  | call c next ih =>
    have hc : d.touched c = none := by
      obtain ⟨hspares, -⟩ := h
      cases c <;> first | rfl | exact hspares.elim
    rw [touches, hc, ih _ (h.2 _)]
    rfl

end Script
end Scaffold
