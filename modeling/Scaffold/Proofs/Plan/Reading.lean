import Scaffold.Plan
import Scaffold.Proofs.Disk.Place
import Scaffold.Proofs.Disk.Trace

/-! Planning reads only. Whatever is planned, the disk stays as it is, so a preview and the real
run start from the same plan. A plan for a model tells what was found on the disk when it was
made. -/

namespace Scaffold

/-- A script that leaves every disk as it is. -/
def Script.ReadsOnly {α : Type} (s : Script Temporary α) : Prop :=
  ∀ d, (s.run d).2 = d

theorem Script.ReadsOnly.run_bind {α β : Type} {s : Script Temporary α} (h : ReadsOnly s)
    (f : α → Script Temporary β) (d : Disk) : (s >>= f).run d = (f (s.run d).1).run d := by
  rw [Script.run_bind, h]

/-- A script that only looks leaves every disk as it is. -/
theorem Script.Only.readsOnly {α : Type} {s : Script Temporary α} (h : s.Only Call.Looks) :
    s.ReadsOnly := by
  induction s with
  | done a => exact fun _ => rfl
  | call c next ih =>
    intro d
    have hc : (d.answer c).2 = d := by
      obtain ⟨hlooks, -⟩ := h
      cases c <;> first | rfl | exact hlooks.elim
    rw [Script.run, ih _ (h.2 _), hc]

/-! ### Reading files -/

namespace Disk

variable {d : Disk} {p : Path}

theorem read_eq_ok_iff {content : ByteArray} :
    d.read p = .ok content ↔ d.node? p = some (.file content) := by
  unfold read node?
  cases hl : d.locate p with
  | error e => simp [bind, Except.bind]
  | ok l =>
    rcases hg : d.tree.get? l with _ | _ | content' <;> simp [bind, Except.bind, hg]

/-- The text of a file. -/
def readText (d : Disk) (p : Path) : Except ReadError Text :=
  match d.read p with
  | .error .missing => .error .missing
  | .error _ => .error .unreadable
  | .ok content =>
    match Text.decode? content with
    | some t => .ok t
    | none => .error .unreadable

theorem readText_eq_ok_iff {t : Text} :
    d.readText p = .ok t ↔ d.node? p = some (.file (Text.encode t)) := by
  rw [← read_eq_ok_iff]
  unfold readText
  constructor
  · intro h
    split at h
    · cases h
    · cases h
    · next content hr =>
      split at h
      · next t' ht =>
        cases h
        rw [hr, Text.encode_of_decode? ht]
      · cases h
  · intro h
    simp [h]

end Disk

@[simp] theorem Script.run_readText (p : Path) (d : Disk) :
    (Script.readText p).run d = (d.readText p, d) := by
  unfold Script.readText Disk.readText
  rw [Script.run_bind, Script.run_read]
  rcases d.read p with e | content
  · cases e <;> rfl
  · dsimp only
    cases Text.decode? content <;> rfl

section Looks

variable {τ : Type}

theorem Script.only_looks_exists? (p : Path) : (Script.exists? p : Script τ Bool).Only Call.Looks :=
  ⟨trivial, fun _ => trivial⟩

theorem Script.only_looks_readText (p : Path) :
    (Script.readText p : Script τ _).Only Call.Looks := by
  refine .bind ⟨trivial, fun _ => trivial⟩ fun r => ?_
  split
  · exact .pure _
  · exact .pure _
  · split <;> exact .pure _

theorem Template.only_looks_resolve (folder : Option Path) (kind : Template.Kind) :
    (Template.resolve folder kind : Script τ _).Only Call.Looks := by
  cases folder with
  | none => exact .pure _
  | some folder =>
    refine .bind (Script.only_looks_readText _) fun r => ?_
    split <;> exact .pure _

/-! ### Plans -/

namespace Plan

theorem only_looks_registration? (indent : Indent) (path : Path) (model : Text) :
    (registration? indent path model : Script τ _).Only Call.Looks := by
  refine .bind (Script.only_looks_readText _) fun r => ?_
  split
  · exact .pure _
  · exact .pure _
  · split <;> exact .pure _

theorem only_looks_ofModel (p : Project) (m : Model) (force : Bool) (indent : Indent) :
    (ofModel p m force indent : Script τ _).Only Call.Looks := by
  refine .bind (Template.only_looks_resolve _ _) fun r => ?_
  split
  · exact .pure _
  · refine .bind (Script.only_looks_exists? _) fun found => ?_
    split
    · exact .pure _
    · refine .bind (only_looks_registration? _ _ _) fun r => ?_
      split <;> exact .pure _

theorem only_looks_ofController (p : Project) (name : Text) (kind : ControllerKind) :
    (ofController p name kind : Script τ _).Only Call.Looks := by
  refine .bind (Template.only_looks_resolve _ _) fun r => ?_
  split <;> exact .pure _

theorem only_looks_ofView (p : Project) (name title : Text) :
    (ofView p name title : Script τ _).Only Call.Looks := by
  refine .bind (Template.only_looks_resolve _ _) fun r => ?_
  split <;> exact .pure _

end Plan

/-- Planning only looks. -/
theorem Request.only_looks_plan (p : Project) (r : Request) :
    (r.plan p : Script τ _).Only Call.Looks := by
  cases r with
  | model m force indent => exact Plan.only_looks_ofModel p m force indent
  | controller name kind => exact Plan.only_looks_ofController p name kind
  | view name title => exact Plan.only_looks_ofView p name title

end Looks

theorem Template.readsOnly_resolve (folder : Option Path) (kind : Template.Kind) :
    Script.ReadsOnly (Template.resolve folder kind) :=
  (Template.only_looks_resolve folder kind).readsOnly

namespace Request

/-- Planning leaves every disk as it is. -/
theorem readsOnly_plan (p : Project) (r : Request) : Script.ReadsOnly (r.plan p) :=
  (r.only_looks_plan p).readsOnly

theorem run_preview (p : Project) (r : Request) (d : Disk) :
    (r.preview p).run d = match ((r.plan p).run d).1 with
      | .error e => (.error e, d)
      | .ok plan => (.ok (plan.preview p), d) := by
  rw [preview, (readsOnly_plan p r).run_bind]
  cases ((r.plan p).run d).1 <;> rfl

theorem run_generate (p : Project) (r : Request) (d : Disk) :
    (r.generate p).run d = match ((r.plan p).run d).1 with
      | .error e => (.error e, d)
      | .ok plan => plan.commit.run d := by
  rw [generate, (readsOnly_plan p r).run_bind]
  cases ((r.plan p).run d).1 <;> rfl

end Request

namespace Plan

theorem run_commit (plan : Plan) (d : Disk) :
    plan.commit.run d = match (Scaffold.commit plan.drafts).run d with
      | (.error e, d') => (.error (.writeFailed e), d')
      | (.ok files, d') => (.ok ⟨files, plan.registration⟩, d') := by
  rw [commit, Script.run_bind]
  rcases (Scaffold.commit plan.drafts).run d with ⟨_ | files, d'⟩ <;> rfl

variable {d : Disk} {p : Project} {m : Model} {force : Bool} {indent : Indent} {plan : Plan}

theorem of_registration? {path : Path} {model : Text}
    {change : Registration.Change × Option Draft}
    (h : ((registration? indent path model).run d).1 = .ok change) :
    ∃ text, d.readText path = .ok text ∧
      ((Registration.splice indent (Registration.statement model) text = .ok .present ∧
        change = (.alreadyPresent path, none)) ∨
      ∃ new, Registration.splice indent (Registration.statement model) text = .ok (.inserted new) ∧
        change = (.appended path, some ⟨path, new, .always⟩)) := by
  rw [registration?, Script.run_bind, Script.run_readText] at h
  dsimp only at h
  split at h
  · cases h
  · cases h
  · next text ht =>
    refine ⟨text, ht, ?_⟩
    split at h
    · cases h
    · next hs =>
      cases h
      exact .inl ⟨hs, rfl⟩
    · next new hs =>
      cases h
      exact .inr ⟨new, hs, rfl⟩

end Plan

/-- The file of the model with a name. -/
def Project.modelFile (p : Project) (name : Text) : Path :=
  p.modelsFolder.join ⟨name ++ ".swift"⟩

/-- The file that a request is for. -/
def Request.file (p : Project) : Request → Path
  | .model m _ _ => p.modelFile m.name
  | .controller name kind => (p.controllersFolder.join ⟨kind.folderName⟩).join ⟨name ++ ".swift"⟩
  | .view name _ => p.viewsFolder.join ⟨name ++ ".leaf"⟩

/-- What a plan for a model tells about the disk: the setup file can be read, the model file is
missing or may be replaced, and the setup file is written again if the statement is not in it. -/
theorem Plan.of_ofModel {d : Disk} {p : Project} {m : Model} {force : Bool} {indent : Indent}
    {plan : Plan} (h : ((Plan.ofModel p m force indent).run d).1 = .ok plan) :
    ∃ template text, d.readText p.registrationFile = .ok text ∧
      (force = false → d.kind? (p.modelFile m.name) = none) ∧
      ((Registration.splice indent (Registration.statement m.name) text = .ok .present ∧
        plan = ⟨[Draft.ofModel indent template p.modelsFolder m],
          some (.alreadyPresent p.registrationFile)⟩) ∨
      ∃ new, Registration.splice indent (Registration.statement m.name) text = .ok (.inserted new) ∧
        plan = ⟨[Draft.ofModel indent template p.modelsFolder m, ⟨p.registrationFile, new, .always⟩],
          some (.appended p.registrationFile)⟩) := by
  rw [Plan.ofModel, (Template.readsOnly_resolve _ _).run_bind] at h
  split at h
  · cases h
  · next template _ =>
    rw [Script.run_bind, Script.run_exists?] at h
    dsimp only at h
    split at h
    · cases h
    · next hexists =>
      rw [(Plan.only_looks_registration? _ _ _).readsOnly.run_bind] at h
      split at h
      · cases h
      · next change setup hr =>
        obtain ⟨text, ht, hcases⟩ := Plan.of_registration? hr
        refine ⟨template, text, ht, fun hforce => ?_, ?_⟩
        · simpa [hforce, Project.modelFile, Draft.ofModel] using hexists
        · cases h
          rcases hcases with ⟨hs, hc⟩ | ⟨new, hs, hc⟩ <;> cases hc
          · exact .inl ⟨hs, rfl⟩
          · exact .inr ⟨new, hs, rfl⟩

end Scaffold
