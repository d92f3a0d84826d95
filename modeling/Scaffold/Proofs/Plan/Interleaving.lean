import Mathlib.Logic.Function.Basic
import Scaffold.Proofs.Commit.Files
import Scaffold.Proofs.Plan.Preview
import Scaffold.Proofs.Registration.Occurrences

/-! Several requests for models at once. Each is planned and committed, and others may be planned
and committed in between. A plan holds the whole setup file as it was when the plan was made, so a
commit drops what was registered since. What is registered at the end is told by a ledger that knows
nothing of files: `Tracks.run`, by induction over the turns. The main statement is about two
requests, whose ledger is checked in every order: `interleaved_registrations`. -/

namespace Scaffold

open Commit Registration

/-! ### Turns -/

/-- A step of one of several requests. -/
inductive Turn (ι : Type) where
  | plan (i : ι)
  | commit (i : ι)
  deriving DecidableEq, Repr

/-- The disk, and the plans that have been made and are not committed yet. -/
structure Desk (ι : Type) where
  disk : Disk
  plans : ι → Option Plan

/-- What is registered, and what was registered when the plans were made that are not committed
yet. -/
structure Ledger (ι : Type) where
  registered : ι → Bool
  noted : ι → Option (ι → Bool)

variable {ι : Type} [DecidableEq ι]

namespace Desk

/-- A disk before anything is planned. -/
def start (d : Disk) : Desk ι := ⟨d, fun _ => none⟩

/-- Plan or commit one of several calls, if that works. -/
def step? (p : Project) (calls : ι → ModelCall) (s : Desk ι) : Turn ι → Option (Desk ι)
  | .plan i =>
    match ((calls i).request.plan p).run s.disk with
    | (.ok plan, d) => some ⟨d, Function.update s.plans i (some plan)⟩
    | (.error _, _) => none
  | .commit i =>
    match s.plans i with
    | none => none
    | some plan =>
      match plan.commit.run s.disk with
      | (.ok _, d) => some ⟨d, Function.update s.plans i none⟩
      | (.error _, _) => none

/-- Take turns in order, if all of them work. -/
def run? (p : Project) (calls : ι → ModelCall) : List (Turn ι) → Desk ι → Option (Desk ι)
  | [], s => some s
  | turn :: turns, s => (s.step? p calls turn).bind (run? p calls turns)

end Desk

namespace Ledger

/-- A ledger before anything is planned. -/
def start (registered : ι → Bool) : Ledger ι := ⟨registered, fun _ => none⟩

/-- A plan notes what is registered. A commit goes back to the note of its plan and registers one
more, or changes nothing if this one was registered already when the plan was made. -/
def step? (l : Ledger ι) : Turn ι → Option (Ledger ι)
  | .plan i => some ⟨l.registered, Function.update l.noted i (some l.registered)⟩
  | .commit i => (l.noted i).map fun note =>
    ⟨if note i then l.registered else Function.update note i true, Function.update l.noted i none⟩

/-- Take turns in order, if each commit has a plan. -/
def run? : List (Turn ι) → Ledger ι → Option (Ledger ι)
  | [], l => some l
  | turn :: turns, l => (l.step? turn).bind (run? turns)

end Ledger

/-! ### The setup file -/

/-- Whether a line of a text registers a model. -/
def Registration.Registered (text name : Text) : Prop :=
  ∃ line ∈ fileLines text, Text.trim line = statement name

/-- The calls whose models are registered in a text. -/
def registeredIn (calls : ι → ModelCall) (text : Text) : ι → Bool :=
  fun i => occurrences text (calls i).model.name != 0

variable {p : Project} {calls : ι → ModelCall} {text new : Text} {i : ι} {d d' : Disk}

omit [DecidableEq ι] in
theorem registeredIn_eq_true_iff :
    registeredIn calls text i = true ↔ Registered text (calls i).model.name := by
  rw [registeredIn, bne_iff_ne, Ne, occurrences_eq_zero_iff]
  simp [Registered]

/-- A statement that is spliced into a text registers one more model. -/
theorem registeredIn_of_splice (hi : Function.Injective fun i => (calls i).model.name)
    (hn : '\n' ∉ (calls i).model.name)
    (h : splice (calls i).indent (statement (calls i).model.name) text = .ok (.inserted new)) :
    registeredIn calls text i = false ∧
      registeredIn calls new = Function.update (registeredIn calls text) i true := by
  have hzero : occurrences text (calls i).model.name = 0 :=
    occurrences_eq_zero_iff.2 (of_splice_eq_inserted h)
  obtain ⟨above, inner, outer, hcloses⟩ := closes_of_splice h
  obtain ⟨line, hline, hcloses'⟩ := hcloses.splice hn h
  have hcount := hcloses.occurrences_of_added hcloses' (n := (calls i).model.name)
    (by simp [hzero, hline])
  refine ⟨by simp [registeredIn, hzero], funext fun j => ?_⟩
  by_cases hj : j = i
  · subst hj
    simp [registeredIn, hcount, hzero]
  · have hne : (calls j).model.name ≠ (calls i).model.name := fun he => hj (hi he)
    simp [registeredIn, hcount, hne, hj]

/-! ### One turn -/

/-- A plan that was made when the given calls were registered. It writes the model file, and, if the
model was not registered, the setup file with one more statement. -/
structure PlannedOn (p : Project) (calls : ι → ModelCall) (i : ι) (plan : Plan)
    (note : ι → Bool) : Prop where
  always : ∀ f ∈ plan.drafts, f.overwrite = .always
  drafts : ∃ f, f.path = (calls i).file p ∧
    ((note i = true ∧ plan.drafts = [f]) ∨
      ∃ new, note i = false ∧ plan.drafts = [f, ⟨p.registrationFile, new, .always⟩] ∧
        registeredIn calls new = Function.update note i true)

/-- A ledger tells what the setup file registers, and what each plan will make of it. -/
structure Tracks (p : Project) (calls : ι → ModelCall) (s : Desk ι) (l : Ledger ι) : Prop where
  temporaries : s.disk.temporaries = []
  apart : ∀ i, s.disk.place ((calls i).file p) ≠ s.disk.place p.registrationFile
  setup : ∃ text, s.disk.readText p.registrationFile = .ok text ∧
    registeredIn calls text = l.registered
  plans : ∀ i, Option.Rel (PlannedOn p calls i) (s.plans i) (l.noted i)

theorem plannedOn_of_plan {plan : Plan} (hi : Function.Injective fun i => (calls i).model.name)
    (hn : '\n' ∉ (calls i).model.name) (ht : d.readText p.registrationFile = .ok text)
    (h : (((calls i).request.plan p).run d).1 = .ok plan) :
    PlannedOn p calls i plan (registeredIn calls text) := by
  refine ⟨fun f hf => (ModelCall.mem_drafts_of_plan h f hf).2, ?_⟩
  obtain ⟨f, text', hpath, -, ht', hcases⟩ := ModelCall.drafts_of_plan h
  obtain rfl : text = text' := Except.ok.inj (ht.symm.trans ht')
  refine ⟨f, hpath, ?_⟩
  rcases hcases with ⟨hs, hd⟩ | ⟨new, hs, hd⟩
  · exact .inl ⟨registeredIn_eq_true_iff.2 (splice_eq_present_iff.1 hs), hd⟩
  · obtain ⟨hfalse, hnew⟩ := registeredIn_of_splice hi hn hs
    exact .inr ⟨new, hfalse, hd, hnew⟩

/-- What a commit of a plan that works does to the setup file. -/
theorem PlannedOn.setup {plan : Plan} {note : ι → Bool} {g : Generated}
    (hp : PlannedOn p calls i plan note) (quiet : d.temporaries = [])
    (ha : d.place ((calls i).file p) ≠ d.place p.registrationFile)
    (ht : d.readText p.registrationFile = .ok text) (h : plan.commit.run d = (.ok g, d')) :
    Wrote d d' plan.drafts ∧ ∃ text', d'.readText p.registrationFile = .ok text' ∧
      registeredIn calls text' =
        if note i then registeredIn calls text else Function.update note i true := by
  have hsetup := Disk.readText_eq_ok_iff.1 ht
  obtain ⟨f, hpath, hcases⟩ := hp.drafts
  have hw : Wrote d d' plan.drafts := by
    have htail : ∀ g ∈ plan.drafts.tail, ∃ old, d.node? g.path = some (.file old) := by
      rcases hcases with ⟨-, hd⟩ | ⟨new, -, hd, -⟩ <;> rw [hd]
      · simp
      · simp [hsetup]
    have hrun := Plan.run_commit plan d
    rcases commit_ok_or_sameFiles quiet htail with
      ⟨e, d₁, hc, -⟩ | ⟨outcomes, written, d₁, hc, hacc, hw⟩ <;> rw [hc, h] at hrun <;>
      cases hrun
    obtain ⟨rfl, -⟩ := hacc.eq_of_always hp.always
    exact hw
  refine ⟨hw, ?_⟩
  rcases hcases with ⟨hnote, hd⟩ | ⟨new, hnote, hd, hnew⟩
  · refine ⟨text, ?_, by simp [hnote]⟩
    rw [Disk.readText_eq_ok_iff]
    refine hw.node?_of_ne hsetup fun g hg => ?_
    obtain rfl : g = f := by simpa [hd] using hg
    rwa [hpath]
  · refine ⟨new, ?_, by simp [hnote, hnew]⟩
    exact Disk.readText_eq_ok_iff.2
      (hw.last [f] ⟨p.registrationFile, new, .always⟩ [] hd (by simp))

/-- Related tables stay related when one entry of each is set anew. -/
theorem rel_update {α β : Type} {R : ι → α → β → Prop} {f : ι → Option α} {g : ι → Option β}
    (h : ∀ j, Option.Rel (R j) (f j) (g j)) {a : Option α} {b : Option β}
    (hi : Option.Rel (R i) a b) (j : ι) :
    Option.Rel (R j) (Function.update f i a j) (Function.update g i b j) := by
  by_cases hj : j = i
  · subst hj
    simpa using hi
  · simpa [hj] using h j

/-- A turn that works is a step of the ledger. -/
theorem Tracks.step {s s' : Desk ι} {l : Ledger ι} {turn : Turn ι}
    (hi : Function.Injective fun i => (calls i).model.name)
    (hn : ∀ i, '\n' ∉ (calls i).model.name) (h : Tracks p calls s l)
    (hs : s.step? p calls turn = some s') :
    ∃ l', l.step? turn = some l' ∧ Tracks p calls s' l' := by
  obtain ⟨text, ht, hreg⟩ := h.setup
  cases turn with
  | plan i =>
    have hreads := Request.readsOnly_plan p (calls i).request s.disk
    rcases hrun : ((calls i).request.plan p).run s.disk with ⟨e | plan, d⟩ <;>
      simp only [Desk.step?, hrun, reduceCtorEq, Option.some.injEq] at hs
    rw [hrun] at hreads
    obtain rfl : d = s.disk := hreads
    subst hs
    have hplan := plannedOn_of_plan hi (hn i) ht (by rw [hrun])
    rw [hreg] at hplan
    exact ⟨_, rfl, h.temporaries, h.apart, h.setup, rel_update h.plans (.some hplan)⟩
  | commit i =>
    -- The setup file goes back to what the plan has read, and so does the ledger.
    have hrel := h.plans i
    rcases hplan : s.plans i with _ | plan <;>
      simp only [Desk.step?, hplan, reduceCtorEq] at hs
    rw [hplan] at hrel
    rcases hnote : l.noted i with _ | note <;> rw [hnote] at hrel <;> cases hrel
    next hp =>
      rcases hrun : plan.commit.run s.disk with ⟨e | g, d⟩ <;>
        simp only [hrun, reduceCtorEq, Option.some.injEq] at hs
      subst hs
      obtain ⟨hw, text', ht', hreg'⟩ := hp.setup h.temporaries (h.apart i) ht hrun
      refine ⟨_, by rw [Ledger.step?, hnote]; rfl, hw.temporaries, fun j => ?_,
        ⟨text', ht', by rw [hreg', hreg]⟩, rel_update h.plans .none⟩
      rw [hw.place_eq, hw.place_eq]
      exact h.apart j

/-- Turns that work are a run of the ledger. -/
theorem Tracks.run {turns : List (Turn ι)} {s s' : Desk ι} {l : Ledger ι}
    (hi : Function.Injective fun i => (calls i).model.name)
    (hn : ∀ i, '\n' ∉ (calls i).model.name) (h : Tracks p calls s l)
    (hs : Desk.run? p calls turns s = some s') :
    ∃ l', l.run? turns = some l' ∧ Tracks p calls s' l' := by
  induction turns generalizing s l with
  | nil =>
    cases hs
    exact ⟨l, rfl, h⟩
  | cons turn turns ih =>
    obtain ⟨s₁, hs₁, hs⟩ := Option.bind_eq_some_iff.1 hs
    obtain ⟨l₁, hl₁, h₁⟩ := h.step hi hn hs₁
    obtain ⟨l', hl', h'⟩ := ih h₁ hs
    exact ⟨l', by rw [Ledger.run?, hl₁]; exact hl', h'⟩

/-- The first turn that works is a plan, which reads the setup file. -/
theorem Desk.exists_text {turn : Turn ι} {turns : List (Turn ι)} {s : Desk ι}
    (h : Desk.run? p calls (turn :: turns) (.start d) = some s) :
    ∃ text, d.readText p.registrationFile = .ok text := by
  obtain ⟨s₁, hs₁, -⟩ := Option.bind_eq_some_iff.1 h
  cases turn with
  | plan i =>
    rcases hrun : ((calls i).request.plan p).run d with ⟨e | plan, d₁⟩
    · simp [Desk.step?, Desk.start, hrun] at hs₁
    · obtain ⟨-, text, -, -, ht, -⟩ := ModelCall.drafts_of_plan (c := calls i) (by rw [hrun])
      exact ⟨text, ht⟩
  | commit i => simp [Desk.step?, Desk.start] at hs₁

/-! ### Two requests -/

/-- The turns of two requests. -/
def bothTurns : List (Turn Bool) := [.plan false, .commit false, .plan true, .commit true]

/-- Whether a model is registered when two requests have taken their turns, if those of `before`
were registered at the start: one of the two was, or the request is committed last, or it is
committed before the other one is planned. -/
def Survives (order : List (Turn Bool)) (before : Bool → Prop) (i : Bool) : Prop :=
  (∃ j, before j) ∨ [.commit (!i), .commit i].Sublist order ∨ [.commit i, .plan (!i)].Sublist order

instance (order : List (Turn Bool)) (before : Bool → Prop) [DecidablePred before] (i : Bool) :
    Decidable (Survives order before i) :=
  inferInstanceAs (Decidable (_ ∨ _ ∨ _))

instance {P : Turn Bool → Prop} [DecidablePred P] : Decidable (∀ turn, P turn) :=
  decidable_of_iff (∀ i, P (.plan i) ∧ P (.commit i))
    ⟨fun h turn => by cases turn <;> simp [h], fun h _ => ⟨h _, h _⟩⟩

/-- Whether both models are registered in the end: one of them was at the start, or one request is
committed before the other one is planned. -/
def BothSurvive (order : List (Turn Bool)) (before : Bool → Prop) : Prop :=
  (∃ j, before j) ∨ ∃ i, [.commit i, .plan (!i)].Sublist order

instance (order : List (Turn Bool)) (before : Bool → Prop) [DecidablePred before] :
    Decidable (BothSurvive order before) :=
  inferInstanceAs (Decidable (_ ∨ _))

/-- Two requests have few orders, and the ledger is kept in each of them. -/
theorem Ledger.registered_orders : ∀ a b c e : Turn Bool, [a, b, c, e].Perm bothTurns →
    ∀ x y : Bool, ∀ l ∈ (Ledger.start fun j => cond j y x).run? [a, b, c, e],
      (∀ i, l.registered i = true ↔ Survives [a, b, c, e] (fun j => cond j y x = true) i) ∧
      ((∀ i, l.registered i = true) ↔ BothSurvive [a, b, c, e] fun j => cond j y x = true) := by
  decide +kernel

/-- What the ledger of two requests has in the end. -/
theorem Ledger.registered_iff {order : List (Turn Bool)} (ho : order.Perm bothTurns)
    {registered : Bool → Bool} {l : Ledger Bool} (h : (start registered).run? order = some l) :
    (∀ i, l.registered i = true ↔ Survives order (fun j => registered j = true) i) ∧
      ((∀ i, l.registered i = true) ↔ BothSurvive order fun j => registered j = true) := by
  have hlen := ho.length_eq
  rcases order with _ | ⟨a, _ | ⟨b, _ | ⟨c, _ | ⟨e, _ | _⟩⟩⟩⟩ <;> simp [bothTurns] at hlen
  obtain ⟨x, y, rfl⟩ : ∃ x y, registered = fun j => cond j y x :=
    ⟨registered false, registered true, funext fun j => by cases j <;> rfl⟩
  exact registered_orders a b c e ho x y l h

/-- Of two requests for models that take turns, each turn working, a model is registered in the end
exactly if one of the two was registered at the start, or it is committed last, or it is committed
before the other one is planned; so a registration is lost if both are planned first. -/
theorem interleaved_registrations (t : FileTree) (here : Location) (p : Project)
    (calls : Bool → ModelCall) (hne : (calls false).model.name ≠ (calls true).model.name)
    (hn : ∀ i, '\n' ∉ (calls i).model.name)
    (ha : ∀ i, (t.disk here).place ((calls i).file p) ≠ (t.disk here).place p.registrationFile)
    {order : List (Turn Bool)} (ho : order.Perm bothTurns) {s : Desk Bool}
    (h : Desk.run? p calls order (.start (t.disk here)) = some s) :
    ∃ text text', (t.disk here).readText p.registrationFile = .ok text ∧
      s.disk.readText p.registrationFile = .ok text' ∧
      (∀ i, Registered text' (calls i).model.name ↔
        Survives order (fun j => Registered text (calls j).model.name) i) ∧
      ((∀ i, Registered text' (calls i).model.name) ↔
        BothSurvive order fun j => Registered text (calls j).model.name) := by
  have hi : Function.Injective fun i => (calls i).model.name := by
    intro i j hij
    cases i <;> cases j <;> first | rfl | exact absurd hij hne | exact absurd hij.symm hne
  obtain ⟨text, ht⟩ : ∃ text, (t.disk here).readText p.registrationFile = .ok text := by
    cases order with
    | nil => simp [bothTurns] at ho
    | cons turn turns => exact Desk.exists_text h
  have hstart : Tracks p calls (.start (t.disk here)) (.start (registeredIn calls text)) :=
    ⟨rfl, ha, ⟨text, ht, rfl⟩, fun _ => .none⟩
  obtain ⟨l, hl, htracks⟩ := hstart.run hi hn h
  obtain ⟨text', ht', hreg⟩ := htracks.setup
  have hfinal := Ledger.registered_iff ho hl
  rw [← hreg] at hfinal
  simp only [registeredIn_eq_true_iff] at hfinal
  exact ⟨text, text', ht, ht', hfinal⟩

/-- Two requests for models in a project whose setup file registers nothing. -/
def pageCall : ModelCall := { model := ⟨"Page", none, [], {}⟩ }

def twoCalls (i : Bool) : ModelCall := cond i pageCall noteCall

theorem interleaved_registrations_served :
    (twoCalls false).model.name ≠ (twoCalls true).model.name ∧
    (∀ i, '\n' ∉ (twoCalls i).model.name) ∧
    (∀ i, (noteTree.disk []).place ((twoCalls i).file noteProject) ≠
      (noteTree.disk []).place noteProject.registrationFile) ∧
    [Turn.plan false, .commit false, .plan true, .commit true].Perm bothTurns ∧
    ∃ s text text', Desk.run? noteProject twoCalls
        [.plan false, .commit false, .plan true, .commit true] (.start (noteTree.disk [])) =
          some s ∧
      s.disk.readText noteProject.registrationFile = .ok text' ∧
      (∀ i, Registered text' (twoCalls i).model.name ↔
        Survives [.plan false, .commit false, .plan true, .commit true]
          (fun j => Registered text (twoCalls j).model.name) i) ∧
      ∀ i, Registered text' (twoCalls i).model.name := by
  have hne : (twoCalls false).model.name ≠ (twoCalls true).model.name := by decide
  have hn : ∀ i, '\n' ∉ (twoCalls i).model.name := by decide
  have ha : ∀ i, (noteTree.disk []).place ((twoCalls i).file noteProject) ≠
      (noteTree.disk []).place noteProject.registrationFile := by decide
  obtain ⟨s, hs⟩ : ∃ s, Desk.run? noteProject twoCalls
      [.plan false, .commit false, .plan true, .commit true] (.start (noteTree.disk [])) =
        some s := Option.isSome_iff_exists.1 (by decide +kernel)
  obtain ⟨text, text', -, ht', heach, hboth⟩ :=
    interleaved_registrations noteTree [] noteProject twoCalls hne hn ha (.refl _) hs
  exact ⟨hne, hn, ha, .refl _, s, text, text', hs, ht', heach,
    hboth.2 (.inr ⟨false, by decide⟩)⟩

/-- Two requests for different models with different files work, and one of the models is not
registered in the end. -/
structure Loses (t : FileTree) (p : Project) (calls : Bool → ModelCall)
    (order : List (Turn Bool)) : Prop where
  names : (calls false).model.name ≠ (calls true).model.name
  feeds : ∀ i, '\n' ∉ (calls i).model.name
  targets : (t.disk []).place ((calls false).file p) ≠ (t.disk []).place ((calls true).file p)
  setup : ∃ text, (t.disk []).readText p.registrationFile = .ok text ∧
    ∃ above inner outer, Closes text above inner outer
  turns : order.Perm bothTurns
  lost : ∃ s text i, Desk.run? p calls order (.start (t.disk [])) = some s ∧
    s.disk.readText p.registrationFile = .ok text ∧ ¬ Registered text (calls i).model.name

instance (text name : Text) : Decidable (Registered text name) :=
  inferInstanceAs (Decidable (∃ line ∈ fileLines text, Text.trim line = statement name))

/-- The setup file that is left if both requests are planned before one of them is committed. -/
def pageSetup : Text :=
  "extension Config \x7b\n    func setup() \x7b\n" ++
    "        preparations.append(Page.self)\n    \x7d\n\x7d\n"

/-- A project whose models lie beside the setup file. -/
def besideProject : Project :=
  { noteProject with settings := { noteProject.settings with models := "." } }

/-- A tree whose setup file registers a model, and the file of the model is the setup file. -/
def setupTree : FileTree :=
  .ofEntries [(["Setup.swift".toList], .file (Text.encode
      ("preparations.append(Setup.self)\n" ++ noteSetup))), (["Templates".toList], .dir),
    (["Templates".toList, "model.swift".toList],
      .file (Text.encode "class VAR_MODEL_NAME \x7b\x7d\n"))] (by decide)

/-- Two requests for models, of which one writes the model that is registered already. -/
def setupCalls (i : Bool) : ModelCall :=
  cond i { model := ⟨"Setup", none, [], {}⟩, force := true } pageCall

/-- A registration is lost if both requests are planned first. One is also lost, although the first
request is committed before the second one is planned, if the second one writes its model file over
the setup file. -/
theorem interleaved_registration_lost :
    Loses noteTree noteProject twoCalls [.plan false, .plan true, .commit false, .commit true] ∧
    Loses setupTree besideProject setupCalls
      [.plan false, .commit false, .plan true, .commit true] := by
  have hrun : ((Desk.run? noteProject twoCalls
      [.plan false, .plan true, .commit false, .commit true] (.start (noteTree.disk []))).map
        fun s => s.disk.readText noteProject.registrationFile) = some (.ok pageSetup) := by
    decide +kernel
  have hforced : ((Desk.run? besideProject setupCalls
      [.plan false, .commit false, .plan true, .commit true] (.start (setupTree.disk []))).map
        fun s => s.disk.readText besideProject.registrationFile) =
          some (.ok "class Setup \x7b\x7d\n") := by
    decide +kernel
  obtain ⟨s, hs, ht⟩ := Option.map_eq_some_iff.1 hrun
  obtain ⟨s', hs', ht'⟩ := Option.map_eq_some_iff.1 hforced
  have hends : solid (fileLines noteSetup) =
      ["extension Config \x7b".toList, "    func setup() \x7b".toList] ++
        ["    \x7d".toList, "\x7d".toList] := by decide
  have hends' : solid (fileLines ("preparations.append(Setup.self)\n" ++ noteSetup)) =
      ["preparations.append(Setup.self)".toList, "extension Config \x7b".toList,
        "    func setup() \x7b".toList] ++ ["    \x7d".toList, "\x7d".toList] := by decide
  obtain ⟨above, hcloses⟩ := exists_closes hends rfl rfl
  obtain ⟨above', hcloses'⟩ := exists_closes hends' rfl rfl
  constructor
  · exact {
      names := by decide
      feeds := by decide
      targets := by decide
      setup := ⟨_, Disk.readText_eq_ok_iff.2 rfl, _, _, _, hcloses⟩
      turns := by decide
      lost := ⟨s, pageSetup, false, hs, ht, by decide⟩ }
  · exact {
      names := by decide
      feeds := by decide
      targets := by decide
      setup := ⟨_, Disk.readText_eq_ok_iff.2 rfl, _, _, _, hcloses'⟩
      turns := .refl _
      lost := ⟨s', _, false, hs', ht', by decide⟩ }

end Scaffold
