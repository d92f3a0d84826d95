import Scaffold.Proofs.Commit.Files
import Scaffold.Proofs.Plan.Preview

/-! Requests that must not replace files: those for controllers and views, and those for models that
are not forced. They ask whether their path leads to something before missing directories are made.
So a file is replaced exactly if the path leads to it only through a directory that is made for the
request. Main statement: `generate_keeps_iff`. -/

namespace Scaffold

open Commit

namespace Request

/-- Whether a request must not replace its file. -/
def spares : Request → Bool
  | .model _ force _ => !force
  | .controller _ _ | .view _ _ => true

/-- The setup file, if a request registers anything. -/
def setupFile? (p : Project) : Request → Option Path
  | .model _ _ _ => some p.registrationFile
  | .controller _ _ | .view _ _ => none

end Request

/-- A request works although its path led to nothing before, and replaces what lies at the place of
the path by something else. -/
structure Clobbers (d : Disk) (p : Project) (r : Request) (l : Location) (content : ByteArray) :
    Prop where
  place : d.place (r.file p) = l
  unseen : d.kind? (r.file p) = none
  works : ∃ g, ((r.generate p).run d).1 = .ok g
  differs : ∃ plan f, ((r.plan p).run d).1 = .ok plan ∧ plan.drafts.head? = some f ∧
    Text.encode f.content ≠ content

variable {d d' : Disk} {p : Project} {r : Request} {plan : Plan} {l : Location} {content : ByteArray}

/-- Only models have a setup file. -/
theorem Request.of_setupFile? {q : Path} (hr : r.setupFile? p = some q) :
    ∃ m force indent, r = .model m force indent ∧ q = p.registrationFile := by
  cases r with
  | model m force indent => exact ⟨m, force, indent, rfl, (Option.some.inj hr).symm⟩
  | controller name kind => cases hr
  | view name title => cases hr

/-- A request that registers nothing plans one file, which it keeps if it is there. -/
theorem Request.single_of_plan (hr : r.setupFile? p = none)
    (h : ((r.plan p).run d).1 = .ok plan) :
    ∃ f, plan = ⟨[f], none⟩ ∧ f.path = r.file p ∧ f.overwrite = .ifMissing := by
  cases r with
  | model m force indent => cases hr
  | controller name kind =>
    rw [Request.plan, Plan.ofController, (Template.readsOnly_resolve _ _).run_bind] at h
    split at h
    · cases h
    · cases h
      exact ⟨_, rfl, rfl, rfl⟩
  | view name title =>
    rw [Request.plan, Plan.ofView, (Template.readsOnly_resolve _ _).run_bind] at h
    split at h
    · cases h
    · cases h
      exact ⟨_, rfl, rfl, rfl⟩

/-- The drafts of a request that must not replace its file: the file, which is missing or may not be
overwritten, and the setup file, which is there. -/
theorem Request.drafts_of_plan (hs : r.spares = true) (h : ((r.plan p).run d).1 = .ok plan) :
    ∃ f rest, plan.drafts = f :: rest ∧ f.path = r.file p ∧
      (f.overwrite = .always → d.kind? f.path = none) ∧
      ∀ g ∈ rest, r.setupFile? p = some g.path ∧ ∃ old, d.node? g.path = some (.file old) := by
  cases hr : r.setupFile? p with
  | none =>
    obtain ⟨f, rfl, hpath, ho⟩ := Request.single_of_plan hr h
    refine ⟨f, [], rfl, hpath, fun ha => ?_, by simp⟩
    rw [ho] at ha
    cases ha
  | some q =>
    obtain ⟨m, force, indent, rfl, rfl⟩ := Request.of_setupFile? hr
    obtain ⟨template, text, ht, hmissing, hcases⟩ := Plan.of_ofModel h
    have hforce : force = false := by simpa [spares] using hs
    have hsetup := Disk.readText_eq_ok_iff.1 ht
    rcases hcases with ⟨-, rfl⟩ | ⟨new, -, rfl⟩
    · exact ⟨_, [], rfl, rfl, fun _ => hmissing hforce, by simp⟩
    · refine ⟨_, [⟨p.registrationFile, new, .always⟩], rfl, rfl, fun _ => hmissing hforce, ?_⟩
      intro g hg
      obtain rfl : g = _ := List.mem_singleton.1 hg
      exact ⟨rfl, _, hsetup⟩

/-- What can come of a request that must not replace its file, for the files that are there. -/
theorem Request.generate_cases (quiet : d.temporaries = []) (hs : r.spares = true) :
    (∃ e d', (r.generate p).run d = (.error e, d') ∧ d.SameFiles d') ∨
    ∃ plan g d' f rest written, ((r.plan p).run d).1 = .ok plan ∧
      (r.generate p).run d = (.ok g, d') ∧ plan.drafts = f :: rest ∧ f.path = r.file p ∧
      (∀ g ∈ rest, r.setupFile? p = some g.path) ∧ Wrote d d' written ∧
      ((d.kind? f.path ≠ none ∧ written.Sublist rest) ∨
        (d.kind? f.path = none ∧ ∃ others, written = f :: others ∧ others.Sublist rest)) := by
  have hgen := Request.run_generate p r d
  cases hplan : ((r.plan p).run d).1 with
  | error e =>
    rw [hplan] at hgen
    exact .inl ⟨e, d, hgen, fun _ _ => Iff.rfl⟩
  | ok plan =>
    rw [hplan] at hgen
    obtain ⟨f, rest, hd, hpath, halways, hrest⟩ := Request.drafts_of_plan hs hplan
    have hrun := Plan.run_commit plan d
    have htail : ∀ g ∈ plan.drafts.tail, ∃ old, d.node? g.path = some (.file old) := by
      intro g hg
      rw [hd] at hg
      exact (hrest g hg).2
    rcases commit_ok_or_sameFiles quiet htail with
      ⟨e, d', hcommit, hsame⟩ | ⟨outcomes, written, d', hcommit, ha, hw⟩
    · rw [hcommit] at hrun
      exact .inl ⟨.writeFailed e, d', hgen.trans hrun, hsame⟩
    · rw [hcommit] at hrun
      refine .inr ⟨plan, _, d', f, rest, written, rfl, hgen.trans hrun, hd, hpath,
        fun g hg => (hrest g hg).1, hw, ?_⟩
      rw [hd] at ha
      cases ha with
      | skipped rule found hacc =>
        rw [Option.isSome_iff_ne_none] at found
        exact .inl ⟨found, hacc.sublist⟩
      | written rule grown hacc =>
        refine .inr ⟨?_, _, rfl, hacc.sublist⟩
        cases ho : f.overwrite with
        | always => exact halways ho
        | ifMissing => exact rule ho

/-- What it means to clobber a file, for a request that works. -/
theorem Request.clobbers_iff {g : Generated} {f : Draft} {rest : List Draft}
    (hplan : ((r.plan p).run d).1 = .ok plan) (hgen : (r.generate p).run d = (.ok g, d'))
    (hd : plan.drafts = f :: rest) (hpath : f.path = r.file p) :
    Clobbers d p r l content ↔
      d.place f.path = l ∧ d.kind? f.path = none ∧ Text.encode f.content ≠ content := by
  rw [hpath]
  constructor
  · intro h
    obtain ⟨plan', f', hplan', hf', hne⟩ := h.differs
    obtain rfl : plan = plan' := Except.ok.inj (hplan.symm.trans hplan')
    rw [hd] at hf'
    obtain rfl : f = f' := Option.some.inj hf'
    exact ⟨h.place, h.unseen, hne⟩
  · rintro ⟨hplace, hunseen, hne⟩
    exact ⟨hplace, hunseen, ⟨g, by rw [hgen]⟩, plan, f, hplan, by rw [hd]; rfl, hne⟩

/-- A request that must not replace its file keeps a file, other than the setup file, exactly
unless it clobbers it. -/
theorem Request.keeps_iff (quiet : d.temporaries = []) (hs : r.spares = true)
    (hl : d.tree.get? l = some (.file content))
    (hr : ∀ q, r.setupFile? p = some q → d.place q ≠ l) :
    ((r.generate p).run d).2.tree.get? l = some (.file content) ↔ ¬ Clobbers d p r l content := by
  rcases Request.generate_cases (p := p) quiet hs with
    ⟨e, d', hgen, hsame⟩ |
    ⟨plan, g, d', f, rest, written, hplan, hgen, hd, hpath, hsetup, hw, hcases⟩
  · rw [hgen]
    refine iff_of_true ((hsame l content).2 hl) fun hc => ?_
    obtain ⟨g, hg⟩ := hc.works
    rw [hgen] at hg
    cases hg
  · have hrest : ∀ g ∈ rest, d.place g.path ≠ l := fun g hg => hr g.path (hsetup g hg)
    rw [Request.clobbers_iff hplan hgen hd hpath, hgen]
    rcases hcases with ⟨hseen, hsub⟩ | ⟨hunseen, others, rfl, hsub⟩
    · exact iff_of_true (hw.get?_file hl fun g hg => hrest g (hsub.subset hg))
        fun hc => hseen hc.2.1
    · by_cases hplace : d.place f.path = l
      · have hlast := hw.last [] f others rfl fun g hg => by
          rw [hplace]
          exact hrest g (hsub.subset hg)
        have hnew : d'.tree.get? l = some (.file (Text.encode f.content)) := by
          rw [← hplace, ← hw.place_eq]
          exact (Disk.node?_eq_some_iff.1 hlast).2
        simp [hnew, hplace, hunseen]
      · refine iff_of_true (hw.get?_file hl fun g hg => ?_) fun hc => hplace hc.1
        rcases List.mem_cons.1 hg with rfl | hg
        · exact hplace
        · exact hrest g (hsub.subset hg)

/-- A path that climbs safely leads to what lies at its place from the start, so that nothing is
overlooked. -/
theorem Request.not_clobbers_of_climbs (quiet : d.temporaries = []) (hs : r.spares = true)
    (hl : d.tree.get? l = some (.file content))
    (hr : ∀ q, r.setupFile? p = some q → d.place q ≠ l) (hc : d.climbs (r.file p) = true) :
    ¬ Clobbers d p r l content := by
  intro h
  obtain ⟨g, hg⟩ := h.works
  rcases Request.generate_cases (p := p) quiet hs with
    ⟨e, d', hgen, -⟩ |
    ⟨plan, g', d', f, rest, written, -, -, -, hpath, hsetup, hw, ⟨hseen, -⟩ |
      ⟨hunseen, others, rfl, hsub⟩⟩
  · rw [hgen] at hg
    cases hg
  · rw [hpath] at hseen
    exact hseen h.unseen
  · have hplace : d.place f.path = l := by rw [hpath, h.place]
    have hlast := hw.last [] f others rfl fun g hg => by
      rw [hplace]
      exact hr g.path (hsetup g (hsub.subset hg))
    have htarget := Disk.target?_of_file hlast
    rw [hw.place_eq, hplace] at htarget
    rw [← hpath] at hc
    have hfound := (Disk.target?_of_climbs hc hw.here htarget hl).2
    simp [Disk.kind?, hfound] at hunseen

/-- A request for a controller or a view, or for a model that is not forced, keeps the content of
every file but the setup file, exactly unless it clobbers it; and it clobbers nothing if each `..`
in the path of its file stands in a directory. -/
theorem generate_keeps_iff (t : FileTree) (here : Location) (p : Project) (r : Request)
    (hs : r.spares = true) (l : Location) (content : ByteArray)
    (hl : t.get? l = some (.file content))
    (hr : ∀ q, r.setupFile? p = some q → (t.disk here).place q ≠ l) :
    (((r.generate p).run (t.disk here)).2.tree.get? l = some (.file content) ↔
      ¬ Clobbers (t.disk here) p r l content) ∧
    ((t.disk here).climbs (r.file p) = true →
      ((r.generate p).run (t.disk here)).2.tree.get? l = some (.file content)) := by
  have hiff := Request.keeps_iff (d := t.disk here) (p := p) rfl hs hl hr
  refine ⟨hiff, fun hc => hiff.2 ?_⟩
  exact Request.not_clobbers_of_climbs (d := t.disk here) rfl hs hl hr hc

/-- A tree with a controller that the user has written, and a template of controllers. -/
def homeTree : FileTree :=
  .ofEntries [(["Controllers".toList], .dir), (["Controllers".toList, "Views".toList], .dir),
    (["Controllers".toList, "Views".toList, "Home.swift".toList], .file (Text.encode "mine\n")),
    (["Templates".toList], .dir),
    (["Templates".toList, "controller.swift".toList], .file (Text.encode "new\n"))] (by decide)

def homeFile : Location := ["Controllers".toList, "Views".toList, "Home.swift".toList]

def homeProject : Project where
  root := "."
  home := none
  settings := { controllers := "Controllers", templates := some "Templates" }

/-- A request whose path goes through a missing directory and back. -/
def homeRequest : Request := .controller "x/../Home" .view

theorem homeRequest_clobbers :
    Clobbers (homeTree.disk []) homeProject homeRequest homeFile (Text.encode "mine\n") :=
  ⟨by decide, by decide, ⟨_, rfl⟩, ⟨_, _, rfl, rfl, by decide⟩⟩

theorem generate_home_not_kept :
    homeRequest.spares = true ∧
    homeTree.get? homeFile = some (.file (Text.encode "mine\n")) ∧
    (∀ q, homeRequest.setupFile? homeProject = some q → (homeTree.disk []).place q ≠ homeFile) ∧
    ((homeRequest.generate homeProject).run (homeTree.disk [])).2.tree.get? homeFile ≠
      some (.file (Text.encode "mine\n")) := by
  have hr : ∀ q, homeRequest.setupFile? homeProject = some q →
      (homeTree.disk []).place q ≠ homeFile := by
    intro q hq
    cases hq
  refine ⟨rfl, rfl, hr, fun hkept => ?_⟩
  have hiff := generate_keeps_iff homeTree [] homeProject homeRequest rfl homeFile
    (Text.encode "mine\n") rfl hr
  exact hiff.1.1 hkept homeRequest_clobbers

end Scaffold
