import Scaffold.Proofs.Path.Components
import Scaffold.Proofs.Plan.Sparing

/-! Paths as they are shown. A preview or a report shows the path of a file as seen from the project,
or the whole path if the file does not lie below the project. Read from the project again, what is
shown leads to the file, since a path of the settings is absolute or lies below the project. Main
statement: `shown_leads_back`. -/

namespace Scaffold

/-! ### Paths that are absolute or lie below a root -/

namespace Path

variable {root q : Path}

/-- The path is absolute, or its components are those of the root and some behind them. -/
def IsPlaced (root q : Path) : Prop :=
  q.isAbsolute = true ∨ root.components <+: q.components

theorem join_of_isAbsolute (root : Path) (h : q.isAbsolute = true) : root.join q = q := by
  rw [join, if_pos h]

theorem isPlaced_root_join (root q : Path) : IsPlaced root (root.join q) := by
  cases h : q.isAbsolute with
  | true => exact .inl (by rw [join_of_isAbsolute root h, h])
  | false => exact .inr (prefix_components_join root h)

theorem IsPlaced.join (h : IsPlaced root q) (name : Path) : IsPlaced root (q.join name) := by
  cases hn : name.isAbsolute with
  | true => exact .inl (by rw [join_of_isAbsolute q hn, hn])
  | false =>
    refine h.imp (fun ha => ?_) fun hp => hp.trans (prefix_components_join q hn)
    rw [isAbsolute_join q hn, ha]

theorem IsPlaced.foldl_join (h : IsPlaced root q) (names : List Path) :
    IsPlaced root (names.foldl Path.join q) := by
  induction names generalizing q with
  | nil => exact h
  | cons name names ih => exact ih (h.join name)

/-- A path that is seen from a root and joined to the root again is the path up to idle parts. -/
theorem IsPlaced.components_join_relativeTo (h : IsPlaced root q) :
    (root.join (relativeTo root q)).components = q.components := by
  rw [relativeTo]
  cases hs : stripPrefix? root q with
  | some r => exact components_join_stripPrefix? hs
  | none =>
    have ha : q.isAbsolute = true := h.resolve_right fun hp => by
      have hsome := stripPrefix?_isSome_iff.2 hp
      rw [hs] at hsome
      cases hsome
    rw [Option.getD_none, join_of_isAbsolute root ha]

theorem prefix_components_foldl_join {names : List Path}
    (h : ∀ name ∈ names, name.isAbsolute = false) (q : Path) :
    q.components <+: (names.foldl Path.join q).components := by
  induction names generalizing q with
  | nil => exact List.prefix_refl _
  | cons name names ih =>
    obtain ⟨hname, hnames⟩ := List.forall_mem_cons.1 h
    exact (prefix_components_join q hname).trans (ih hnames (q.join name))

end Path

/-! ### Paths of the settings -/

variable {p : Project} {config : Path} {names : List Path}

namespace Project

/-- Whether a path of the settings is read from the home directory. -/
def Expands (p : Project) (config : Path) : Prop :=
  (Path.stripPrefix? "~" config).isSome = true ∧ p.home.isSome = true

instance (p : Project) (config : Path) : Decidable (p.Expands config) :=
  inferInstanceAs (Decidable (_ ∧ _))

/-- The file that some names lead to from a path of the settings: the setup file needs no name, a
model or a view needs one, and a controller that of the directory for its kind as well. -/
def filePath (p : Project) (config : Path) (names : List Path) : Path :=
  names.foldl Path.join (p.resolve config)

theorem resolve_of_not_expands (h : ¬p.Expands config) : p.resolve config = p.root.join config := by
  unfold resolve
  split
  · next rest home hs hh => exact absurd ⟨by rw [hs]; rfl, by rw [hh]; rfl⟩ h
  · rfl

theorem isPlaced_resolve (h : ∀ home, p.home = some home → home.isAbsolute = true)
    (config : Path) : Path.IsPlaced p.root (p.resolve config) := by
  unfold resolve
  split
  · next rest home hs hh =>
    left
    cases hr : rest.isAbsolute with
    | true => rw [Path.join_of_isAbsolute home hr, hr]
    | false => rw [Path.isAbsolute_join home hr, h home hh]
  · exact Path.isPlaced_root_join p.root config

end Project

/-- Every file of a plan is one that names lead to from a path of the settings. -/
theorem Request.exists_filePath {r : Request} {d : Disk} {plan : Plan}
    (h : ((r.plan p).run d).1 = .ok plan) :
    ∀ f ∈ plan.drafts, ∃ config names, f.path = p.filePath config names := by
  intro f hf
  cases hr : r.setupFile? p with
  | none =>
    obtain ⟨g, rfl, hpath, -⟩ := Request.single_of_plan hr h
    rw [List.mem_singleton.1 hf, hpath]
    cases r with
    | model m force indent => cases hr
    | controller name kind =>
      exact ⟨p.settings.controllers, [⟨kind.folderName⟩, ⟨name ++ ".swift"⟩], rfl⟩
    | view name title => exact ⟨p.settings.views, [⟨name ++ ".leaf"⟩], rfl⟩
  | some q =>
    obtain ⟨m, force, indent, rfl, rfl⟩ := Request.of_setupFile? hr
    obtain ⟨hpath, -⟩ :=
      ModelCall.mem_drafts_of_plan (c := ⟨m, force, indent⟩) h f hf
    rcases hpath with hpath | hpath
    · exact ⟨p.settings.models, [⟨m.name ++ ".swift"⟩], hpath⟩
    · exact ⟨p.settings.registration, [], hpath⟩

/-- If the home directory is absolute or unknown, every path of a file that is shown, read from the
root of the project, has the components of the path that is written. This holds of all files of a
plan. Names that are not absolute, from a path that is read from the root, lie below the root. -/
theorem shown_leads_back (p : Project)
    (hhome : ∀ home, p.home = some home → home.isAbsolute = true) :
    (∀ config names, (p.root.join ⟨p.shown (p.filePath config names)⟩).components =
      (p.filePath config names).components) ∧
    (∀ config names, config.isAbsolute = false → ¬p.Expands config →
      (∀ name ∈ names, name.isAbsolute = false) →
      (Path.stripPrefix? p.root (p.filePath config names)).isSome = true) ∧
    ∀ (r : Request) (d : Disk) (plan : Plan), ((r.plan p).run d).1 = .ok plan →
      ∀ f ∈ plan.drafts, (p.root.join ⟨p.shown f.path⟩).components = f.path.components := by
  have hback : ∀ config names, (p.root.join ⟨p.shown (p.filePath config names)⟩).components =
      (p.filePath config names).components := fun config names =>
    ((Project.isPlaced_resolve hhome config).foldl_join names).components_join_relativeTo
  refine ⟨hback, fun config names hc he hn => ?_, fun r d plan h f hf => ?_⟩
  · rw [Path.stripPrefix?_isSome_iff]
    have hroot : p.root.components <+: (p.resolve config).components := by
      rw [Project.resolve_of_not_expands he]
      exact Path.prefix_components_join p.root hc
    exact hroot.trans (Path.prefix_components_foldl_join hn _)
  · obtain ⟨config, names, hpath⟩ := Request.exists_filePath h f hf
    rw [hpath]
    exact hback config names

/-- A project with idle parts in its root and its home, and with a step up in a path. -/
def strayProject : Project where
  root := ".//App/."
  home := some "/home/vapor//"
  settings := { models := "./Models//x/..", views := "~//Views" }

theorem shown_leads_back_stray :
    (strayProject.shown (strayProject.filePath "./Models//x/.." ["User.swift"]) =
        "Models//x/../User.swift" ∧
      (strayProject.root.join "Models//x/../User.swift").components =
        (strayProject.filePath "./Models//x/.." ["User.swift"]).components) ∧
    (Path.stripPrefix? strayProject.root
      (strayProject.filePath "./Models//x/.." ["User.swift"])).isSome = true ∧
    ∃ plan, (((Request.view "Home" "Start").plan strayProject).run (FileTree.empty.disk [])).1 =
        .ok plan ∧
      plan.drafts.map (fun f => strayProject.shown f.path) = ["/home/vapor//Views/Home.leaf"] ∧
      ∀ f ∈ plan.drafts, (strayProject.root.join ⟨strayProject.shown f.path⟩).components =
        f.path.components := by
  have hhome : ∀ home, strayProject.home = some home → home.isAbsolute = true := by
    rintro _ ⟨⟩
    decide
  obtain ⟨hback, hstrip, hplan⟩ := shown_leads_back strayProject hhome
  refine ⟨⟨by decide, hback "./Models//x/.." ["User.swift"]⟩,
    hstrip "./Models//x/.." ["User.swift"] (by decide) (by decide) (by decide),
    _, rfl, by decide, hplan (.view "Home" "Start") (FileTree.empty.disk []) _ rfl⟩

end Scaffold
