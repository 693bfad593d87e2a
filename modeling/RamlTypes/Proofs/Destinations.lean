import Mathlib.Data.List.Forall2
import RamlTypes.Proofs.NormalForm

/-!
# Where chains of targets lead

A file names other files by targets, which are taken against its directory, and those name others in
turn. Following a chain of targets leads to the place that is reached when their components are
followed one after the other and, before each target, the last name of the place is dropped
(`Path.canonical_of_isAbsolute`). The path itself is a normal form at each step, so it depends only on
the places and not on how a step is spelled.
-/

namespace RamlTypes.Path

variable {root p : Path} {place : List String}

/-! ## Joined paths -/

/-- A relative text is taken as pieces behind those of an absolute path. -/
theorem inner_join (hp : p.isAbsolute) {target : String} (ht : ¬ (Path.mk target).isAbsolute) :
    (p.join target).inner = p.inner ++ (Path.mk target).inner := by
  obtain ⟨rest, hrest⟩ := exists_of_isAbsolute hp
  have hne : p.text ≠ "" := by
    rintro h
    rw [h] at hrest
    cases hrest
  rw [join, if_neg (not_or.2 ⟨ht, hne⟩)]
  split
  · next hlast =>
    obtain ⟨front, hfront⟩ := List.getLast?_eq_some_iff.1 hlast
    simp only [inner, String.toList_append, hfront, List.append_assoc, List.singleton_append,
      Text.splitAt_append, List.filterMap_append]
    -- the piece behind the last separator of `p` is empty
    simp [Text.splitAt, component?]
  · have htext : (p.text ++ "/" ++ target).toList = p.text.toList ++ '/' :: target.toList := by
      rw [String.toList_append, String.toList_append, List.append_assoc]
      rfl
    simp only [inner, htext, Text.splitAt_append, List.filterMap_append]

/-- What a relative text is read as leads where its pieces lead. -/
theorem walk_components_of_relative {target : Path} (ht : ¬ target.isAbsolute)
    (place : List String) : walk place target.components = walk place target.inner := by
  rw [components, inner]
  split
  · rfl
  · rw [if_neg ht]

/-- A joined path leads where the text leads from the place of the path. -/
theorem place_join (hp : p.isAbsolute) (target : String) :
    (p.join target).place = walk p.place (Path.mk target).components := by
  by_cases ht : (Path.mk target).isAbsolute
  · rw [join, if_pos (.inl ht), place_of_isAbsolute ht]
  · rw [walk_components_of_relative ht, place, place, components_of_isAbsolute hp, walk_root,
      components_of_isAbsolute (isAbsolute_join hp target), walk_root, inner_join hp ht, walk_append]

/-- A path may be replaced by its normal form before a text is joined to it. -/
theorem normalize_join (hp : p.isAbsolute) (target : String) :
    (p.join target).normalize = (p.normalize.join target).normalize := by
  have hn := (normalize_idem hp).1
  rw [normalize_inj (isAbsolute_join hp target) (isAbsolute_join hn target), place_join hp,
    place_join hn, place_normalize hp]

/-! ## One step -/

/-- The components of a target. -/
def targetComponents (target : String) : List Component :=
  (Path.mk (Text.trim target)).components

/-- A path that is taken against a root leads where its components lead from there. -/
theorem normalizeIn_eq (hroot : root.isAbsolute) (p : Path) :
    normalizeIn root p = ofPlace (walk root.place p.components) := by
  rw [normalizeIn]
  split
  · next hp => rw [normalize_eq hp, place_of_isAbsolute hp]
  · rw [normalize_eq (isAbsolute_join hroot _), place_join hroot]

/-- The directory of an absolute path leads where all its components but the last one lead. -/
theorem place_parent (hp : p.isAbsolute) :
    p.parent.isAbsolute ∧ p.parent.place = walk [] p.components.dropLast := by
  have hcs := components_of_isAbsolute hp
  cases hinner : p.inner with
  | nil =>
    rw [hinner] at hcs
    have hparent : p.parent = ofPlace [] := by rw [parent, parentComponents, hcs]; rfl
    rw [hparent, hcs]
    exact ⟨rfl, rfl⟩
  | cons c rest =>
    rw [hinner] at hcs
    have hparent : p.parent = ofComponents (.root :: (c :: rest).dropLast) := by
      rw [parent, parentComponents, hcs]
      rfl
    have hsteps : ∀ d ∈ (c :: rest).dropLast, d.IsStep := fun d hd =>
      isStep_of_mem_inner (hinner ▸ List.dropLast_subset _ hd)
    obtain ⟨habs, hcomponents⟩ := components_ofComponents hsteps
    rw [hparent, hcs, place, hcomponents]
    exact ⟨habs, rfl⟩

/-- A target leads from the directory of an absolute path. -/
theorem follow_eq (hp : p.isAbsolute) (root : Path) (target : String) :
    follow root p target =
      ofPlace (walk (walk [] p.components.dropLast) (targetComponents target)) := by
  obtain ⟨habs, hplace⟩ := place_parent hp
  have hjoin := isAbsolute_join habs (Text.trim target)
  rw [follow, normalizeIn, if_pos hjoin, normalize_eq hjoin, place_join habs, hplace]
  rfl

/-- Where a target leads from a place: the last name is dropped, and the components are followed. -/
def step (place : List String) (target : String) : List String :=
  walk place.dropLast (targetComponents target)

theorem follow_ofPlace (hplace : IsPlace place) (root : Path) (target : String) :
    follow root (ofPlace place) target = ofPlace (step place target) := by
  obtain ⟨habs, hcomponents⟩ := components_ofPlace hplace
  have hdropLast : walk [] (Component.root :: place.map .name).dropLast = place.dropLast := by
    cases place with
    | nil => rfl
    | cons n rest =>
      rw [List.map_cons, List.dropLast_cons_cons, walk_root, ← List.map_cons, ← List.map_dropLast,
        walk_names, List.nil_append]
  rw [follow_eq habs, hcomponents, hdropLast, step]

theorem isPlace_step (hplace : IsPlace place) (target : String) : IsPlace (step place target) :=
  isPlace_walk_components _ fun n hn => hplace n (List.dropLast_subset _ hn)

/-- The targets lead from each place to the same place. -/
def SameStep (target target' : String) : Prop :=
  ∀ place, walk place (targetComponents target) = walk place (targetComponents target')

/-- A detour, blanks at the ends and a trailing separator do not change a step. -/
example : SameStep "types/../lib//b.raml" " ./lib/b.raml/ " := by
  have h : targetComponents "types/../lib//b.raml" =
      [.name "types", .up, .name "lib", .name "b.raml"] := rfl
  have h' : targetComponents " ./lib/b.raml/ " = [.here, .name "lib", .name "b.raml"] := rfl
  intro place
  rw [h, h']
  simp [walk, Component.move]

/-! ## Chains -/

/-- Following targets one after the other is stepping from place to place. -/
theorem foldl_follow (hplace : IsPlace place) (root : Path) (targets : List String) :
    targets.foldl (follow root) (ofPlace place) = ofPlace (targets.foldl step place) := by
  induction targets generalizing place with
  | nil => rfl
  | cons target rest ih =>
    rw [List.foldl_cons, follow_ofPlace hplace, ih (isPlace_step hplace target), List.foldl_cons]

/-- Where the last component is a name, dropping the last name of the place drops this component. -/
theorem dropLast_walk {cs : List Component} {n : String} (h : cs.getLast? = some (.name n))
    (place : List String) : (walk place cs).dropLast = walk place cs.dropLast := by
  obtain ⟨front, rfl⟩ := List.getLast?_eq_some_iff.1 h
  rw [walk_append, walk_name, List.dropLast_concat, List.dropLast_concat]

/-- A chain of targets that end in names leads where all their components lead, without the last one
of each target but the last. -/
theorem foldl_step_of_names {targets : List String} (last : String) : ∀ {cs : List Component}
    (place : List String),
    (∀ ds ∈ cs :: targets.map targetComponents, ∃ n, ds.getLast? = some (.name n)) →
    (targets ++ [last]).foldl step (walk place cs) =
      walk place ((cs :: targets.map targetComponents).flatMap List.dropLast
        ++ targetComponents last) := by
  induction targets with
  | nil =>
    intro cs place h
    obtain ⟨n, hn⟩ := h cs List.mem_cons_self
    rw [List.nil_append, List.foldl_cons, List.foldl_nil, step, dropLast_walk hn, ← walk_append]
    simp
  | cons target rest ih =>
    intro cs place h
    obtain ⟨n, hn⟩ := h cs List.mem_cons_self
    have hrest := ih (walk place cs.dropLast) fun ds hds => h ds (List.mem_cons_of_mem _ hds)
    rw [List.cons_append, List.foldl_cons, step, dropLast_walk hn, hrest, ← walk_append,
      ← List.append_assoc, ← List.flatMap_cons, ← List.map_cons]

theorem foldl_step_congr {targets targets' : List String} (h : List.Forall₂ SameStep targets targets')
    (place : List String) : targets.foldl step place = targets'.foldl step place := by
  induction h generalizing place with
  | nil => rfl
  | cons hstep _ ih =>
    have hplace := hstep place.dropLast
    rw [List.foldl_cons, List.foldl_cons, step, hplace, ih]
    rfl

/-! ## Normal forms as keys -/

/-- The normal forms of absolute paths are keys of places, and so are the paths that chains of targets
lead to. -/
structure Canonical (root p : Path) : Prop where
  isAbsolute : p.normalize.isAbsolute
  here_notMem : .here ∉ p.normalize.components
  up_notMem : .up ∉ p.normalize.components
  normalize_normalize : p.normalize.normalize = p.normalize
  /-- Each place has one key. -/
  inj : ∀ q : Path, q.isAbsolute → (p.normalize = q.normalize ↔ p.place = q.place)
  join : ∀ target, (p.join target).normalize = (p.normalize.join target).normalize
  /-- From the file that a path names, taken against the root, a chain leads to the place that is
  reached by all components in sequence, where the last name is dropped before each target. -/
  chain : ∀ (first : Path) (targets : List String),
    targets.foldl (follow root) (normalizeIn root first) =
      ofPlace (targets.foldl step (walk root.place first.components))
  /-- The same from an absolute path as it is spelled: its last component is dropped. -/
  chain_from : ∀ (target : String) (targets : List String),
    (target :: targets).foldl (follow root) p =
      ofPlace (targets.foldl step (walk (walk [] p.components.dropLast) (targetComponents target)))
  /-- As long as targets end in names, these are the components that are dropped. -/
  chain_of_names : ∀ (first : Path) (targets : List String) (last : String),
    (∀ cs ∈ first.components :: targets.map targetComponents, ∃ n, cs.getLast? = some (.name n)) →
    (targets ++ [last]).foldl (follow root) (normalizeIn root first) =
      ofPlace (walk root.place ((first.components :: targets.map targetComponents).flatMap List.dropLast
        ++ targetComponents last))
  /-- Another spelling of the steps leads to the same path. -/
  chain_congr : ∀ (first first' : Path) (targets targets' : List String),
    walk root.place first.components = walk root.place first'.components →
    List.Forall₂ SameStep targets targets' →
    targets.foldl (follow root) (normalizeIn root first) =
      targets'.foldl (follow root) (normalizeIn root first')

/-- A chain leads from a file of the root to the place that its components lead to. -/
theorem foldl_follow_normalizeIn (hroot : root.isAbsolute) (first : Path) (targets : List String) :
    targets.foldl (follow root) (normalizeIn root first) =
      ofPlace (targets.foldl step (walk root.place first.components)) := by
  rw [normalizeIn_eq hroot, foldl_follow (isPlace_walk_components first (isPlace_place root))]

/-- Normal forms of absolute paths are canonical, and so are chains of targets. -/
theorem canonical_of_isAbsolute (hroot : root.isAbsolute) (hp : p.isAbsolute) : Canonical root p where
  isAbsolute := (normalize_idem hp).1
  here_notMem := by
    rw [normalize_eq hp, (components_ofPlace (isPlace_place p)).2]
    simp
  up_notMem := by
    rw [normalize_eq hp, (components_ofPlace (isPlace_place p)).2]
    simp
  normalize_normalize := (normalize_idem hp).2
  inj _ := normalize_inj hp
  join := normalize_join hp
  chain := foldl_follow_normalizeIn hroot
  chain_from target targets := by
    have hplace : IsPlace (walk (walk [] p.components.dropLast) (targetComponents target)) :=
      isPlace_walk_components _ (isPlace_walk
        (fun n hn => isPlain_of_mem_components (List.dropLast_subset _ hn)) (List.forall_mem_nil _))
    rw [List.foldl_cons, follow_eq hp, foldl_follow hplace]
  chain_of_names first targets last h := by
    rw [foldl_follow_normalizeIn hroot, foldl_step_of_names last root.place h]
  chain_congr first first' targets targets' h hsteps := by
    rw [foldl_follow_normalizeIn hroot, foldl_follow_normalizeIn hroot, h, foldl_step_congr hsteps]

theorem canonical_of_detour :
    let root : Path := ⟨"/work/../specs/"⟩
    let p : Path := ⟨"//a/./b/../../../c.raml"⟩
    root.isAbsolute ∧ p.isAbsolute ∧ Canonical root p :=
  ⟨by decide, by decide, canonical_of_isAbsolute (by decide) (by decide)⟩

end RamlTypes.Path
