import RamlTypes.Path

/-!
# Normal forms of paths

A place is the list of names that lead to it from the root, and an absolute path leads to a place when
its components are followed one after the other (`Path.place`). The normal form of an absolute path is
the plain spelling of its place (`Path.normalize_eq`), so two absolute paths have the same normal form
if and only if they lead to the same place (`Path.normalize_inj`), and a normal form is its own normal
form (`Path.normalizeIn_isNormal`).
-/

namespace RamlTypes

namespace Component

/-- A name that a piece of a path can be. -/
def IsPlain : Component → Prop
  | .name n => '/' ∉ n.toList ∧ n.toList ≠ [] ∧ n.toList ≠ ['.'] ∧ n.toList ≠ ['.', '.']
  | _ => False

/-- A component that can stand below the root of an absolute path: a plain name, or a step upwards. -/
def IsStep (c : Component) : Prop := c = .up ∨ c.IsPlain

/-- Where a component leads from a place. There is nothing above the root. -/
def move (place : List String) : Component → List String
  | .root => []
  | .here => place
  | .up => place.dropLast
  | .name n => place ++ [n]

end Component

namespace Text

/-- There is at least one piece, if an empty one. -/
theorem splitAt_ne_nil (sep : Char) (cs : List Char) : splitAt sep cs ≠ [] := by
  cases cs with
  | nil => exact List.cons_ne_nil _ _
  | cons c rest =>
    rw [splitAt]
    split
    · exact List.cons_ne_nil _ _
    · split <;> exact List.cons_ne_nil _ _

/-- No piece contains the separator. -/
theorem not_mem_of_mem_splitAt {sep : Char} {cs piece : List Char} (h : piece ∈ splitAt sep cs) :
    sep ∉ piece := by
  induction cs generalizing piece with
  | nil =>
    rw [List.mem_singleton.1 h]
    exact List.not_mem_nil
  | cons c rest ih =>
    rw [splitAt] at h
    split at h
    · rcases List.mem_cons.1 h with rfl | h
      · exact List.not_mem_nil
      · exact ih h
    · next hc =>
      split at h
      · rw [List.mem_singleton.1 h, List.mem_singleton]
        exact fun hs => hc hs.symm
      · next first pieces hsplit =>
        rw [hsplit] at ih
        rcases List.mem_cons.1 h with rfl | h
        · rw [List.mem_cons, not_or]
          exact ⟨fun hs => hc hs.symm, ih List.mem_cons_self⟩
        · exact ih (List.mem_cons_of_mem _ h)

/-- A separator ends the last piece before it. -/
theorem splitAt_append (sep : Char) (front rest : List Char) :
    splitAt sep (front ++ sep :: rest) = splitAt sep front ++ splitAt sep rest := by
  induction front with
  | nil => simp [splitAt]
  | cons c cs ih =>
    rw [List.cons_append, splitAt, splitAt, ih]
    split
    · rfl
    · cases hcs : splitAt sep cs with
      | nil => exact absurd hcs (splitAt_ne_nil sep cs)
      | cons piece pieces => rfl

/-- What has no separator is one piece. -/
theorem splitAt_of_not_mem {sep : Char} {piece : List Char} (h : sep ∉ piece) :
    splitAt sep piece = [piece] := by
  induction piece with
  | nil => rfl
  | cons c cs ih =>
    rw [List.mem_cons, not_or] at h
    rw [splitAt, if_neg (Ne.symm h.1), ih h.2]

/-- Pieces that are joined by separators are found again. -/
theorem splitAt_intercalate {sep : Char} (pieces : List (List Char)) (hne : pieces ≠ [])
    (h : ∀ piece ∈ pieces, sep ∉ piece) : splitAt sep ([sep].intercalate pieces) = pieces := by
  induction pieces with
  | nil => exact absurd rfl hne
  | cons piece rest ih =>
    have hp := h piece List.mem_cons_self
    cases rest with
    | nil => rw [List.intercalate_singleton, splitAt_of_not_mem hp]
    | cons next rest =>
      have hrest := ih (List.cons_ne_nil _ _) fun q hq => h q (List.mem_cons_of_mem _ hq)
      rw [List.intercalate_cons_cons, List.append_assoc, List.singleton_append, splitAt_append,
        splitAt_of_not_mem hp, hrest, List.singleton_append]

end Text

namespace Path

/-! ## Components and their spelling -/

/-- What a piece of a path is read as. -/
theorem isStep_of_component {piece : List Char} (hp : '/' ∉ piece) {c : Component}
    (h : component? piece = some c) : c.IsStep := by
  rw [component?] at h
  split at h
  · cases h
  · next hne =>
    split at h
    · cases h
      exact .inl rfl
    · next hup =>
      cases h
      rw [not_or] at hne
      refine .inr ?_
      rw [Component.IsPlain, String.toList_ofList]
      exact ⟨hp, hne.1, hne.2, hup⟩

/-- The components of the pieces of a path. -/
def inner (p : Path) : List Component :=
  (Text.splitAt '/' p.text.toList).filterMap component?

/-- Between the ends of a path there are steps only. -/
theorem isStep_of_mem_inner {p : Path} {c : Component} (h : c ∈ p.inner) : c.IsStep := by
  obtain ⟨piece, hmem, hpiece⟩ := List.mem_filterMap.1 h
  exact isStep_of_component (Text.not_mem_of_mem_splitAt hmem) hpiece

/-- An absolute path begins with a slash. -/
theorem exists_of_isAbsolute {p : Path} (h : p.isAbsolute) : ∃ rest, p.text.toList = '/' :: rest := by
  rw [isAbsolute, beq_iff_eq, List.head?_eq_some_iff] at h
  exact h

/-- An absolute path is the root followed by its pieces. -/
theorem components_of_isAbsolute {p : Path} (h : p.isAbsolute) : p.components = .root :: p.inner := by
  obtain ⟨rest, hrest⟩ := exists_of_isAbsolute h
  rw [components, h, hrest, inner, hrest]
  simp [Text.splitAt]

/-- A step is read from its own text. -/
theorem component_text {c : Component} (h : c.IsStep) :
    '/' ∉ c.text.toList ∧ component? c.text.toList = some c := by
  rcases h with rfl | h
  · exact ⟨by decide, rfl⟩
  · cases c with
    | name n =>
      obtain ⟨hsep, hne, hhere, hup⟩ := h
      refine ⟨hsep, ?_⟩
      rw [Component.text, component?, if_neg (not_or.2 ⟨hne, hhere⟩), if_neg hup,
        String.ofList_toList]
    | _ => cases h

/-- Steps that are written out are read back. -/
theorem filterMap_component_text {cs : List Component} (h : ∀ c ∈ cs, c.IsStep) :
    (cs.map (·.text.toList)).filterMap component? = cs := by
  induction cs with
  | nil => rfl
  | cons c rest ih =>
    rw [List.map_cons, List.filterMap_cons_some (component_text (h c List.mem_cons_self)).2,
      ih fun d hd => h d (List.mem_cons_of_mem _ hd)]

/-- The spelling of a root followed by steps is read as such. -/
theorem components_ofComponents {cs : List Component} (h : ∀ c ∈ cs, c.IsStep) :
    (ofComponents (.root :: cs)).isAbsolute ∧
      (ofComponents (.root :: cs)).components = .root :: cs := by
  cases cs with
  | nil => exact ⟨rfl, rfl⟩
  | cons c rest =>
    have htext : (ofComponents (.root :: c :: rest)).text.toList =
        ['/'].intercalate ([] :: (c :: rest).map (·.text.toList)) := by
      rw [ofComponents, String.toList_intercalate, List.map_cons, List.map_cons, List.map_map]
      · rfl
      · exact nofun
    have hpieces : Text.splitAt '/' (ofComponents (.root :: c :: rest)).text.toList =
        [] :: (c :: rest).map (·.text.toList) := by
      rw [htext]
      refine Text.splitAt_intercalate _ (List.cons_ne_nil _ _) fun piece hp => ?_
      rcases List.mem_cons.1 hp with rfl | hp
      · exact List.not_mem_nil
      · obtain ⟨d, hd, rfl⟩ := List.mem_map.1 hp
        exact (component_text (h d hd)).1
    have habs : (ofComponents (.root :: c :: rest)).isAbsolute := by
      rw [isAbsolute, htext]
      rfl
    refine ⟨habs, ?_⟩
    rw [components_of_isAbsolute habs, inner, hpieces, List.filterMap_cons_none rfl,
      filterMap_component_text h]

/-! ## Places -/

/-- Where components lead from a place, one after the other. -/
def walk (place : List String) (cs : List Component) : List String :=
  cs.foldl Component.move place

/-- The place of an absolute path. -/
def place (p : Path) : List String := walk [] p.components

/-- The plain spelling of a place. -/
def ofPlace (place : List String) : Path := ofComponents (.root :: place.map .name)

/-- Every name on the way to a place can be a piece of a path. -/
def IsPlace (place : List String) : Prop := ∀ n ∈ place, (Component.name n).IsPlain

/-- A path that goes on is walked from where the first part leads. -/
theorem walk_append (place : List String) (cs ds : List Component) :
    walk place (cs ++ ds) = walk (walk place cs) ds :=
  List.foldl_append

/-- A name leads one level down. -/
theorem walk_name (place : List String) (n : String) : walk place [.name n] = place ++ [n] := rfl

/-- The root leads back to the beginning. -/
theorem walk_root (place : List String) (cs : List Component) : walk place (.root :: cs) = walk [] cs :=
  rfl

/-- The root is left, and what is above the root is the root. -/
theorem place_of_isAbsolute {p : Path} (h : p.isAbsolute) (start : List String) :
    walk start p.components = p.place := by
  rw [place, components_of_isAbsolute h, walk_root, walk_root]

/-- Each name that is read from a path is plain. -/
theorem isPlain_of_mem_components {p : Path} {n : String} (h : .name n ∈ p.components) :
    (Component.name n).IsPlain := by
  have hinner : .name n ∈ p.inner := by
    rw [components] at h
    split at h
    · exact (List.mem_cons.1 h).resolve_left nofun
    · split at h
      · exact (List.mem_cons.1 h).resolve_left nofun
      · exact h
  exact (isStep_of_mem_inner hinner).resolve_left nofun

/-- Plain names lead to places. -/
theorem isPlace_walk {cs : List Component} (hcs : ∀ n, .name n ∈ cs → (Component.name n).IsPlain)
    {place : List String} (h : IsPlace place) : IsPlace (walk place cs) := by
  induction cs generalizing place with
  | nil => exact h
  | cons c rest ih =>
    refine ih (fun n hn => hcs n (List.mem_cons_of_mem _ hn)) ?_
    cases c with
    | root => exact List.forall_mem_nil _
    | here => exact h
    | up => exact fun n hn => h n (List.dropLast_subset _ hn)
    | name n =>
      intro m hm
      rcases List.mem_append.1 hm with hm | hm
      · exact h m hm
      · rw [List.mem_singleton.1 hm]
        exact hcs n List.mem_cons_self

/-- The components of a path lead from places to places. -/
theorem isPlace_walk_components (p : Path) {place : List String} (h : IsPlace place) :
    IsPlace (walk place p.components) :=
  isPlace_walk (fun _ => isPlain_of_mem_components) h

/-- Where a path leads is a place. -/
theorem isPlace_place (p : Path) : IsPlace p.place :=
  isPlace_walk_components p (List.forall_mem_nil _)

/-- Names lead down one after the other. -/
theorem walk_names (place names : List String) : walk place (names.map .name) = place ++ names := by
  induction names generalizing place with
  | nil => exact (List.append_nil place).symm
  | cons n rest ih =>
    rw [List.map_cons, walk, List.foldl_cons]
    exact (ih (place ++ [n])).trans (List.append_assoc ..)

/-- The spelling of a place is absolute and leads to the place, by nothing but names. -/
theorem components_ofPlace {place : List String} (h : IsPlace place) :
    (ofPlace place).isAbsolute ∧ (ofPlace place).components = .root :: place.map .name := by
  refine components_ofComponents fun c hc => ?_
  obtain ⟨n, hn, rfl⟩ := List.mem_map.1 hc
  exact .inr (h n hn)

/-- The path of a place leads there. -/
theorem place_ofPlace {place : List String} (h : IsPlace place) : (ofPlace place).place = place := by
  rw [Path.place, (components_ofPlace h).2, walk_root, walk_names, List.nil_append]

/-! ## Normal forms -/

/-- A normal form grows and shrinks with the place. -/
theorem foldComponent_names (place : List String) (c : Component) :
    foldComponent (.root :: place.map .name) c = .root :: (c.move place).map .name := by
  cases c with
  | root => rfl
  | here => rfl
  | up =>
    cases place with
    | nil => rfl
    | cons n rest =>
      rw [Component.move, List.map_dropLast]
      rfl
  | name n =>
    rw [Component.move, List.map_append]
    rfl

/-- The program folds the components as they are walked, with the place as what it holds. -/
theorem foldl_foldComponent_names (place : List String) (cs : List Component) :
    cs.foldl foldComponent (.root :: place.map .name) = .root :: (walk place cs).map .name := by
  induction cs generalizing place with
  | nil => rfl
  | cons c rest ih =>
    rw [List.foldl_cons, foldComponent_names, ih]
    rfl

/-- The normal form of an absolute path is the spelling of its place. -/
theorem normalize_eq {p : Path} (h : p.isAbsolute) : p.normalize = ofPlace p.place := by
  rw [normalize, normalComponents, place, components_of_isAbsolute h, List.foldl_cons, walk_root]
  exact congrArg ofComponents (foldl_foldComponent_names [] p.inner)

/-- The normal form of an absolute path leads to the same place. -/
theorem place_normalize {p : Path} (h : p.isAbsolute) : p.normalize.place = p.place := by
  rw [normalize_eq h, place_ofPlace (isPlace_place p)]

/-- The normal form of an absolute path is its own normal form. -/
theorem normalize_idem {p : Path} (h : p.isAbsolute) :
    p.normalize.isAbsolute ∧ p.normalize.normalize = p.normalize := by
  have habs : p.normalize.isAbsolute := by
    rw [normalize_eq h]
    exact (components_ofPlace (isPlace_place p)).1
  refine ⟨habs, ?_⟩
  rw [normalize_eq habs, place_normalize h, ← normalize_eq h]

/-- Absolute paths have the same normal form if and only if they lead to the same place. -/
theorem normalize_inj {p q : Path} (hp : p.isAbsolute) (hq : q.isAbsolute) :
    p.normalize = q.normalize ↔ p.place = q.place := by
  constructor
  · intro h
    rw [← place_normalize hp, h, place_normalize hq]
  · intro h
    rw [normalize_eq hp, h, normalize_eq hq]

/-- A path that is its own normal form. -/
def IsNormal (p root : Path) : Prop := normalizeIn root p = p

variable {root : Path} (h : root.isAbsolute)
include h

/-- A text that is taken against an absolute path names an absolute place. -/
theorem isAbsolute_join (target : String) : (root.join target).isAbsolute := by
  rw [join]
  split
  · next hc =>
    refine hc.resolve_right fun he => ?_
    rw [isAbsolute, he] at h
    cases h
  · obtain ⟨rest, hrest⟩ := exists_of_isAbsolute h
    split <;> rw [isAbsolute] <;> simp [String.toList_append, hrest]

/-- The normal form of a path is its own normal form. -/
theorem normalizeIn_isNormal (p : Path) : (normalizeIn root p).IsNormal root := by
  have habs (q : Path) (hq : q.isAbsolute) : q.normalize.IsNormal root := by
    obtain ⟨ha, hn⟩ := normalize_idem hq
    rw [IsNormal, normalizeIn, if_pos ha, hn]
  rw [normalizeIn]
  split
  · next hp => exact habs p hp
  · exact habs _ (isAbsolute_join h _)

/-- The target of a reference is in normal form. -/
theorem follow_isNormal (source : Path) (target : String) :
    (follow root source target).IsNormal root :=
  normalizeIn_isNormal h _

/-- A normal path is determined by its components. -/
theorem IsNormal.eq_of_components {p q : Path} (hp : p.IsNormal root) (hq : q.IsNormal root)
    (hcomponents : p.components = q.components) : p = q := by
  have normalize_eq {r : Path} (hr : r.IsNormal root) : r.normalize = r := by
    have habs : r.isAbsolute := by
      rw [← show normalizeIn root r = r from hr, normalizeIn]
      split
      · next ha => exact (normalize_idem ha).1
      · exact (normalize_idem (isAbsolute_join h _)).1
    rwa [IsNormal, normalizeIn, if_pos habs] at hr
  rw [← normalize_eq hp, ← normalize_eq hq, normalize, normalize, hcomponents]

end Path

end RamlTypes
