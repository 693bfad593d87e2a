import RamlTypes.Proofs.Declarations.Examples

/-!
# Where the entries of a declaration go

`Drafted` says how a draft is related to the entries that have been read into it, and
`addEntries_gives` that reading does just this: each entry goes to its place, and what it holds stays
there unless a later one replaces it under the same name.
-/

namespace RamlTypes.Declaration

section
variable (declare : Facets.Declare) (path : Path) (owner : String) (s t : Store)

/-- The draft `d` of a declaration has become the draft `e` by reading the entries `x`. -/
structure Drafted (d : Draft) (x : Sorted) (e : Draft) : Prop where
  extended : s.Extends t
  /-- An annotation is found under its name, and the last one of a name counts. -/
  annotations : ∃ uses, List.Forall₂ (ReadUse path) x.annotations uses ∧
    Dict.Merges d.shape.annotations uses e.shape.annotations
  displayName : LastOf Node.HasText x.displayName d.shape.displayName e.shape.displayName
  description : LastOf Node.HasText x.description d.shape.description e.shape.description
  required : LastOf Node.HasFlag x.required d.shape.required e.shape.required
  default : LastOf Eq x.default d.shape.default e.shape.default
  type : LastOf Eq x.type d.type e.type
  /-- The types of custom facets are found under their names, and the last one of a name counts. -/
  facetDefinitions : ∃ (sections : List (List (String × Node))) (declared : List (String × ShapeId)),
    List.Forall₂ Node.HasEntries x.facetDefinitions sections ∧
    List.Forall₂ (fun entry d => d.1 = entry.1 ∧ Facets.Stored declare id s t entry.1 entry.2 d.2)
      sections.flatten declared ∧
    Dict.Merges d.shape.facetDefinitions declared e.shape.facetDefinitions
  /-- All examples follow each other. -/
  examples : ∃ lists, List.Forall₂ (ReadExamples path owner s t) x.examples lists ∧
    e.shape.examples = d.shape.examples ++ lists.flatten
  /-- All raw facets follow each other. -/
  raw : e.raw = d.raw ++ x.raw
  /-- Nothing else has changed. -/
  rest : e.shape = { d.shape with
    displayName := e.shape.displayName, description := e.shape.description,
    required := e.shape.required, default := e.shape.default,
    facetDefinitions := e.shape.facetDefinitions, examples := e.shape.examples,
    annotations := e.shape.annotations }

end

/-! ## Entries in two parts -/

section
variable {declare : Facets.Declare} {path : Path} {owner : String} {s m t : Store}

namespace Drafted

variable {d e f : Draft} {x y : Sorted}

/-- Without any entry a draft stays as it is. -/
theorem of_none (hst : s.Extends t) (d : Draft) : Drafted declare path owner s t d .empty d where
  extended := hst
  annotations := ⟨[], .nil, .refl _⟩
  displayName := .refl _
  description := .refl _
  required := .refl _
  default := .refl _
  type := .refl _
  facetDefinitions := ⟨[], [], .nil, .nil, .refl _⟩
  examples := ⟨[], .nil, (List.append_nil _).symm⟩
  raw := (List.append_nil _).symm
  rest := rfl

/-- What is read in two parts is read as a whole. -/
theorem trans (h : Drafted declare path owner s m d x e)
    (h' : Drafted declare path owner m t e y f) :
    Drafted declare path owner s t d (x.append y) f where
  extended := h.extended.trans h'.extended
  annotations := by
    obtain ⟨uses, huses, hm⟩ := h.annotations
    obtain ⟨uses', huses', hm'⟩ := h'.annotations
    exact ⟨uses ++ uses', List.rel_append huses huses', hm.trans hm'⟩
  displayName := h.displayName.trans h'.displayName
  description := h.description.trans h'.description
  required := h.required.trans h'.required
  default := h.default.trans h'.default
  type := h.type.trans h'.type
  facetDefinitions := by
    obtain ⟨sections, declared, hs, hd, hm⟩ := h.facetDefinitions
    obtain ⟨sections', declared', hs', hd', hm'⟩ := h'.facetDefinitions
    refine ⟨sections ++ sections', declared ++ declared', List.rel_append hs hs', ?_, hm.trans hm'⟩
    rw [List.flatten_append]
    exact List.rel_append (hd.imp fun _ _ hp => hp.imp_right (·.stays h'.extended))
      (hd'.imp fun _ _ hp => hp.imp_right (.later h.extended))
  examples := by
    obtain ⟨lists, hl, he⟩ := h.examples
    obtain ⟨lists', hl', he'⟩ := h'.examples
    refine ⟨lists ++ lists', List.rel_append (hl.imp fun _ _ hp => hp.stays h'.extended)
      (hl'.imp fun _ _ hp => hp.later h.extended), ?_⟩
    rw [he', he, List.flatten_append, List.append_assoc]
  raw := by
    rw [h'.raw, h.raw, List.append_assoc]
    rfl
  rest := by rw [h'.rest, h.rest]

end Drafted

/-! ## One entry -/

variable {loadType : Path → Load Unit} {name key : String} {value : Node} {d : Draft}

section
variable (hd : Facets.Stores declare)
include hd

theorem facetDefinitions_gives (entries : List (String × Node)) : ∀ (s : Store)
    (known : Dict String ShapeId),
    (facetDefinitions ⟨path, loadType, declare⟩ known entries).Gives s fun all t => s.Extends t ∧
      ∃ declared : List (String × ShapeId), List.Forall₂ (fun entry d =>
        d.1 = entry.1 ∧ Facets.Stored declare id s t entry.1 entry.2 d.2) entries declared ∧
        Dict.Merges known declared all := by
  induction entries with
  | nil => exact fun s known => .pure ⟨.refl s, [], .nil, .refl _⟩
  | cons entry rest ih =>
    intro s known
    refine (hd.gives entry.1 entry.2).bind fun i m ⟨hsm, hi⟩ => ?_
    refine (ih m _).imp ?_ fun _ h => h
    rintro all t ⟨hmt, declared, hdeclared, hmerges⟩
    refine ⟨hsm.trans hmt, (entry.1, i) :: declared, ?_, (Dict.Merges.put _ i known).trans hmerges⟩
    exact .cons ⟨rfl, hi.stays hmt⟩ (hdeclared.imp fun _ _ h => h.imp_right (.later hsm))

/-- An entry that is no annotation goes to its place. -/
theorem addKnown_gives :
    (addKnown ⟨path, loadType, declare⟩ owner d key value).Gives s fun e t =>
      Drafted declare path owner s t d (.known key value) e := by
  have unchanged {t : Store} (hst : s.Extends t) : Drafted declare path owner s t d .empty d :=
    .of_none hst d
  have same := unchanged (.refl s)
  unfold addKnown
  dsimp only
  split
  · exact .pure { same with type := .single _ rfl }
  · exact .pure { same with type := .single _ rfl }
  · refine .check trivial fun text htext => .pure ?_
    exact { same with displayName := .single _ (Entry.hasText_of_text htext), rest := rfl }
  · refine .check trivial fun text htext => .pure ?_
    exact { same with description := .single _ (Entry.hasText_of_text htext), rest := rfl }
  · refine .check trivial fun b hb => .pure ?_
    exact { same with required := .single _ (Entry.hasFlag_of_boolean hb), rest := rfl }
  · exact .pure { same with default := .single _ rfl, rest := rfl }
  · refine .check trivial fun entries hentries => ?_
    refine (facetDefinitions_gives hd entries s _).bind fun all t ⟨hst, declared, hdeclared, hm⟩ => ?_
    exact .pure { unchanged hst with
      facetDefinitions := ⟨[entries], declared, .cons (Entry.hasEntries_of_named hentries) .nil,
        by simpa using hdeclared, hm⟩
      rest := rfl }
  · refine (readExample_gives none value).bind fun e t ⟨hst, he⟩ => .pure ?_
    exact { unchanged hst with examples := ⟨[[e]], .cons (.one he) .nil, rfl⟩, rest := rfl }
  · refine .check trivial fun entries hentries => ?_
    refine (examples_gives entries s _).bind fun all t ⟨hst, es, hes, hall⟩ => .pure ?_
    exact { unchanged hst with
      examples :=
        ⟨[es], .cons (.many (Entry.hasEntries_of_named hentries) hes) .nil, hall.trans (by simp)⟩
      rest := rfl }
  · exact .pure same
  · have hplace : Sorted.known key value = { Sorted.empty with raw := [(key, value)] } := by
      unfold Sorted.known
      split <;> simp_all
    rw [hplace]
    exact .pure { same with raw := rfl }

/-- The keys of the entries that are read are texts, and every entry goes to its place. -/
theorem addEntries_gives (pairs : List (Node × Node)) : ∀ (s : Store) (d : Draft),
    (addEntries ⟨path, loadType, declare⟩ owner d pairs).Gives s fun e t =>
      ∃ entries x, Node.Keyed pairs entries ∧ Sorted.Sorts entries x ∧
        Drafted declare path owner s t d x e := by
  induction pairs with
  | nil => exact fun s d => .pure ⟨[], _, .nil, .nil, .of_none (.refl s) d⟩
  | cons pair rest ih =>
    intro s d
    unfold addEntries
    refine .check trivial fun key hkey => ?_
    have hentry := Node.exists_entry (Entry.keyText_eq_ok hkey)
    have next {m : Store} {e : Draft} {x : Sorted} (hplace : Sorted.Places pair.2 key x)
        (h : Drafted declare path owner s m d x e) :
        (addEntries ⟨path, loadType, declare⟩ owner e rest).Gives m fun f t =>
          ∃ entries y, Node.Keyed (pair :: rest) entries ∧ Sorted.Sorts entries y ∧
            Drafted declare path owner s t d y f := by
      refine (ih m e).imp ?_ fun _ h => h
      rintro f t ⟨entries, y, hkeyed, hsorts, hrest⟩
      exact ⟨(key, pair.2) :: entries, _, .cons hentry hkeyed, .cons hplace hsorts, h.trans hrest⟩
    rcases annotationName_cases key with ⟨name, rfl, hname⟩ | ⟨hplain, hname⟩
    · rw [hname]
      refine .check trivial fun use huse => next (.annotated (Text.trims_trim name)) ?_
      exact
      { Drafted.of_none (.refl s) d with
        annotations := ⟨[(use.name, use)], .cons (readUse_of_ok huse) .nil, .put use.name use _⟩
        rest := rfl }
    · rw [hname]
      exact (addKnown_gives hd).bind fun e m he => next (.known hplain) he

end

end

end RamlTypes.Declaration
