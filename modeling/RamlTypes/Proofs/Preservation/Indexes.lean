import RamlTypes.Proofs.Preservation.Requests

/-!
# What is noted of a loaded file lasts

Whatever is requested, a file that is cached stays cached, and the names that it declares and the
libraries that it uses stay the same (`Session.sameIndexes_run`).
-/

namespace RamlTypes

namespace Store

variable {b s t : Store}

theorem SameIndexes.refl (s : Store) : s.SameIndexes s :=
  ⟨fun _ _ => rfl, fun _ _ => rfl, fun _ _ => rfl, fun _ _ => rfl⟩

theorem SameIndexes.trans (h : b.SameIndexes s) (h' : s.SameIndexes t) : b.SameIndexes t := by
  have later {k : PathKey} (hk : Dict.has k b.fragments) : Dict.has k s.fragments := by
    rwa [Dict.has, h.fragments k hk]
  exact ⟨fun k hk => (h'.fragments k (later hk)).trans (h.fragments k hk),
    fun k hk => (h'.named k (later hk)).trans (h.named k hk),
    fun k hk => (h'.annotationTypes k (later hk)).trans (h.annotationTypes k hk),
    fun k hk => (h'.uses k (later hk)).trans (h.uses k hk)⟩

/-- A name continues to denote the same shape as long as the shapes keep their names and what is noted
of its file stays. -/
theorem lookup?_of_eq (hsettings : t.settings = s.settings)
    (hnames : ∀ i name, s.nameOf? i = some name → t.nameOf? i = some name) {p : Path} {name : String}
    {j : ShapeId}
    (hnamed : Dict.find? (s.normalize p).key t.named = Dict.find? (s.normalize p).key s.named)
    (hfragments : Dict.find? (s.normalize p).key t.fragments = Dict.find? (s.normalize p).key s.fragments)
    (hj : s.lookup? p name = some j) : t.lookup? p name = some j := by
  have hpath : t.normalize p = s.normalize p := by rw [normalize, normalize, hsettings]
  rw [Store.lookup?] at hj ⊢
  rw [hpath, hnamed, hfragments]
  rcases hfind : (Dict.find? (s.normalize p).key s.named).bind (Dict.find? name) with _ | i
  · rw [hfind] at hj
    rcases hf : Dict.find? (s.normalize p).key s.fragments with _ | (l | d)
    all_goals rw [hf] at hj
    · cases hj
    · cases hj
    · dsimp only at hj ⊢
      split at hj
      · next hname => rwa [if_pos (hnames _ _ hname)]
      · cases hj
  · rwa [hfind] at hj

/-- A name of a cached file continues to denote the same shape as long as the shapes keep their
names. -/
theorem SameIndexes.lookup? (h : s.SameIndexes t) (hsettings : t.settings = s.settings)
    (hnames : ∀ i name, s.nameOf? i = some name → t.nameOf? i = some name) {p : Path} {name : String}
    {j : ShapeId} (hp : Dict.has (s.normalize p).key s.fragments) (hj : s.lookup? p name = some j) :
    t.lookup? p name = some j :=
  lookup?_of_eq hsettings hnames (h.named _ hp) (h.fragments _ hp) hj

/-- Shapes keep their names. -/
theorem Grows.nameOf? (h : s.Grows t) (i : ShapeId) (name : String) (hi : s.nameOf? i = some name) :
    t.nameOf? i = some name := by
  obtain ⟨a, ha, rfl⟩ := Option.map_eq_some_iff.1 hi
  obtain ⟨c, hc, hac, -⟩ := h.shapes i a ha
  exact Option.map_eq_some_iff.2 ⟨c, hc, hac.name_eq⟩

/-- Taking back a load that began in `b` leaves what is noted of the files of `b`. -/
theorem SameIndexes.rollback (h : b.SameIndexes s) : b.SameIndexes (s.rollback b) := by
  have known {α : Type} (d : Dict PathKey α) {k : PathKey} (hk : Dict.has k b.fragments) :
      Dict.find? k (keepKnown (Dict.keys b.fragments) d) = Dict.find? k d := by
    rw [find?_keepKnown, if_pos (Dict.mem_keys.2 hk)]
  exact ⟨fun k hk => (known _ hk).trans (h.fragments k hk),
    fun k hk => (known _ hk).trans (h.named k hk),
    fun k hk => (known _ hk).trans (h.annotationTypes k hk),
    fun k hk => (known _ hk).trans (h.uses k hk)⟩

end Store

namespace Session

open Store

variable {s : Store}

/-- The work of a request keeps what is noted of the files that were loaded before. -/
theorem goes_work (h : s.Coherent) (r : Request) : Goes s r.work := by
  have hphase : Phase.declaring ≠ .binding := nofun
  have hloads : (s.since (fun _ => True) .declaring).Loads _ := since_loads hphase
  have forget {α : Type} {x : Load α} (hx : Goes s x) : Goes s (do let _ ← x : Load Unit) :=
    hx.bind fun _ _ ht => .pure ht
  cases r with
  | load p =>
    have hload : Goes s (do let f ← Load.fragment p; Load.resolveIfEager; return f) := by
      refine (h.load s.mentions_true p).imp ?_ fun _ ht => ht
      rintro _ t ⟨w, ht, -⟩
      exact ⟨w, ht⟩
    have hgoes := forget hload
    simp only [bind_assoc, pure_bind, bind_pure_unit] at hgoes
    exact hgoes
  | parse p => exact forget (goes_of_agree h (hloads.fragment _ p))
  | library p =>
    have hlibrary := hloads.withLoaders (.start s) fun _ hl => hloads.libraryWith hl _ p
    exact forget (goes_of_agree h hlibrary)
  | dataType p => exact forget (goes_of_agree h (hloads.dataType _ p))
  | resolve i => exact goes_resolve h i
  | resolveNamed p name => exact forget (goes_resolveNamed h p name)
  | resolveAll => exact goes_resolveAll h
  | declare p name node =>
    have hdeclare := hloads.declare (since_declares hphase p) (.start s) (.inl trivial) name node
    exact forget (goes_of_agree h hdeclare)
  | write p text => exact .pure ⟨_, h.underway s.mentions_true⟩

theorem sameIndexes_step (h : s.Coherent) (r : Request) : s.SameIndexes (step s r).2 := by
  have hgoes := goes_work h r
  have houtcome := outcome_step s r
  generalize (step s r).1 = a at houtcome
  generalize (step s r).2 = t at houtcome ⊢
  cases houtcome with
  | written p text => exact { SameIndexes.refl s with }
  | served hw _ =>
    obtain ⟨w, ht⟩ := hgoes.of_ok hw
    exact ht.same
  | stopped hw _ =>
    obtain ⟨w, ht⟩ := hgoes.of_error hw
    exact ht.same
  | undone hw _ =>
    obtain ⟨w, ht⟩ := hgoes.of_error hw
    exact ht.same.rollback

theorem sameIndexes_run (rs : List Request) : ∀ {s : Store}, s.Coherent → s.SameIndexes (run s rs) := by
  induction rs with
  | nil => exact fun {s} _ => .refl s
  | cons r rest ih =>
    exact fun h => (sameIndexes_step h r).trans (ih (keeps_step h r).coherent)

end Session

end RamlTypes
