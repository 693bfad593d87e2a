import RamlTypes.Proofs.Equations.Sessions
import RamlTypes.Proofs.Lifecycle.Ancestry
import RamlTypes.Proofs.Lifecycle.States
import RamlTypes.Proofs.Preservation.Indexes

/-!
# Dependencies in a circle

An unresolved shape depends on the shape that its name denotes, on its parents, or on the shape of
the data type that it includes. It inherits from these when it is resolved. So what leads to a circle
of such dependencies is never resolved (`Session.descends_run`). Names can be declared anew only in
files that are not loaded, so dependencies between loaded files last.
-/

namespace RamlTypes

open Relation (TransGen ReflTransGen)

namespace Store

/-- The shape `i` is unresolved, and the shape `j` has to be resolved before it. -/
inductive DependsOn (s : Store) (i j : ShapeId) : Prop
  | reference {a : Shape} {p : Pending} {text : String} {library : Option String} {name : String}
      (shape : s.shapes[i]? = some a) (pending : a.body = .unknown p)
      (declared : p.declared = .expression text)
      (parsed : Expr.parse text = .ok (.ref library name))
      (denoted : s.denoted? a.location library name = some j)
  | parent {a : Shape} {p : Pending} (shape : s.shapes[i]? = some a)
      (pending : a.body = .unknown p) (declared : p.declared = .parents)
      (parent : j ∈ a.inherits)
  | link {a : Shape} {p : Pending} {path : Path} {d : DataType} (shape : s.shapes[i]? = some a)
      (pending : a.body = .unknown p) (declared : p.declared = .link)
      (linked : a.link = some path) (cached : s.fragment? path = some (.dataType d))
      (target : d.shape = j)

variable {b m s t : Store} {i j : ShapeId}

/-- Only shapes that wait depend on others. -/
theorem DependsOn.exists_shape (h : s.DependsOn i j) :
    ∃ a, s.shapes[i]? = some a ∧ a.isUnknown := by
  cases h with
  | reference shape pending _ _ _ | parent shape pending _ _ | link shape pending _ _ _ _ =>
    exact ⟨_, shape, by rw [Shape.isUnknown, pending]; rfl⟩

/-- The shapes that have to be resolved before an unresolved shape. -/
def dependencies (s : Store) (i : ShapeId) : List ShapeId :=
  match s.shapes[i]? with
  | none => []
  | some a =>
    match a.body with
    | .unknown ⟨.parents, _⟩ => a.inherits
    | .unknown ⟨.link, _⟩ =>
      match a.link.bind s.fragment? with
      | some (.dataType d) => [d.shape]
      | _ => []
    | .unknown ⟨.expression text, _⟩ =>
      match Expr.parse text with
      | .ok (.ref library name) => (s.denoted? a.location library name).toList
      | _ => []
    | _ => []

/-- Each shape in the list is one that the shape depends on. -/
theorem dependsOn_of_mem (h : j ∈ s.dependencies i) : s.DependsOn i j := by
  rw [dependencies] at h
  split at h
  · cases h
  · next a ha =>
    split at h
    · next facets hbody => exact .parent ha hbody rfl h
    · next facets hbody =>
      split at h
      · next d hf =>
        obtain ⟨path, hl, hf⟩ := Option.bind_eq_some_iff.1 hf
        exact .link ha hbody rfl hl hf (List.mem_singleton.1 h).symm
      · cases h
    · next text facets hbody =>
      split at h
      · next library name he => exact .reference ha hbody rfl he (Option.mem_toList.1 h)
      · cases h
    · cases h

/-- A data type that is cached is not loaded again. -/
theorem dataType_of_cached {path : Path} {d : DataType} (h : s.fragment? path = some (.dataType d)) :
    Load.dataType path s = (.ok d, s) := by
  rw [fragment?] at h
  rw [Load.dataType, Load.withLoaders, Load.ask_bind, Fragment.dataTypeWith,
    Fragment.fromCache_apply, h]
  rfl

/-- A shape inherits what it depended on when its resolution began. -/
theorem Solves.mem_inherits {e : Evaluation} {c : Shape}
    (h : e.start.Solves t e.id e.shape e.pending c) (hd : e.start.DependsOn e.id j) :
    j ∈ c.inherits := by
  obtain ⟨hshape, hpending, -⟩ := waits_of_claim e.claimed
  cases hd with
  | reference shape pending declared parsed denoted =>
    cases hshape.symm.trans shape
    rw [pending] at hpending
    cases hpending
    cases h with
    | reference hp he hj hinherits _ _ =>
      cases hp.symm.trans declared
      cases he.symm.trans parsed
      cases hj.symm.trans denoted
      exact hinherits ▸ List.mem_singleton_self _
    | expression hp he _ hbody _ =>
      cases hp.symm.trans declared
      cases he.symm.trans parsed
      cases hbody
    | parents hp _ _ _ => cases hp.symm.trans declared
    | link hp _ _ _ _ _ => cases hp.symm.trans declared
  | parent shape pending declared parent =>
    cases hshape.symm.trans shape
    rw [pending] at hpending
    cases hpending
    cases h with
    | reference hp _ _ _ _ _ | expression hp _ _ _ _ | link hp _ _ _ _ _ =>
      cases hp.symm.trans declared
    | parents _ hinherits _ _ => exact hinherits ▸ parent
  | link shape pending declared linked cached target =>
    cases hshape.symm.trans shape
    rw [pending] at hpending
    cases hpending
    cases h with
    | reference hp _ _ _ _ _ | expression hp _ _ _ _ | parents hp _ _ _ =>
      cases hp.symm.trans declared
    | link _ hl hloaded hinherits _ _ =>
      cases hl.symm.trans linked
      have hcached : (e.start.beginResolution e.id).fragment? _ = some (.dataType _) := cached
      cases hloaded.symm.trans (dataType_of_cached hcached)
      exact hinherits ▸ List.mem_singleton.2 target.symm

/-! ## Dependencies between loaded files -/

/-- The store `b` is an earlier state of `s`: its shapes are as they were, or they are resolved. -/
structure Precedes (b s : Store) : Prop where
  settings : s.settings = b.settings
  shapes : ∀ (i : ShapeId) (a : Shape), b.shapes[i]? = some a → ∃ c, s.shapes[i]? = some c ∧
    a.Grows c ∧ (a.Kept c ∨ c.isUnknown = false)

/-- A store precedes itself. -/
theorem Precedes.refl (s : Store) : s.Precedes s :=
  ⟨rfl, fun _ a ha => ⟨a, ha, .refl a, .inl (.refl a)⟩⟩

/-- Shapes keep their names. -/
theorem Precedes.nameOf? (h : b.Precedes s) (i : ShapeId) (name : String)
    (hi : b.nameOf? i = some name) : s.nameOf? i = some name := by
  obtain ⟨a, ha, rfl⟩ := Option.map_eq_some_iff.1 hi
  obtain ⟨c, hc, hac, -⟩ := h.shapes i a ha
  exact Option.map_eq_some_iff.2 ⟨c, hc, hac.name_eq⟩

/-- A change that leaves a shape in its place keeps the order. -/
theorem Precedes.mapShape (h : b.Precedes s) (i : ShapeId) {f : Shape → Shape}
    (hf : ∀ a : Shape, a.Stays (f a)) : b.Precedes (s.mapShape i f) where
  settings := h.settings
  shapes j a ha := by
    obtain ⟨c, hc, hac, hkeep⟩ := h.shapes j a ha
    rw [getElem?_mapShape]
    split
    · refine ⟨f c, by rw [hc]; rfl, hac.trans (hf c).grows, ?_⟩
      exact hkeep.imp (·.trans (hf c).kept) (hf c).kept.isUnknown.trans
    · exact ⟨c, hc, hac, hkeep⟩

/-- Loads keep the order. -/
theorem keptByLoading_precedes (b : Store) : KeptByLoading b.Precedes := by
  refine .of_shapes (fun _ h => { h with }) (fun {s} a _ h => ⟨h.settings, fun i d hd => ?_⟩)
    fun i _ hf h => h.mapShape i hf
  obtain ⟨c, hc, hdc⟩ := h.shapes i d hd
  exact ⟨c, getElem?_addShape_of_some hc, hdc⟩

/-- So does the writing of a result. -/
theorem Precedes.written {e : Evaluation} (hsound : e.start.Sound e.id) (h : b.Precedes e.stop) :
    b.Precedes (written e) where
  settings := h.settings
  shapes j a ha := by
    obtain ⟨c, hc, hac, hkeep⟩ := h.shapes j a ha
    by_cases hj : e.id = j
    · subst hj
      obtain ⟨d, hd, hw⟩ := hsound.exists_written
      refine ⟨d, hd, ?_, .inr hw.concrete⟩
      have hd' : (e.stop.endResolution e.id).shapes[e.id]? = some c := hc
      rw [Store.written, writeResolution, getElem?_mapShape, if_pos rfl, hd', Option.map_some,
        Option.some.injEq] at hd
      exact hac.trans (hd ▸ ⟨rfl, List.prefix_append _ _⟩)
    · refine ⟨c, ?_, hac, hkeep⟩
      rw [Store.written, writeResolution, getElem?_mapShape, if_neg hj]
      exact hc

/-- So do all runs, also those that end with an error. -/
theorem keptByRuns_precedes (b : Store) : KeptByRuns b.Precedes b.Precedes :=
  (keptByLoading_precedes b).keptByRuns (fun _ _ h => { h with }) (fun _ hs _ h => h.written hs)
    (fun _ _ _ h => { h with }) fun h => { h with }

/-- The file of a shape is loaded, and so are the libraries that it uses. -/
structure IsLoaded (s : Store) (a : Shape) : Prop where
  file : Dict.has a.location.key s.fragments
  names : Dict.has (s.normalize a.location).key s.fragments
  libraries : ∀ uses name path, s.usesOf? a.location = some uses →
    Dict.find? name uses = some path → Dict.has (s.normalize path).key s.fragments

section
variable (hsame : s.SameIndexes m) (hprecedes : s.Precedes m)
include hsame hprecedes

/-- A dependency of a shape in a loaded file lasts until the shape is resolved. -/
theorem DependsOn.later (h : s.DependsOn i j) {a : Shape}
    (ha : s.shapes[i]? = some a) (hloaded : s.IsLoaded a)
    (hwaits : ∃ c, m.shapes[i]? = some c ∧ c.isUnknown) : m.DependsOn i j := by
  obtain ⟨c, hc, hgrows, hkeep⟩ := hprecedes.shapes i a ha
  obtain ⟨c', hc', hu⟩ := hwaits
  cases hc.symm.trans hc'
  have hkept : a.Kept c := hkeep.resolve_right fun hr => by
    rw [hu] at hr
    cases hr
  have hlater {p : Path} (hp : Dict.has (s.normalize p).key s.fragments) {name : String}
      {j : ShapeId} (h : s.lookup? p name = some j) : m.lookup? p name = some j :=
    hsame.lookup? hprecedes.settings hprecedes.nameOf? hp h
  cases h with
  | reference shape pending declared parsed denoted =>
    cases ha.symm.trans shape
    refine .reference hc (hkept.body ▸ pending) declared parsed ?_
    rw [hgrows.location_eq]
    rename_i library name
    cases library with
    | none => exact hlater hloaded.names denoted
    | some l =>
      obtain ⟨q, hq, hj⟩ := Option.bind_eq_some_iff.1 denoted
      obtain ⟨uses, huses, hfind⟩ := Option.bind_eq_some_iff.1 hq
      have huses' : m.usesOf? a.location = some uses := (hsame.uses _ hloaded.file).trans huses
      refine Option.bind_eq_some_iff.2 ⟨q, Option.bind_eq_some_iff.2 ⟨uses, huses', hfind⟩, ?_⟩
      exact hlater (hloaded.libraries _ _ _ huses hfind) hj
  | parent shape pending declared parent =>
    cases ha.symm.trans shape
    exact .parent hc (hkept.body ▸ pending) declared (hkept.inherits ▸ parent)
  | @link _ _ path d shape pending declared linked cached target =>
    cases ha.symm.trans shape
    refine .link hc (hkept.body ▸ pending) declared (hgrows.link_eq.trans linked) ?_ target
    have hpath : m.normalize path = s.normalize path := by
      rw [normalize, normalize, hprecedes.settings]
    rw [fragment?] at cached ⊢
    rw [hpath, hsame.fragments _ (Dict.has_iff.2 ⟨_, cached⟩), cached]

end

end Store

namespace Session

open Store

variable {s : Store}

/-- One request keeps the order. -/
theorem precedes_step {b : Store} (hs : s.Coherent) (h : b.Precedes s) (r : Request) :
    b.Precedes (step s r).2 :=
  holds_step (keptByRuns_precedes b) hs h (fun _ _ ht => { ht with }) (fun _ => { h with }) r

/-- By induction, all requests keep it. -/
theorem precedes_run (rs : List Request) : ∀ {b s : Store}, s.Coherent → b.Precedes s →
    b.Precedes (run s rs) := by
  induction rs with
  | nil => exact fun _ h => h
  | cons r rest ih => exact fun hs h => ih (keeps_step hs r).coherent (precedes_step hs h r)

/-- The shape `i` depends on the shape `j` in the store `m`, and also whenever one of the evaluations
begins to resolve it. -/
structure Lasting (m : Store) (T : Evaluation → Prop) (i j : ShapeId) : Prop where
  now : m.DependsOn i j
  later : ∀ e, T e → e.id = i → e.start.DependsOn i j

/-- The session that makes the requests `rs` of the store `s` comes from the store `m` to the store `u`,
and makes the evaluations `T` on the way: with some of the requests, with an eager load when its files
have been read, or with a call for a shape. -/
inductive Span (s : Store) (rs : List Request) : Store → (Evaluation → Prop) → Store → Prop
  | requests {before mid after : List Request} (split : rs = before ++ mid ++ after) :
      Span s rs (run s before) (Evaluates (run s before) mid) (run s (before ++ mid))
  | load {before after : List Request} {p : Path} {f : Fragment} {m : Store}
      (split : rs = before ++ .load p :: after)
      (loaded : Load.fragment p (run s before) = (.ok f, m)) (eager : m.settings.eagerResolution) :
      Span s rs m (fun e => ∃ c, Call.StartsDrainAll m c ∧ e.Below c)
        (step (run s before) (.load p)).2
  | call {before after : List Request} {r : Request} {c d : Call} (split : rs = before ++ r :: after)
      (starts : r.Starts (run s before) c) (makes : ReflTransGen Call.Makes c d)
      (lt : d.id < d.store.shapes.size) : Span s rs d.store (·.Below d) d.result

/-! ## Stretches of a session -/

/-- The files of an eager load have been read. -/
theorem exists_underway_of_loaded {p : Path} {f : Fragment} {m : Store} (hs : s.Coherent)
    (h : Load.fragment p s = (.ok f, m)) :
    (∃ w, s.Underway (fun _ => True) .declaring w m) ∧ m.inProgress = [] := by
  have hloads : (s.since (fun _ => True) .declaring).Loads _ := since_loads nofun
  obtain ⟨w, -, hw, -⟩ := ((hs.underway s.mentions_true).endsIn (hloads.fragment (.start s) p)).of_ok h
  exact ⟨⟨w, hw⟩, (Load.grows_of_apply h).inProgress.trans hs.inProgress⟩

section
variable {rs : List Request} {m u : Store} {T : Evaluation → Prop} (hs : s.Coherent)
include hs

/-- Each call that a request makes meets a sound store. -/
theorem Span.call_sound {before : List Request} {r : Request} {c d : Call}
    (starts : r.Starts (run s before) c) (makes : ReflTransGen Call.Makes c d)
    (lt : d.id < d.store.shapes.size) : d.store.Sound d.id := by
  have hc := starts.sound (coherent_run before hs).1 (Call.id_lt_of_makes makes lt)
  exact ((keptByRuns_precedes c.store).reaches ⟨_, hc⟩ (.refl _) makes).1

/-- The evaluations account for what has changed. -/
theorem Span.accounts (h : Span s rs m T u) :
    Accounts (fun e => e.start.Sound e.id ∧ T e) m u := by
  cases h with
  | @requests before mid after split =>
    rw [run_append]
    exact accounts_run mid (coherent_run before hs).1
  | @load before after p f _ split loaded eager =>
    obtain ⟨⟨w, hw⟩, hidle⟩ := exists_underway_of_loaded (coherent_run before hs).1 loaded
    have hall := (accounts_resolveAll hw hidle).mono (U := fun e => e.start.Sound e.id ∧
      ∃ c, Call.StartsDrainAll m c ∧ e.Below c) fun e he => ⟨he.sound, he.below⟩
    exact hall.of_shapes_eq rfl (shapes_load loaded eager)
  | @call before after r c d split starts makes lt =>
    have hd := Span.call_sound hs starts makes lt
    exact (accounts_resolveWithin d.depth d.id d.store hd).mono fun e he => ⟨hd.below he, he⟩

/-- Where a span ends, what is in progress has its ancestry. -/
theorem Span.ancestry (h : Span s rs m T u) (hancestry : s.Ancestry) : u.Ancestry := by
  cases h with
  | requests split => exact ancestry_run _ hs hancestry
  | @load before after p f _ split loaded eager =>
    exact ancestry_step (coherent_run before hs).1 (ancestry_run before hs hancestry) _
  | @call before after r c d split starts makes lt =>
    have hbefore := (coherent_run before hs).1
    obtain ⟨hc, hbegin⟩ := keptByRuns_ancestry.startsCall hbefore (ancestry_run before hs hancestry)
      starts (Call.id_lt_of_makes makes lt)
    obtain ⟨hd, hstart⟩ := keptByRuns_ancestry.reaches ⟨_, hc⟩ hbegin makes
    exact (keptByRuns_ancestry.resolveWithin d.depth d.id d.store hd hstart).holds

/-- The evaluations begin in later states of the store, and what was noted of a loaded file stays. -/
theorem Span.precedes (h : Span s rs m T u) {e : Evaluation} (he : T e) :
    m.SameIndexes e.start ∧ m.Precedes e.start := by
  have below {c : Call} (hc : m.SoundFrom c.store c.id ∧ m.Precedes c.store) (he : e.Below c) :
      m.SameIndexes e.start ∧ m.Precedes e.start := by
    obtain ⟨known, phase, w, -, hunderway, -⟩ := SoundFrom.below hc.1 he
    exact ⟨hunderway.same, (keptByRuns_precedes m).below ⟨m, hc.1⟩ hc.2 he⟩
  cases h with
  | @requests before mid after split =>
    obtain ⟨first, r, rest, c, rfl, hstarts, hbelow⟩ := he
    have hbefore := (coherent_run before hs).1
    have hfirst := (coherent_run first hbefore).1
    obtain ⟨⟨known, phase, w, -, hunderway, -⟩, hlater⟩ := (keptByRuns_precedes (run s before)).starts
      hfirst (precedes_run first hbefore (.refl _)) hstarts hbelow
    exact ⟨(sameIndexes_run first hbefore).trans hunderway.same, hlater⟩
  | @load before after p f _ split loaded eager =>
    obtain ⟨c, hc, hbelow⟩ := he
    obtain ⟨⟨w, hw⟩, hidle⟩ := exists_underway_of_loaded (coherent_run before hs).1 loaded
    exact below ((keptByRuns_precedes m).startsDrain hc hw.restart hidle (.refl m)) hbelow
  | @call before after r c d split starts makes lt =>
    obtain ⟨b, known, phase, w, hphase, hw, -⟩ := Span.call_sound hs starts makes lt
    exact below ⟨⟨_, phase, _, hphase, hw.restart, lt⟩, .refl _⟩ he

/-- Dependencies of shapes in loaded files last. -/
theorem Span.lasting (hspan : Span s rs m T u) {i j : ShapeId} {a : Shape} (ha : m.shapes[i]? = some a)
    (hloaded : m.IsLoaded a) (h : m.DependsOn i j) : Lasting m T i j := by
  refine ⟨h, ?_⟩
  rintro e he rfl
  obtain ⟨hsame, hprecedes⟩ := hspan.precedes hs he
  obtain ⟨hshape, -, hwaits⟩ := waits_of_claim e.claimed
  exact h.later hsame hprecedes ha hloaded ⟨_, hshape, hwaits.isUnknown⟩

end

/-! ## Circles -/

section
variable {m u : Store} {T : Evaluation → Prop}
  (haccounts : Accounts (fun e => e.start.Sound e.id ∧ T e) m u)
include haccounts

/-- A shape that is resolved in the end inherits what it lastingly depends on. -/
theorem Lasting.inherits {i j : ShapeId} (h : Lasting m T i j) {c : Shape} (hc : u.HasResolved i c) :
    j ∈ c.inherits := by
  obtain ⟨a, ha, hu⟩ := h.now.exists_shape
  obtain ⟨c', hc', hstays | ⟨e, ⟨hsound, he⟩, rfl, hw⟩⟩ := haccounts.old i a ha
  · cases hc'.symm.trans hc.1
    have hr := hstays.kept.isUnknown.symm.trans hc.2
    rw [hu] at hr
    cases hr
  · cases hc'.symm.trans hc.1
    exact (solves_of_wrote hsound hw).mem_inherits (h.later e he rfl)

/-- What leads to a circle of lasting dependencies is not resolved. -/
theorem not_hasResolved_of_circle (hancestry : u.Ancestry) {i j : ShapeId}
    (hpath : ReflTransGen (Lasting m T) i j) (hcircle : TransGen (Lasting m T) j j) (c : Shape) :
    ¬ u.HasResolved i c := by
  intro hc
  obtain ⟨rank, hrank⟩ := hancestry.ranked
  -- Each dependency of a resolved shape is resolved and has a lower rank, also around the circle.
  have hedge {k l : ShapeId} (hkl : Lasting m T k l) (hk : ∃ d, u.HasResolved k d) :
      rank l < rank k ∧ ∃ d, u.HasResolved l d := by
    obtain ⟨d, hd⟩ := hk
    have hl := hkl.inherits haccounts hd
    exact ⟨hrank k d hd l hl, hancestry.parents k d hd l hl⟩
  have hreached : ∃ d, u.HasResolved j d := by
    have hall {k : ShapeId} (hk : ReflTransGen (Lasting m T) i k) : ∃ d, u.HasResolved k d := by
      induction hk with
      | refl => exact ⟨c, hc⟩
      | tail _ hkl ih => exact (hedge hkl ih).2
    exact hall hpath
  have haround {k : ShapeId} (hk : TransGen (Lasting m T) j k) :
      rank k < rank j ∧ ∃ d, u.HasResolved k d := by
    induction hk with
    | single hjk => exact hedge hjk hreached
    | tail _ hkl ih =>
      obtain ⟨hlt, hd⟩ := hedge hkl ih.2
      exact ⟨Nat.lt_trans hlt ih.1, hd⟩
  exact Nat.lt_irrefl _ (haround hcircle).1

end

/-- Whatever the requests of a session are: no shape inherits from itself, resolved shapes inherit from
resolved shapes, which were resolved before, and from wherever the session comes to wherever it goes,
what leads to a circle of dependencies that last is not resolved. Dependencies between loaded files
last. A shape that has failed is never resolved. -/
theorem descends_run (settings : LoadSettings) (files : Files) (rs : List Request) :
    let s := Store.empty settings files
    let t := run s rs
    (∀ i, ¬ TransGen t.Inherits i i) ∧
      (∀ i a, t.HasResolved i a → ∀ j ∈ a.inherits, ∃ d, t.HasResolved j d) ∧
      (∀ i ∈ t.resolved, ∀ j ∈ t.resolved, t.Inherits i j →
        t.resolved.idxOf j < t.resolved.idxOf i) ∧
      (∀ m T u, Span s rs m T u →
        (∀ i j, ReflTransGen (Lasting m T) i j → TransGen (Lasting m T) j j →
          ∀ c, ¬ u.HasResolved i c) ∧
        ∀ i j a, m.shapes[i]? = some a → m.IsLoaded a → m.DependsOn i j → Lasting m T i j) ∧
      ∀ before after, rs = before ++ after → ∀ i a, (run s before).shapes[i]? = some a →
        a.isUnknown → i ∈ (run s before).failed → ∀ c, ¬ t.HasResolved i c := by
  intro s t
  have hempty := coherent_empty settings files
  have hancestry₀ := ancestry_empty settings files
  have hancestry : t.Ancestry := ancestry_run rs hempty hancestry₀
  refine ⟨hancestry.acyclic (coherent_run rs hempty).1, hancestry.parents,
    fun i hi j hj hij => hancestry.idxOf_lt hi hj hij, fun m T u hspan => ⟨?_, ?_⟩, ?_⟩
  · exact fun i j hpath hcircle => not_hasResolved_of_circle (hspan.accounts hempty)
      (hspan.ancestry hempty hancestry₀) hpath hcircle
  · exact fun i j a ha hloaded h => hspan.lasting hempty ha hloaded h
  · rintro before after rfl i a ha hu hfailed c ⟨hc, hr⟩
    have hfollows := follows_run after (coherent_run before hempty).1
    obtain ⟨c', hc', hkept | hwaits⟩ := hfollows.shapes i a ha
    · have hrun : t = run (run s before) after := run_append s before after
      cases (hrun ▸ hc).symm.trans hc'
      rw [hkept.isUnknown, hu] at hr
      cases hr
    · exact hwaits.2 hfailed

/-- An eager load of two types that stand for each other, and one that depends on them. -/
theorem descends_run_of_circle :
    let p : Path := ⟨"/lib.raml"⟩
    let text := "#%RAML 1.0 Library\ntypes:\n  User: Row\n  Row: Node\n  Node: Row\n"
    let s : Store := .empty ⟨⟨"/"⟩, false, true⟩ (.memory [(p, text)])
    ∃ m T, Span s [.load p] m T (step s (.load p)).2 ∧ m.shapes.size = 3 ∧
      Lasting m T 0 1 ∧ Lasting m T 1 2 ∧ Lasting m T 2 1 ∧
      (∀ c, ¬ (step s (.load p)).2.HasResolved 0 c) ∧
      ∀ after c, ¬ (run s (.load p :: after)).HasResolved 0 c := by
  intro p text s
  obtain ⟨-, -, -, hspans, -⟩ := descends_run ⟨⟨"/"⟩, false, true⟩ (.memory [(p, text)]) [.load p]
  have hok : (Load.fragment p s).1.isOk = true := by decide +kernel
  have hfacts : (∀ a ∈ (Load.fragment p s).2.shapes.toList, a.location = p) ∧
      Dict.has p.key (Load.fragment p s).2.fragments ∧
      Dict.has ((Load.fragment p s).2.normalize p).key (Load.fragment p s).2.fragments ∧
      ((Load.fragment p s).2.usesOf? p).isNone ∧ (Load.fragment p s).2.settings.eagerResolution ∧
      (Load.fragment p s).2.shapes.size = 3 ∧ 1 ∈ (Load.fragment p s).2.dependencies 0 ∧
      2 ∈ (Load.fragment p s).2.dependencies 1 ∧ 1 ∈ (Load.fragment p s).2.dependencies 2 := by
    decide +kernel
  have hstate : 0 ∈ (run s [.load p]).failed ∧ (run s [.load p]).shapes[0]?.any (·.isUnknown) := by
    decide +kernel
  obtain ⟨a, ha, hu⟩ := (Option.any_eq_true _ _).1 hstate.2
  rcases hf : Load.fragment p s with ⟨_ | f, m⟩ <;> rw [hf] at hok hfacts
  · cases hok
  obtain ⟨hlocation, hfile, hnames, huses, heager, hsize, h₀, h₁, h₂⟩ := hfacts
  obtain ⟨T, hspan⟩ : ∃ T, Span s [.load p] m T (step s (.load p)).2 :=
    ⟨_, @Span.load s [.load p] [] [] p f m rfl hf heager⟩
  obtain ⟨hcircle, hlasting⟩ := hspans _ _ _ hspan
  have hloaded (a : Shape) (hp : a.location = p) : m.IsLoaded a :=
    { file := by
        rw [hp]
        exact hfile
      names := by
        rw [hp]
        exact hnames
      libraries := fun uses name path hsome => by
        rw [hp, Option.isNone_iff_eq_none.1 huses] at hsome
        cases hsome }
  have lasting {i j : ShapeId} (h : j ∈ m.dependencies i) : Lasting m T i j := by
    have hdepends := dependsOn_of_mem h
    obtain ⟨a, ha, -⟩ := hdepends.exists_shape
    have hp := hlocation a (Array.mem_toList_iff.2 (Array.mem_of_getElem? ha))
    exact hlasting i j a ha (hloaded a hp) hdepends
  have hmutual : TransGen (Lasting m T) 1 1 := .tail (.single (lasting h₁)) (lasting h₂)
  refine ⟨m, T, hspan, hsize, lasting h₀, lasting h₁, lasting h₂,
    hcircle 0 1 (.single (lasting h₀)) hmutual, fun after => ?_⟩
  obtain ⟨-, -, -, -, hfailed⟩ :=
    descends_run ⟨⟨"/"⟩, false, true⟩ (.memory [(p, text)]) (.load p :: after)
  exact hfailed [.load p] after rfl 0 a ha hu hstate.1

end Session

end RamlTypes
