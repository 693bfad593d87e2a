import RamlTypes.Proofs.Declarations.Entries
import RamlTypes.Proofs.Equations.Bases
import RamlTypes.Proofs.Equations.Calls

/-!
# No entry of a declaration is lost

After its entries have been sorted, a declaration is completed as its type says (`Typed`), and then its
raw facets are applied, kept as custom facets, or left in the body until the shape is resolved
(`Completed`). So every entry of a declaration that is read has a place in its shape, and every facet
that waits gets one when the shape is resolved (`placed_of_build`).
-/

namespace RamlTypes

/-! ## The kind of a declaration without a type -/

namespace Kind

/-- The kind that a facet decides: that of a file, an object or an array, if it owns the facet and
strings do not. -/
def decided? (key : String) : Option Kind :=
  if key ∈ string.ownFacets then none else [file, object, array].find? (key ∈ ·.ownFacets)

/-- The kind that a facet suggests as long as none is decided: that of a string or an integer that owns
the facet. -/
def suggested? (key : String) : Option Kind :=
  [string, integer].find? (key ∈ ·.ownFacets)

/-- The kind that facets with the given keys have: the first one that is decided, or else the last one
that is suggested, or else a string. It owns the facet from which it follows. -/
inductive Sniffed (keys : List String) : Kind → Prop
  | decided {before after : List String} {key : String} {k : Kind}
      (split : keys = before ++ key :: after) (first : ∀ other ∈ before, decided? other = none)
      (decides : decided? key = some k) (own : key ∈ k.ownFacets) : Sniffed keys k
  | suggested {before after : List String} {key : String} {k : Kind}
      (undecided : ∀ other ∈ keys, decided? other = none)
      (split : keys = before ++ key :: after) (last : ∀ other ∈ after, suggested? other = none)
      (suggests : suggested? key = some k) (own : key ∈ k.ownFacets) : Sniffed keys k
  | plain (undecided : ∀ other ∈ keys, decided? other = none)
      (unsuggested : ∀ other ∈ keys, suggested? other = none) : Sniffed keys .string

/-- A key that decides belongs to one of three kinds. -/
theorem decided_cases {key : String} {k : Kind} (h : decided? key = some k) :
    k ∈ [file, object, array] ∧ key ∈ k.ownFacets := by
  rw [decided?] at h
  split at h
  · cases h
  · exact ⟨List.mem_of_find?_eq_some h, by simpa using List.find?_some h⟩

/-- A key that suggests belongs to strings or to numbers. -/
theorem suggested_cases {key : String} {k : Kind} (h : suggested? key = some k) :
    k ∈ [string, integer] ∧ key ∈ k.ownFacets :=
  ⟨List.mem_of_find?_eq_some h, by simpa using List.find?_some h⟩

/-- The facets that are scanned for a kind. -/
def scannedFacets : List String :=
  stringFacets ++ integerFacets ++ fileFacets ++ objectFacets ++ arrayFacets

/-- The facets of these kinds are the ones that are looked for. -/
theorem scanned_of_own {k : Kind} (hk : k ∈ [string, integer, file, object, array]) {key : String}
    (h : key ∈ k.ownFacets) : key ∈ scannedFacets := by
  have hall : ∀ k ∈ [string, integer, file, object, array], ∀ key ∈ k.ownFacets,
      key ∈ scannedFacets := by decide
  exact hall k hk key h

/-- Facets decide and suggest kinds as they are scanned. -/
theorem scanned (key : String) :
    decided? key = (if key ∈ stringFacets ∨ key ∈ integerFacets then none
      else if key ∈ fileFacets then some .file
      else if key ∈ objectFacets then some .object
      else if key ∈ arrayFacets then some .array else none) ∧
    suggested? key = (if key ∈ stringFacets then some .string
      else if key ∈ integerFacets then some .integer else none) := by
  have hall : ∀ key ∈ scannedFacets,
      decided? key = (if key ∈ stringFacets ∨ key ∈ integerFacets then none
        else if key ∈ fileFacets then some .file
        else if key ∈ objectFacets then some .object
        else if key ∈ arrayFacets then some .array else none) ∧
      suggested? key = (if key ∈ stringFacets then some .string
        else if key ∈ integerFacets then some .integer else none) := by decide
  by_cases hkey : key ∈ scannedFacets
  · exact hall key hkey
  · have hdecided : decided? key = none := by
      rcases h : decided? key with _ | k
      · rfl
      · obtain ⟨hk, hown⟩ := decided_cases h
        exact absurd (scanned_of_own (List.mem_cons_of_mem _ (List.mem_cons_of_mem _ hk)) hown) hkey
    have hsuggested : suggested? key = none := by
      rcases h : suggested? key with _ | k
      · rfl
      · obtain ⟨hk, hown⟩ := suggested_cases h
        exact absurd (scanned_of_own (List.mem_append_left [file, object, array] hk) hown) hkey
    simp only [scannedFacets, List.mem_append, not_or] at hkey
    obtain ⟨⟨⟨⟨hs, hi⟩, hf⟩, ho⟩, ha⟩ := hkey
    rw [hdecided, hsuggested, if_neg (not_or.2 ⟨hs, hi⟩), if_neg hf, if_neg ho, if_neg ha, if_neg hs,
      if_neg hi]
    exact ⟨rfl, rfl⟩

/-- A key decides, or it suggests a kind to those that follow. -/
theorem sniffFrom_cons (k : Kind) (key : String) (rest : List String) :
    sniffFrom k (key :: rest) =
      (decided? key).getD (sniffFrom ((suggested? key).getD k) rest) := by
  obtain ⟨hdecided, hsuggested⟩ := scanned key
  rw [sniffFrom, hdecided, hsuggested]
  by_cases hs : key ∈ stringFacets
  · rw [if_pos hs, if_pos (.inl hs), if_pos hs]
    rfl
  · by_cases hi : key ∈ integerFacets
    · rw [if_neg hs, if_pos hi, if_pos (.inr hi), if_neg hs, if_pos hi]
      rfl
    · rw [if_neg hs, if_neg hi, if_neg (not_or.2 ⟨hs, hi⟩), if_neg hs, if_neg hi]
      split
      · rfl
      · split
        · rfl
        · split <;> rfl

/-- By induction on the keys: the first that decides, or else the last that suggests, or else the
kind that the search began with. -/
theorem sniffFrom_eq (keys : List String) : ∀ k : Kind, sniffFrom k keys =
    ((keys.findSome? decided?).or (keys.reverse.findSome? suggested?)).getD k := by
  induction keys with
  | nil => exact fun _ => rfl
  | cons key rest ih =>
    intro k
    rw [sniffFrom_cons, List.findSome?_cons, List.reverse_cons, List.findSome?_append]
    rcases decided? key with _ | d
    · rw [Option.getD_none, ih]
      have hkey : [key].findSome? suggested? = suggested? key := by
        rw [List.findSome?_cons]
        split <;> simp_all
      rw [hkey]
      cases rest.findSome? decided? <;> cases rest.reverse.findSome? suggested? <;>
        cases suggested? key <;> rfl
    · rfl

/-- The kind that is sniffed follows from the facets. -/
theorem sniffed_sniff (keys : List String) : Sniffed keys (sniff keys) := by
  rw [sniff, sniffFrom_eq]
  rcases hd : keys.findSome? decided? with _ | k
  · have undecided := List.findSome?_eq_none_iff.1 hd
    rw [Option.none_or]
    rcases hs : keys.reverse.findSome? suggested? with _ | k
    · refine .plain undecided fun other hother => ?_
      exact List.findSome?_eq_none_iff.1 hs other (List.mem_reverse.2 hother)
    · obtain ⟨after, key, before, hsplit, hkey, hafter⟩ := List.findSome?_eq_some_iff.1 hs
      have hkeys : keys = before.reverse ++ key :: after.reverse := by
        rw [← List.reverse_reverse keys, hsplit]
        simp
      refine .suggested undecided hkeys ?_ hkey (suggested_cases hkey).2
      · exact fun other hother => hafter other (List.mem_reverse.1 hother)
  · obtain ⟨before, key, after, hsplit, hkey, hbefore⟩ := List.findSome?_eq_some_iff.1 hd
    exact .decided hsplit hbefore hkey (decided_cases hkey).2

/-- A kind that is sniffed is one of five. -/
theorem Sniffed.mem {keys : List String} {k : Kind} (h : Sniffed keys k) :
    k ∈ [string, integer, file, object, array] := by
  cases h with
  | decided _ _ decides =>
    exact List.mem_cons_of_mem _ (List.mem_cons_of_mem _ (decided_cases decides).1)
  | suggested _ _ _ suggests =>
    exact List.mem_append_left [file, object, array] (suggested_cases suggests).1
  | plain => decide

/-- The kind that is found is a built-in one. -/
theorem Sniffed.mem_builtins {keys : List String} {k : Kind} (h : Sniffed keys k) : k ∈ builtins := by
  have hall : ∀ k ∈ [string, integer, file, object, array], k ∈ builtins := by decide
  exact hall k h.mem

end Kind

/-! ## Facets that are left over -/

namespace Facets.Applied

variable {declare : Declare} {path : Path} {owner : String} {s m t u : Store} {body : Body}
  {facets : List (String × Node)} {result : Body × Dict String Node}

/-- What has been applied between two stores has been applied between an earlier and a later one. -/
theorem widen {start : Body × Dict String Node} (hs : s.Extends m)
    (h : Applied declare owner m start facets result t) (ht : t.Extends u) :
    Applied declare owner s start facets result u := by
  have hall := ((of_none hs start).trans h).trans (of_none ht result)
  rwa [List.nil_append, List.append_nil] at hall

section
variable (h : Applied declare owner s (body, []) facets result t)
include h

/-- The facets that are left over are the entries of a dictionary. -/
theorem putAll_left : Dict.putAll [] result.2 = result.2 :=
  Dict.putAll_eq_append _ _ h.left.nodup

/-- A facet is left over exactly if the kind does not own it. -/
theorem has_left_iff {facet : String × Node} (hf : facet ∈ facets) :
    Dict.has facet.1 result.2 ↔ facet.1 ∉ result.1.kind.ownFacets := by
  rw [← Dict.mem_keys, h.left.mem_keys, h.kind]
  constructor
  · rintro (hnil | hkey)
    · cases hnil
    · obtain ⟨other, hother, hkey⟩ := List.mem_map.1 hkey
      have hown := (List.mem_filter.1 hother).2
      rw [hkey] at hown
      simpa using hown
  · intro hown
    exact .inr (List.mem_map.2 ⟨facet, List.mem_filter.2 ⟨hf, by simpa using hown⟩, rfl⟩)

end

end Facets.Applied

namespace Declaration

/-! ## The type of a declaration -/

section
variable (declare : Facets.Declare) (path : Path) (owner : String) (s t : Store)

/-- The type by which a declaration is completed, as the envelope of its shape and a plan say. Between
the stores `s` and `t` the parents have been declared. -/
inductive Typed : Option Node → Shape → Plan → Prop
  | missing {a : Shape} (declaration : a.declaration = none) (link : a.link = none)
      (inherits : a.inherits = []) : Typed none a .sniff
  | blank {text : String} {type : ScalarType} {mark : Mark} {a : Shape}
      (htype : type = .string ∨ type = .null) (trims : Text.Trims text "")
      (declaration : a.declaration = none) (link : a.link = none) (inherits : a.inherits = []) :
      Typed (some (.scalar text type mark false)) a .sniff
  | json {text schema : String} {type : ScalarType} {mark : Mark} {a : Shape}
      (htype : type = .string ∨ type = .null) (trims : Text.Trims text schema)
      (brace : ['\x7b'] <+: schema.toList) (declaration : a.declaration = some schema)
      (link : a.link = none) (inherits : a.inherits = []) :
      Typed (some (.scalar text type mark false)) a (.json text)
  | builtin {text : String} {type : ScalarType} {mark : Mark} {a : Shape} {k : Kind} {body : Body}
      (htype : type = .string ∨ type = .null) (trims : Text.Trims text k.name)
      (hk : k ∈ Kind.builtins) (hbody : body.Bare k) (declaration : a.declaration = some k.name)
      (link : a.link = none) (inherits : a.inherits = []) :
      Typed (some (.scalar text type mark false)) a (.concrete body)
  | expression {text source : String} {type : ScalarType} {mark : Mark} {a : Shape}
      (htype : type = .string ∨ type = .null) (trims : Text.Trims text source) (hblank : source ≠ "")
      (brace : ¬ ['\x7b'] <+: source.toList) (hname : ∀ k ∈ Kind.builtins, k.name ≠ source)
      (declaration : a.declaration = some source) (link : a.link = none)
      (inherits : a.inherits = []) :
      Typed (some (.scalar text type mark false)) a (.pending (.expression source))
  | included {text : String} {type : ScalarType} {mark : Mark} {a : Shape}
      (declaration : a.declaration = some text) (link : a.link = some (s.follow path text))
      (inherits : a.inherits = []) : Typed (some (.scalar text type mark true)) a (.pending .link)
  | parents {items : List Node} {mark : Mark} {isInclude : Bool} {a : Shape}
      {declared : List (String × ShapeId)} (hne : items ≠ [])
      (hitems : List.Forall₂ (fun item d => (∃ m i, item = .scalar d.1 .string m i) ∧
        Facets.Stored declare id s t d.1 item d.2) items declared)
      (declaration : a.declaration =
        some ("[" ++ ", ".intercalate (declared.map (·.1)) ++ "]"))
      (link : a.link = none) (inherits : a.inherits = declared.map (·.2)) :
      Typed (some (.sequence items mark isInclude)) a (.pending .parents)

/-- A declaration with the raw facets `raw` has been completed as planned. -/
inductive Completed (raw : List (String × Node)) : Plan → Shape → Prop
  | sniff {k : Kind} {body : Body} {a : Shape} (hk : Kind.Sniffed (raw.map (·.1)) k)
      (hbody : body.Bare k)
      (h : Facets.Applied declare owner s (body, []) raw (a.body, a.customFacets) t) :
      Completed raw .sniff a
  | concrete {body : Body} {a : Shape}
      (h : Facets.Applied declare owner s (body, []) raw (a.body, a.customFacets) t) :
      Completed raw (.concrete body) a
  | json {schema : String} {a : Shape} (body : a.body = .json schema)
      (custom : Dict.Merges [] raw a.customFacets) : Completed raw (.json schema) a
  | pending {declared : Declared} {a : Shape} (body : a.body = .unknown ⟨declared, raw⟩)
      (custom : a.customFacets = []) : Completed raw (.pending declared) a

end

section
variable {declare : Facets.Declare} {path : Path} {owner : String} {s m t u : Store} {depth : Nat}
  {a b : Shape} {raw : List (String × Node)} {plan : Plan}

/-- What has been declared between two stores has been declared between an earlier and a later one. -/
theorem Typed.widen {type : Option Node} (hs : s.Extends m) (h : Typed declare path m t type a plan)
    (ht : t.Extends u) : Typed declare path s u type a plan := by
  cases h with
  | missing declaration link inherits => exact .missing declaration link inherits
  | blank htype trims declaration link inherits =>
    exact .blank htype trims declaration link inherits
  | json htype trims brace declaration link inherits =>
    exact .json htype trims brace declaration link inherits
  | builtin htype trims hk hbody declaration link inherits =>
    exact .builtin htype trims hk hbody declaration link inherits
  | expression htype trims hblank brace hname declaration link inherits =>
    exact .expression htype trims hblank brace hname declaration link inherits
  | included declaration link inherits =>
    exact .included declaration (hs.grows.follow path _ ▸ link) inherits
  | parents hne hitems declaration link inherits =>
    refine .parents hne (hitems.imp fun _ _ hd => ?_) declaration link inherits
    exact ⟨hd.1, (hd.2.later hs).stays ht⟩

/-- What has been completed between two stores has been so between wider ones. -/
theorem Completed.widen (hs : s.Extends m) (h : Completed declare owner m t raw plan a)
    (ht : t.Extends u) : Completed declare owner s u raw plan a := by
  cases h with
  | sniff hk hbody h => exact .sniff hk hbody (h.widen hs ht)
  | concrete h => exact .concrete (h.widen hs ht)
  | json body custom => exact .json body custom
  | pending body custom => exact .pending body custom

/-- The type of a declaration shows in three fields of the shape. -/
theorem Typed.congr {type : Option Node} (h : Typed declare path s t type a plan)
    (hdeclaration : b.declaration = a.declaration) (hlink : b.link = a.link)
    (hinherits : b.inherits = a.inherits) : Typed declare path s t type b plan := by
  cases h with
  | missing declaration link inherits =>
    exact .missing (hdeclaration.trans declaration) (hlink.trans link) (hinherits.trans inherits)
  | blank htype trims declaration link inherits =>
    exact .blank htype trims (hdeclaration.trans declaration) (hlink.trans link)
      (hinherits.trans inherits)
  | json htype trims brace declaration link inherits =>
    exact .json htype trims brace (hdeclaration.trans declaration) (hlink.trans link)
      (hinherits.trans inherits)
  | builtin htype trims hk hbody declaration link inherits =>
    exact .builtin htype trims hk hbody (hdeclaration.trans declaration) (hlink.trans link)
      (hinherits.trans inherits)
  | expression htype trims hblank brace hname declaration link inherits =>
    exact .expression htype trims hblank brace hname (hdeclaration.trans declaration)
      (hlink.trans link) (hinherits.trans inherits)
  | included declaration link inherits =>
    exact .included (hdeclaration.trans declaration) (hlink.trans link) (hinherits.trans inherits)
  | parents hne hitems declaration link inherits =>
    exact .parents hne hitems (hdeclaration.trans declaration) (hlink.trans link)
      (hinherits.trans inherits)

/-- Its facets show in two. -/
theorem Completed.congr (h : Completed declare owner s t raw plan a) (hbody : b.body = a.body)
    (hcustom : b.customFacets = a.customFacets) : Completed declare owner s t raw plan b := by
  cases h with
  | sniff hk hempty h => exact .sniff hk hempty (by rwa [hbody, hcustom])
  | concrete h => exact .concrete (by rwa [hbody, hcustom])
  | json body custom => exact .json (hbody.trans body) (by rwa [hcustom])
  | pending body custom => exact .pending (hbody.trans body) (hcustom.trans custom)

/-- Entries that have been sorted stay so in later stores. -/
theorem Drafted.widen {d e : Draft} {x : Sorted} (h : Drafted declare path owner s m d x e)
    (ht : m.Extends t) : Drafted declare path owner s t d x e := by
  have hall := h.trans (.of_none ht e)
  rwa [Sorted.append_empty] at hall

/-! ## Completing a declaration -/

section
variable (hd : Facets.Stores declare)
include hd

/-- Each parent is a text, which is stored as a declaration of its own. -/
theorem parents_gives (loadType : Path → Load Unit) (items : List Node) : ∀ s : Store,
    (parents ⟨path, loadType, declare⟩ items).Gives s fun r t => s.Extends t ∧
      ∃ declared : List (String × ShapeId), List.Forall₂ (fun item d =>
        (∃ m i, item = .scalar d.1 .string m i) ∧ Facets.Stored declare id s t d.1 item d.2)
        items declared ∧ r = (declared.map (·.2), declared.map (·.1)) := by
  induction items with
  | nil => exact fun s => .pure ⟨.refl s, [], .nil, rfl⟩
  | cons item rest ih =>
    intro s
    unfold parents
    split
    · next name htext htype =>
      have hitem : ∃ mark isInclude, item = .scalar name .string mark isInclude := by
        cases item <;> cases htext
        cases htype
        exact ⟨_, _, rfl⟩
      refine (hd.gives name item).bind fun i m ⟨hsm, hi⟩ => ?_
      refine (ih m).bind fun r t ⟨hmt, declared, hdeclared, hr⟩ => .pure ?_
      subst hr
      refine ⟨hsm.trans hmt, (name, i) :: declared, .cons ⟨hitem, hi.stays hmt⟩ ?_, rfl⟩
      exact hdeclared.imp fun _ _ h => ⟨h.1, h.2.later hsm⟩
    · exact .stop trivial

omit hd in
/-- A text declares a schema, a built-in kind, or an expression. -/
theorem typed_text {text : String} {type : ScalarType} (mark : Mark)
    (htype : type = .string ∨ type = .null) (hblank : Text.trim text ≠ "")
    (hdeclaration : a.declaration = some (Text.trim text)) (hlink : a.link = none)
    (hinherits : a.inherits = []) :
    Typed declare path s s (some (.scalar text type mark false)) a (planText text (Text.trim text)) := by
  have trims := Text.trims_trim text
  rcases planText_cases text (Text.trim text) with
    ⟨brace, hplan⟩ | ⟨k, hk, body, hname, hbody, hplan⟩ | ⟨brace, hname, hplan⟩ <;> rw [hplan]
  · exact .json htype trims (Text.startsWith_iff.1 brace) hdeclaration hlink hinherits
  · rw [← hname] at trims hdeclaration
    exact .builtin htype trims hk (Body.bare_of_empty? hbody) hdeclaration hlink hinherits
  · have hbrace := mt Text.startsWith_iff.2 brace
    exact .expression htype trims hblank hbrace hname hdeclaration hlink hinherits

/-- The type of a declaration is read as it says. -/
theorem plan_gives (hdeclaration : a.declaration = none) (hlink : a.link = none)
    (hinherits : a.inherits = []) (type : Option Node) :
    (Declaration.plan ⟨path, (Fragment.loaders depth).dataType, declare⟩ a type).Gives s fun r t =>
      s.Extends t ∧ Typed declare path s t type r.1 r.2 ∧ r.1 = { a with
        declaration := r.1.declaration, inherits := r.1.inherits, link := r.1.link } := by
  unfold Declaration.plan
  cases type with
  | none => exact .pure ⟨.refl s, .missing hdeclaration hlink hinherits, rfl⟩
  | some type =>
    dsimp only
    unfold classify
    cases type with
    | scalar text type mark isInclude =>
      cases isInclude with
      | true =>
        refine .ask (.bind (P := fun _ t => s.Extends t) ⟨fun h => ?_, fun _ => trivial⟩ fun _ t ht => ?_)
        · have hload : (Store.beside s.shapes.size 0 s s).Agree () _ _ _ :=
            (Store.beside_loads.loaders depth).dataType () (s.follow path text) trivial
          exact (Store.extends_of_agree hload h).1
        · exact .pure ⟨ht, .included rfl rfl hinherits, rfl⟩
      | false =>
        dsimp only
        split
        · cases ‹false = true›
        · split
          · next htype =>
            split
            · next hblank =>
              have trims := Text.trims_trim text
              rw [hblank] at trims
              exact .pure ⟨.refl s, .blank htype trims hdeclaration hlink hinherits, rfl⟩
            · next hblank =>
              refine .pure ⟨.refl s, ?_, rfl⟩
              dsimp only
              exact typed_text mark htype hblank rfl hlink hinherits
          · exact .stop trivial
    | sequence items mark isInclude =>
      dsimp only
      split
      · exact .stop trivial
      · next hne =>
        refine (parents_gives hd _ items s).bind fun r t ⟨hst, declared, hdeclared, hr⟩ => .pure ?_
        subst hr
        refine ⟨hst, .parents (fun h => hne (by rw [h]; rfl)) hdeclared rfl hlink rfl, rfl⟩
    | mapping pairs mark isInclude => exact .stop trivial

/-- A body of a known kind takes its facets at once. -/
theorem withFacets_gives (hcustom : a.customFacets = []) (loadType : Path → Load Unit) (body : Body)
    (raw : List (String × Node)) :
    (withFacets ⟨path, loadType, declare⟩ owner a body raw).Gives s fun b t => s.Extends t ∧
      Facets.Applied declare owner s (body, []) raw (b.body, b.customFacets) t ∧
      b = { a with body := b.body, customFacets := b.customFacets } := by
  refine (Facets.applyFrom_gives hd raw s body []).bind fun r t h => .pure ⟨h.extended, ?_, rfl⟩
  dsimp only
  rw [hcustom, h.putAll_left]
  exact h

/-- A declaration is completed as planned. -/
theorem complete_gives (hcustom : a.customFacets = []) (loadType : Path → Load Unit)
    (raw : List (String × Node)) (plan : Plan) :
    (complete ⟨path, loadType, declare⟩ owner a raw plan).Gives s fun b t => s.Extends t ∧
      Completed declare owner s t raw plan b ∧
      b = { a with body := b.body, customFacets := b.customFacets } := by
  cases plan with
  | sniff =>
    have hk := Kind.sniffed_sniff (raw.map (·.1))
    obtain ⟨body, hbody⟩ := Body.exists_empty hk.mem_builtins
    refine (withFacets_gives hd hcustom loadType _ raw).imp (fun b t h => ⟨h.1, ?_, h.2.2⟩) fun _ h => h
    have happlied := h.2.1
    rw [hbody] at happlied
    exact .sniff hk (Body.bare_of_empty? hbody) happlied
  | concrete body =>
    exact (withFacets_gives hd hcustom loadType body raw).imp
      (fun b t h => ⟨h.1, .concrete h.2.1, h.2.2⟩) fun _ h => h
  | json schema =>
    refine .pure ⟨.refl s, .json rfl ?_, rfl⟩
    rw [hcustom]
    exact Dict.merges_putAll raw []
  | pending declared => exact .pure ⟨.refl s, .pending rfl hcustom, rfl⟩

end

/-- A shape that is completed with a body has left over what its kind does not own. -/
theorem has_custom_iff {type : Option Node} (htyped : Typed declare path s t type b plan)
    (h : Completed declare owner s t raw plan a) (hresolved : a.isUnknown = false)
    {facet : String × Node} (hf : facet ∈ raw) :
    Dict.has facet.1 a.customFacets ↔ facet.1 ∉ a.kind.ownFacets := by
  cases h with
  | sniff hk hbody h => exact h.has_left_iff hf
  | concrete h => exact h.has_left_iff hf
  | json body custom =>
    have hkind : a.kind = .json := by rw [Shape.kind, body, Body.kind]
    rw [hkind, ← Dict.mem_keys, custom.mem_keys]
    exact iff_of_true (.inr (List.mem_map_of_mem hf)) List.not_mem_nil
  | pending body custom =>
    rw [Shape.isUnknown, body] at hresolved
    cases hresolved

/-- Applying facets to a body without any yields a resolved shape. -/
theorem isUnknown_of_applied {k : Kind} {body : Body} (hk : k ∈ Kind.builtins) (hbody : body.Bare k)
    (h : Facets.Applied declare owner s (body, []) raw (a.body, a.customFacets) t) :
    a.isUnknown = false := by
  refine Shape.isUnknown_eq_false_iff.2 ?_
  have hkind : a.body.kind = body.kind := h.kind
  rw [hkind, hbody.kind]
  rintro rfl
  exact absurd hk (by decide)

/-- A shape that waits when it is completed has all its raw facets in its body. -/
theorem Completed.exists_waiting {type : Option Node} (htyped : Typed declare path s t type b plan)
    (h : Completed declare owner s t raw plan a) (hunknown : a.isUnknown = true) :
    ∃ declared, a.body = .unknown ⟨declared, raw⟩ ∧ a.customFacets = [] := by
  have resolved (h : a.isUnknown = false) : False := Bool.false_ne_true (h.symm.trans hunknown)
  cases h with
  | sniff hk hbody h => exact (resolved (isUnknown_of_applied hk.mem_builtins hbody h)).elim
  | concrete h =>
    cases htyped with
    | builtin htype trims hk hbody declaration link inherits =>
      exact (resolved (isUnknown_of_applied hk hbody h)).elim
  | json body custom =>
    rw [Shape.isUnknown, body] at hunknown
    cases hunknown
  | pending body custom => exact ⟨_, body, custom⟩

end

/-- The facets that wait in a shape are applied when the shape is resolved. -/
theorem applied_of_evaluation (e : Evaluation) (hcustom : e.shape.customFacets = []) :
    ∃ base u c, (Store.written e).shapes[e.id]? = some c ∧
      Facets.Applied (Load.declare e.shape.location) e.shape.name u (base, [])
        e.pending.facets (c.body, c.customFacets) e.stop := by
  obtain ⟨base, u, -, hoverlay⟩ := Resolution.exists_based e.evaluated
  have happlied : Facets.Applied (Load.declare e.shape.location) e.shape.name u
      (base, []) e.pending.facets (e.result.body, e.result.customFacets) e.stop := by
    exact Resolution.applied_of_overlay hoverlay
  obtain ⟨d, hd, hstays⟩ := Store.exists_stop e
  have hd' : (e.stop.endResolution e.id).shapes[e.id]? = some d := hd
  refine ⟨base, u, { d with
    body := e.result.body
    inherits := d.inherits ++ e.result.inherits
    customFacets := Dict.putAll d.customFacets e.result.customFacets }, ?_, ?_⟩
  · rw [Store.written, Store.writeResolution, Store.getElem?_mapShape, if_pos rfl, hd']
    rfl
  · dsimp only
    rw [hstays.kept.customFacets, hcustom, happlied.putAll_left]
    exact happlied

/-- When a shape that waits is resolved, its raw facets get their places. -/
theorem Completed.resolved {declare : Facets.Declare} {path : Path} {owner : String} {s t : Store}
    {raw : List (String × Node)} {plan : Plan} {a b : Shape} {type : Option Node}
    (h : Completed declare owner s t raw plan a) (htyped : Typed declare path s t type b plan)
    (hlocation : a.location = path) (hname : a.name = owner) (e : Evaluation)
    (hstays : a.Stays e.shape) :
    ∃ base u c, (Store.written e).shapes[e.id]? = some c ∧
      Facets.Applied (Load.declare path) owner u (base, []) raw (c.body, c.customFacets) e.stop ∧
      ∀ facet ∈ raw, (Dict.has facet.1 c.customFacets ↔ facet.1 ∉ c.kind.ownFacets) := by
  obtain ⟨-, hpending, hwaits⟩ := Store.waits_of_claim e.claimed
  have hunknown : a.isUnknown = true := by rw [← hstays.kept.isUnknown, hwaits.isUnknown]
  obtain ⟨declared, hbody, hcustom⟩ := h.exists_waiting htyped hunknown
  obtain ⟨base, u, c, hc, happlied⟩ := applied_of_evaluation e (hstays.kept.customFacets.trans hcustom)
  have hfacets : e.pending.facets = raw := by
    rw [hstays.kept.body, hbody] at hpending
    exact (congrArg Pending.facets (Option.some.inj hpending)).symm
  rw [hstays.grows.location_eq, hstays.grows.name_eq, hlocation, hname, hfacets] at happlied
  exact ⟨base, u, c, hc, happlied, fun facet hf => happlied.has_left_iff hf⟩

/-! ## The places of all entries -/

/-- The declaration of the shape `a` has been read between the stores `s` and `t`, and its entries, which
`x` sorts by their places, have got these. -/
structure Placed (declare : Facets.Declare) (path : Path) (owner : String) (mark : Mark) (s t : Store)
    (i : ShapeId) (x : Sorted) (d : Draft) (plan : Plan) (a : Shape) : Prop where
  stored : t.shapes[i]? = some a
  drafted : Drafted declare path owner s t ⟨Shape.plain owner path mark .any, [], none⟩ x d
  typed : Typed declare path s t d.type a plan
  completed : Completed declare owner s t d.raw plan a
  /-- What has been drafted stays. -/
  envelope : a = { d.shape with
    id := i, declaration := a.declaration, inherits := a.inherits, link := a.link, body := a.body,
    customFacets := a.customFacets }
  /-- A raw facet belongs to the body or is a custom facet, and is never both. -/
  facets : a.isUnknown = false →
    ∀ facet ∈ d.raw, (Dict.has facet.1 a.customFacets ↔ facet.1 ∉ a.kind.ownFacets)
  /-- When a shape that waits is resolved, the same holds of the facets that wait. -/
  resolved : ∀ e : Evaluation, e.id = i → a.Stays e.shape → ∃ base u c,
    (Store.written e).shapes[i]? = some c ∧
    Facets.Applied (Load.declare path) owner u (base, []) d.raw (c.body, c.customFacets) e.stop ∧
    ∀ facet ∈ d.raw, (Dict.has facet.1 c.customFacets ↔ facet.1 ∉ c.kind.ownFacets)

/-- Every entry of a mapping that is read as a declaration has its place. -/
theorem placed_of_build {depth : Nat} {path : Path} {name : String} {pairs : List (Node × Node)}
    {mark : Mark} {isInclude : Bool} {s t : Store} {i : ShapeId}
    (h : build (Fragment.loaders depth).dataType path name (.mapping pairs mark isInclude) s =
      (.ok i, t)) : ∃ entries x d plan a, Node.Keyed pairs entries ∧ Sorted.Sorts entries x ∧
      Placed (buildLevels (Fragment.loaders depth).dataType path (Node.heightPairs pairs)) path name
        mark s t i x d plan a := by
  -- The first level reads the node itself, and the ones below what is nested in it.
  rw [build, Node.height, Nat.add_comm, buildLevels, Load.mapFault_eq_ok] at h
  obtain ⟨d, m₁, r, m₂, b, m, hdraft, hplan, hcomplete, rfl, rfl⟩ := decode_eq_ok h
  have hd := Facets.stores_buildLevels path depth (Node.heightPairs pairs)
  obtain ⟨entries, x, hkeyed, hsorts, hdrafted⟩ := (addEntries_gives hd pairs s _).of_ok hdraft
  have hrest := hdrafted.rest
  obtain ⟨h₁, htyped, hr⟩ := (plan_gives hd (by rw [hrest]; rfl) (by rw [hrest]; rfl) (by rw [hrest]; rfl)
    d.type).of_ok hplan
  have hcustom : r.1.customFacets = [] := by
    rw [hr, hrest]
    rfl
  obtain ⟨h₂, hcompleted, hb⟩ := (complete_gives hd hcustom _ d.raw r.2).of_ok hcomplete
  have h₃ := Store.Extends.addShape m b
  have htyped' : Typed (buildLevels (Fragment.loaders depth).dataType path (Node.heightPairs pairs))
      path s (m.addShape b) d.type { b with id := m.shapes.size } r.2 := by
    refine (htyped.widen hdrafted.extended (h₂.trans h₃)).congr ?_ ?_ ?_ <;> rw [hb]
  have hcompleted' : Completed
      (buildLevels (Fragment.loaders depth).dataType path (Node.heightPairs pairs)) name s
      (m.addShape b) d.raw r.2 { b with id := m.shapes.size } :=
    (hcompleted.widen (hdrafted.extended.trans h₁) h₃).congr rfl rfl
  have hwhere : b.location = path ∧ b.name = name := by
    rw [hb, hr, hrest]
    exact ⟨rfl, rfl⟩
  exact ⟨entries, x, d, r.2, { b with id := m.shapes.size }, hkeyed, hsorts,
  { stored := by rw [Store.getElem?_addShape, if_pos rfl]
    drafted := hdrafted.widen (h₁.trans (h₂.trans h₃))
    typed := htyped'
    completed := hcompleted'
    envelope := by rw [hb, hr]
    facets := fun hresolved facet hf => has_custom_iff htyped' hcompleted' hresolved hf
    resolved := fun e hid hstays => hid ▸ hcompleted'.resolved htyped' hwhere.1 hwhere.2 e hstays }⟩

/-- A declaration without a type that has an annotation, two facets of strings and a custom one. -/
theorem placed_of_build_string :
    let path : Path := ⟨"/lib.raml"⟩
    let s : Store := .empty ⟨⟨"/"⟩, false, false⟩ (.memory [])
    let text (t : String) : Node := .scalar t .string .unknown false
    let count (t : String) : Node := .scalar t .int .unknown false
    let pairs := [(text "minLength", count "1"), (text "( note )", text "x"),
      (text "unit", text "mm"), (text "displayName", text "Size"), (text "facets",
        .mapping [(text "unit", text "string")] .unknown false),
      (text "allowedTargets", text "API"), (text "minLength", count "2")]
    let node : Node := .mapping pairs .unknown false
    ∃ i t, build (Fragment.loaders 1).dataType path "T" node s = (.ok i, t) ∧ ∃ entries x d plan a,
      Node.Keyed pairs entries ∧ Sorted.Sorts entries x ∧
      Placed (buildLevels (Fragment.loaders 1).dataType path (Node.heightPairs pairs)) path "T"
        .unknown s t i x d plan a := by
  intro path s text count pairs node
  have hrun : (build (Fragment.loaders 1).dataType path "T" node s).1.isOk = true := by
    decide +kernel
  rcases h : build (Fragment.loaders 1).dataType path "T" node s with ⟨_ | i, t⟩
  · rw [h] at hrun
    cases hrun
  · exact ⟨i, t, rfl, placed_of_build h⟩

end Declaration

end RamlTypes
