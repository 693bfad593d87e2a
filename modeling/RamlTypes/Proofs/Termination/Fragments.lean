import RamlTypes.Proofs.Cached
import RamlTypes.Proofs.Termination.Declarations

/-!
# A fragment costs its text

What a fragment declares are parts of its document. So reading it costs no more than its text weighs
(`Fragment.pays_readLibrary`, `Fragment.pays_readDataTypeOrJson`), if loading the files that it
refers to leaves the work as it is.
-/

namespace RamlTypes

/-- The loaders can be used where fewer than `d` files can be read. -/
structure Loaders.Descend (ls : Loaders) (d : Nat) : Prop where
  library : Load.Descends ls.library d
  dataType : Load.Descends ls.dataType d

/-- Binding annotations costs nothing. -/
theorem AnnotationUse.isFree_bindAll {d : Nat} (location : Path)
    (uses : Dict String AnnotationUse) : (bindAll location uses).IsFree d := by
  induction uses with
  | nil => exact .pure (Nat.le_refl _)
  | cons entry rest ih =>
    have hbind : (entry.2.bind location).IsFree d := by
      unfold AnnotationUse.bind
      split
      · exact .pure (Nat.le_refl _)
      · refine .ask fun found => ?_
        rcases found with f | (_ | id)
        · exact .pure (Nat.le_refl _)
        · exact .bind (.report _) fun _ => .pure (Nat.le_refl _)
        · exact .pure (Nat.le_refl _)
    refine .bind hbind fun r => ?_
    cases r with
    | ok a => exact .bind ih fun _ => .pure (Nat.le_refl _)
    | error f => exact .pure (Nat.le_refl _)

namespace Fragment

open Load (Pays IsFree)

/-- A node weighs no more than the text that it has been read from. -/
theorem size_body_le {path : Path} {text : String} {node : Node} (h : body path text = .ok node) :
    2 * node.size ≤ textWeight text := by
  unfold body at h
  unfold textWeight
  generalize Node.ofYaml? text = r at h ⊢
  rcases r with _ | root
  · cases h
  · cases h
    dsimp only
    have hsize := root.one_le_size
    split
    · exact Nat.mul_le_mul_left 2 hsize
    · exact Nat.le_refl _

/-- Cutting the usage out makes a body no heavier. -/
theorem sizePairs_cutUsage_le {path : Path} (pairs : List (Node × Node)) :
    ∀ {usage : Option String} {entries : List (Node × Node)},
    cutUsage path pairs = .ok (usage, entries) → Node.sizePairs entries ≤ Node.sizePairs pairs := by
  induction pairs with
  | nil =>
    intro usage entries h
    cases h
    exact Nat.le_refl _
  | cons pair rest ih =>
    intro usage entries h
    obtain ⟨key, value⟩ := pair
    rw [Node.sizePairs]
    unfold cutUsage at h
    split at h
    · exact Nat.le_trans (ih h) (Nat.le_add_left _ _)
    · rcases htext : Entry.text path "usage" value with f | text <;> rw [htext] at h
      · cases h
      rcases hrest : cutUsage path rest with f | ⟨later, others⟩ <;> rw [hrest] at h <;> cases h
      exact Nat.le_trans (ih hrest) (Nat.le_add_left _ _)
    · rcases hrest : cutUsage path rest with f | ⟨later, others⟩ <;> rw [hrest] at h <;> cases h
      rw [Node.sizePairs]
      exact Nat.add_le_add_left (ih hrest) _

variable {ls : Loaders} {d : Nat} {path : Path}

section
variable (hl : ls.Descend d)
include hl

/-- The libraries that are used pay for themselves. -/
theorem isFree_loadUses (entries : List (String × Node)) :
    ∀ known, (loadUses ls path known entries).IsFree d := by
  induction entries with
  | nil => exact fun _ => .pure (Nat.le_refl _)
  | cons entry rest ih =>
    refine fun known => .check fun target _ s hroot hd => .ask ?_
    have hrest (library : Path) : (declareUse path entry.1 library >>= fun _ =>
        loadUses ls path (Dict.put entry.1 library known) rest).IsFree d :=
      .bind (.change fun s => { Store.Settles.refl s with }) fun _ => ih _
    have hnormal := Path.follow_isNormal hroot path target
    refine (hl.library s hroot hd _ hnormal).bind_run fun _ t hr ht => ?_
    have hroot' : t.settings.root.isAbsolute := (Load.grows_of_apply hr).settings ▸ hroot
    exact (hrest _ t hroot' (Nat.lt_of_le_of_lt ht.unread hd)).imp fun _ u hu => ht.trans hu

/-- So do those of a whole body. -/
theorem isFree_loadUsesOf (body : Node) : (loadUsesOf ls path body).IsFree d := by
  unfold loadUsesOf
  split
  · exact .check fun entries _ => isFree_loadUses hl entries _
  · exact .pure (Nat.le_refl _)

/-- By induction on the entries, the types of a section cost their nodes. -/
theorem pays_types {note : String → ShapeId → Load Unit} (hnote : ∀ name i, (note name i).IsFree d)
    (entries : List (String × Node)) : ∀ known,
    (types ls path note known entries).Pays d (facetsWeight entries) fun _ => 0 := by
  induction entries with
  | nil => exact fun _ => .pure (Nat.le_refl _)
  | cons entry rest ih =>
    intro known
    have hbuild := Declaration.pays_build hl.dataType path entry.1 entry.2
    refine .bind (hbuild.leaving (Nat.le_refl _)) fun i => ?_
    exact .bind ((hnote entry.1 i).leaving (Nat.le_of_eq (Nat.zero_add _))) fun _ => ih _

/-- One section of a library costs its node. -/
theorem pays_addSection (l : Library) (key : String) (value : Node) :
    (addSection ls path l key value).Pays d (2 * value.size) fun _ => 0 := by
  have htypes {note : String → ShapeId → Load Unit} (hnote : ∀ name i, (note name i).IsFree d)
      {entries : List (String × Node)} (he : Entry.section? path key value = .ok entries)
      (known : Dict String ShapeId) :
      (types ls path note known entries).Pays d (2 * value.size) fun _ => 0 := by
    have hsize := (Entry.hasEntries_of_section he).holds.size
    rw [← facetsWeight_eq] at hsize
    exact (pays_types hl hnote entries known).of_le (by omega)
  unfold addSection
  split
  · exact .pure (Nat.zero_le _)
  · exact .check fun _ _ => .pure (Nat.zero_le _)
  · refine .check fun _ he => .bind (htypes (fun name i => .change fun s => ?_) he _) fun _ =>
      .pure (Nat.le_refl _)
    exact { Store.Settles.refl s with }
  · refine .check fun _ he => .bind (htypes (fun name i => .change fun s => ?_) he _) fun _ =>
      .pure (Nat.le_refl _)
    exact { Store.Settles.refl s with }
  · refine .check fun _ he => .bind (htypes (fun name i => .change fun s => ?_) he _) fun _ =>
      .pure (Nat.le_refl _)
    exact { Store.Settles.refl s with }
  · exact .bind (Pays.of_le (.report _) (Nat.zero_le _)) fun _ => .pure (Nat.le_refl _)

/-- So all sections cost what their nodes weigh together. -/
theorem pays_addSections (sections : List (String × Node)) : ∀ l,
    (addSections ls path l sections).Pays d (facetsWeight sections) fun _ => 0 := by
  induction sections with
  | nil => exact fun _ => .pure (Nat.le_refl _)
  | cons entry rest ih =>
    intro l
    unfold addSections
    split
    · exact .check fun _ _ => (ih _).of_le (Nat.le_add_left _ _)
    · exact .bind ((pays_addSection hl l entry.1 entry.2).leaving (Nat.le_refl _)) fun m => ih m

/-- Reading a library costs its text. -/
theorem pays_readLibrary (text : String) :
    (readLibrary ls path text).Pays d (textWeight text) fun _ => 0 := by
  refine .check fun node hnode => ?_
  have hsize := size_body_le hnode
  refine .bind ((isFree_loadUsesOf hl node).leaving (Nat.le_of_eq (Nat.zero_add _))) fun uses => ?_
  refine .check fun sections hsections => ?_
  have hparts := (Entry.hasEntries_of_section hsections).holds.size
  rw [← facetsWeight_eq] at hparts
  refine .bind ((pays_addSections hl sections _).of_le (by omega)) fun l => ?_
  refine .bind (AnnotationUse.isFree_bindAll _ _) fun r => ?_
  obtain ⟨annotations, fault⟩ := r
  cases fault with
  | some f => exact .fail _
  | none => exact .pure (Nat.le_refl _)

/-- A data type costs the text that it is read from. -/
theorem pays_readDataType (text : String) :
    (readDataType ls path text).Pays d (textWeight text) fun _ => 0 := by
  refine .check fun node hnode => ?_
  have hsize := size_body_le hnode
  refine .bind ((isFree_loadUsesOf hl node).leaving (Nat.le_of_eq (Nat.zero_add _))) fun uses => ?_
  refine .check fun r hr => ?_
  obtain ⟨usage, entries⟩ := r
  have hentries := sizePairs_cutUsage_le _ hr
  have hpairs := node.sizePairs_lt
  have hdeclaration : (Node.mapping entries node.mark false).size = 1 + Node.sizePairs entries := by
    rw [Node.size]
  have hbuild := Declaration.pays_build hl.dataType path path.stem
    (.mapping entries node.mark false)
  exact .bind (hbuild.of_le (by omega)) fun _ => .pure (Nat.le_refl _)

/-- Reading a data type costs its text. A JSON schema declares nothing else. -/
theorem pays_readDataTypeOrJson (text : String) (isJson : Bool) :
    (readDataTypeOrJson ls path text isJson).Pays d (textWeight text) fun _ => 0 := by
  unfold readDataTypeOrJson
  split
  · unfold readJson
    split
    · have hprice : (Shape.plain path.stem path .unknown (.json text)).price = 0 := rfl
      have hadd : (Load.addShape (Shape.plain path.stem path .unknown (.json text))).IsFree d :=
        (Pays.addShape _).of_le (Nat.le_of_eq hprice)
      exact .bind (hadd.of_le (Nat.zero_le _)) fun _ => .pure (Nat.le_refl _)
    · exact .fail _
  · exact pays_readDataType hl text

end

end Fragment

end RamlTypes
