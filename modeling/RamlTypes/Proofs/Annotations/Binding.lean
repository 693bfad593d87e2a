import RamlTypes.Proofs.Relation.Declaration

/-!
# What the binding of annotations does

Binding an annotation looks its type up in the store, and reports an annotation without a type. It
changes nothing else of the store, and reports do not change what annotations are bound to. So the
annotations of a file are bound as the store says in which their binding begins
(`AnnotationUse.exists_bindAll`).
-/

namespace RamlTypes

/-- Adds diagnostics. -/
def Store.addReports (s : Store) (reports : List Diagnostic) : Store :=
  { s with diagnostics := s.diagnostics ++ reports }

namespace Store

variable (s : Store)

theorem addReports_nil : s.addReports [] = s := by
  rw [addReports, List.append_nil]

theorem addReports_append (ds es : List Diagnostic) :
    (s.addReports ds).addReports es = s.addReports (ds ++ es) := by
  rw [addReports, addReports, addReports, List.append_assoc]

end Store

namespace AnnotationUse

/-- The annotation is bound to what its type is, as seen from the file `path`. -/
def IsBoundIn (s : Store) (path : Path) (a : AnnotationUse) : Prop :=
  a.type? path s = .ok a.definedBy

/-- The reports of the annotations that have no type. -/
def reports (path : Path) (d : Dict String AnnotationUse) : List Diagnostic :=
  d.filterMap fun entry =>
    if entry.2.definedBy.isSome then none else some (.annotationUnbound path.text entry.2.name)

variable {s : Store} {path : Path} {a : AnnotationUse} {d : Dict String AnnotationUse}

/-- An annotation is bound as the store says, unless its library is not known. -/
theorem exists_bind (h : a.definedBy = none) :
    (∃ f, a.bind path s = (.ok (.error f), s)) ∨
    ∃ a', a.bind path s = (.ok (.ok a'), s.addReports (reports path [(a'.name, a')])) ∧
      a' = { a with definedBy := a'.definedBy } ∧ a'.IsBoundIn s path := by
  rw [bind, h]
  rcases ht : a.type? path s with f | (_ | id)
  all_goals simp only [Option.isSome_none, Bool.false_eq_true, if_false, Load.ask_bind, ht]
  · exact .inl ⟨f, rfl⟩
  · refine .inr ⟨a, ?_, rfl, by rw [IsBoundIn, ht, h]⟩
    rw [Store.addReports, reports, List.filterMap_cons, h]
    rfl
  · refine .inr ⟨{ a with definedBy := some id }, ?_, rfl, ht⟩
    exact congrArg (Prod.mk _) s.addReports_nil.symm

/-- Annotations are bound as the store says, up to the first whose library is not known. -/
theorem exists_bindAll (d : Dict String AnnotationUse) : ∀ {s : Store}, Unbound d →
    ∃ d' fault ds, bindAll path d s = (.ok (d', fault), s.addReports ds) ∧
      (fault = none → (∀ x ∈ d', x.2.IsBoundIn s path) ∧ ds = reports path d') := by
  induction d with
  | nil =>
    intro s _
    exact ⟨[], none, [], congrArg (Prod.mk _) s.addReports_nil.symm, fun _ => ⟨nofun, rfl⟩⟩
  | cons entry rest ih =>
    obtain ⟨key, a⟩ := entry
    intro s hu
    rw [Unbound, List.forall_mem_cons] at hu
    rw [bindAll]
    rcases @exists_bind s path a hu.1 with ⟨f, hf⟩ | ⟨a', ha', -, hbound⟩
    · refine ⟨(key, a) :: rest, some f, [], ?_, nofun⟩
      rw [Load.bind_of_ok hf, s.addReports_nil]
      rfl
    · obtain ⟨d', fault, ds, hd', hall⟩ :=
        ih (s := s.addReports (reports path [(a'.name, a')])) hu.2
      refine ⟨(key, a') :: d', fault, reports path [(a'.name, a')] ++ ds, ?_, fun hnone => ?_⟩
      · rw [Load.bind_of_ok ha']
        dsimp only
        rw [Load.bind_of_ok hd', s.addReports_append]
        rfl
      · obtain ⟨hbounds, hds⟩ := hall hnone
        refine ⟨List.forall_mem_cons.2 ⟨hbound, hbounds⟩, ?_⟩
        rw [hds, reports, reports, reports, ← List.filterMap_append]
        rfl

end AnnotationUse

end RamlTypes
